import ReplicaKeeper.Controller.Cache
import ReplicaKeeper.Object.Deployment

/-!
# Watches

A watch shows the objects of a collection: all of them at first, and then every change.  Whatever it
shows may be a reason to reconcile scalers.  A controller looks at several watches; those that have
something to show take turns and give one reason at a time, so that the reasons that come from one
watch together are mixed with those from the others.
-/

set_option autoImplicit false

namespace ReplicaKeeper.Controller

/-! ## What watches show -/

/-- What a watch shows. -/
inductive Notice where
  | scaler (event : WatchEvent)
  /-- A Deployment is there, has changed or was deleted. -/
  | deployment (deployment : Deployment)
  /-- A workload is there, has changed or was deleted. -/
  | workload (workload : Workload)

namespace Notice

/-- The metadata of an object that is shown by itself. -/
def metadata? : Notice → Option ObjectMeta
  | .scaler (.applied object) | .scaler (.deleted object) => some object.metadata
  | .scaler (.restarted _) => none
  | .deployment object => some object.metadata
  | .workload object => some object.metadata

/-- What a watch shows when an object changes. -/
def ofChange (notice : Notice) : Except WatchError Notice :=
  if (notice.metadata?.bind ObjectMeta.resourceVersion).isSome then .ok notice
  else .error .missingVersion

/-- The scalers that own an object. -/
def ownersOf (metadata : ObjectMeta) : List ObjectRef :=
  (metadata.owners.filter fun owner =>
    owner.apiVersion = apiVersion && owner.kind = Scaler.kind).map fun owner =>
      ⟨metadata.ns, owner.name⟩

/-- The scalers that a notice is a reason to reconcile, given what is in the cache.  An object that
is shown must have a name, even where nothing depends on it. -/
def reasons (cache : Cache) : Notice → Except WatchError (List ObjectRef)
  | .scaler (.applied object) => do return [← ObjectRef.named object.metadata]
  | .scaler (.deleted _) => .ok []
  | .scaler (.restarted objects) => objects.mapM fun object => ObjectRef.named object.metadata
  | .deployment object => do
      let _ ← ObjectRef.named object.metadata
      return ownersOf object.metadata
  | .workload object => do
      let _ ← ObjectRef.named object.metadata
      return cache.referencing object

/-- The cache after a notice. -/
def update (cache : Cache) : Notice → Except WatchError Cache
  | .scaler event => cache.apply event
  | _ => .ok cache

end Notice

/-! ## Watches -/

/-- A watch of a collection. -/
structure Watch where
  /-- Scalers to reconcile for what was shown last. -/
  reasons : List ObjectRef := []
  /-- What is to be shown now. -/
  showing : List (Except WatchError Notice) := []
  /-- What is to be shown later, with the instants.  Nothing is shown before what stands in front
  of it. -/
  coming : List (Nat × Except WatchError Notice) := []

namespace Watch

/-- When a watch has something to show again. -/
def nextInstant? (watch : Watch) : Option Nat := watch.coming.head?.map (·.1)

/-- Whether a watch has something to show at an instant. -/
def isAwake (now : Nat) (watch : Watch) : Bool := watch.nextInstant?.any (· ≤ now)

/-- A watch with what it has to show at an instant. -/
def wake (now : Nat) (watch : Watch) : Watch :=
  { watch with
    showing := watch.showing ++ (watch.coming.takeWhile (·.1 ≤ now)).map (·.2)
    coming := watch.coming.dropWhile (·.1 ≤ now) }

/-! ## Taking turns -/

/-- How much watches have to show. -/
def showingCount : List Watch → Nat
  | [] => 0
  | watch :: watches => watch.showing.length + showingCount watches

/-- How many reasons watches have to give. -/
def reasonCount : List Watch → Nat
  | [] => 0
  | watch :: watches => watch.reasons.length + reasonCount watches

@[simp] theorem showingCount_append (left right : List Watch) :
    showingCount (left ++ right) = showingCount left + showingCount right := by
  induction left with
  | nil => simp [showingCount]
  | cons watch left ih => simp [showingCount, ih, Nat.add_assoc]

@[simp] theorem reasonCount_append (left right : List Watch) :
    reasonCount (left ++ right) = reasonCount left + reasonCount right := by
  induction left with
  | nil => simp [reasonCount]
  | cons watch left ih => simp [reasonCount, ih, Nat.add_assoc]

/-- What comes of looking at watches. -/
structure Looked where
  /-- Scalers to reconcile, in the order of the turns. -/
  reasons : List ObjectRef
  cache : Cache
  /-- The watches, in the order in which they had nothing more to show. -/
  watches : List Watch

/-- Lets watches take turns until all have shown everything.  A watch goes on until it has a reason
to give. -/
def takeTurns (cache : Cache) : List Watch → Except WatchError Looked
  | [] => .ok ⟨[], cache, []⟩
  | ⟨reason :: reasons, showing, coming⟩ :: watches => do
      let looked ← takeTurns cache (watches ++ [⟨reasons, showing, coming⟩])
      return { looked with reasons := reason :: looked.reasons }
  | ⟨[], notice :: showing, coming⟩ :: watches => do
      let notice ← notice
      let cache ← notice.update cache
      let reasons ← notice.reasons cache
      takeTurns cache (⟨reasons, showing, coming⟩ :: watches)
  | ⟨[], [], coming⟩ :: watches => do
      let looked ← takeTurns cache watches
      return { looked with watches := ⟨[], [], coming⟩ :: looked.watches }
  termination_by watches => (showingCount watches, reasonCount watches, watches.length)
  decreasing_by
    · simp [showingCount, reasonCount, Prod.lex_def]
      omega
    · simp [showingCount, Prod.lex_def]
    · simp [showingCount, reasonCount, Prod.lex_def]

end Watch

end ReplicaKeeper.Controller
