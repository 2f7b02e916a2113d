import ReplicaKeeper.Object.Workload

/-!
# The watch cache

A controller keeps the scalers that a watch has shown to it.  They are found again by namespace and
name, and by the workload that they refer to.
-/

set_option autoImplicit false

namespace ReplicaKeeper

/-- A reference to an object of a known kind.  An object without a namespace has a reference of its
own. -/
structure ObjectRef where
  ns : Option String
  name : String
  deriving DecidableEq, Repr

namespace ObjectRef

/-- Whether a reference comes before another one: references without a namespace come first, then
the namespace decides, and then the name. -/
def before (left right : ObjectRef) : Bool :=
  match left.ns, right.ns with
  | none, none => left.name < right.name
  | none, some _ => true
  | some _, none => false
  | some a, some b => a < b || (a = b && left.name < right.name)

instance : LT ObjectRef := ⟨fun left right => left.before right = true⟩

instance : DecidableLT ObjectRef := fun left right =>
  inferInstanceAs (Decidable (left.before right = true))

/-- The reference to an object; one without a name has none. -/
def of? (metadata : ObjectMeta) : Option ObjectRef :=
  metadata.name.map fun name => ⟨metadata.ns, name⟩

end ObjectRef

/-! ## Events -/

/-- What a watch shows of the scalers. -/
inductive WatchEvent where
  /-- A scaler is new or has changed. -/
  | applied (scaler : Scaler)
  | deleted (scaler : Scaler)
  /-- The watch starts anew, and these are all scalers. -/
  | restarted (scalers : List Scaler)

/-- What a watch has shown cannot be used. -/
inductive WatchError where
  /-- An object has no name. -/
  | missingName
  /-- An object that changed has no resource version, from which the watch would go on. -/
  | missingVersion
  deriving DecidableEq, Repr

def WatchError.message : WatchError → String
  | .missingName => ".metadata.name missing"
  | .missingVersion => "called \x60Option::unwrap()\x60 on a \x60None\x60 value"

/-- The reference to an object that must have a name. -/
def ObjectRef.named (metadata : ObjectMeta) : Except WatchError ObjectRef :=
  match ObjectRef.of? metadata with
  | some reference => .ok reference
  | none => .error .missingName

/-! ## The cache -/

/-- The scalers that a watch has shown. -/
abbrev Cache := Entries ObjectRef Scaler

namespace Cache

/-- Keeps a scaler, in the place of another one with the same reference. -/
def keep (scaler : Scaler) (cache : Cache) : Except WatchError Cache := do
  return Entries.insert (← ObjectRef.named scaler.metadata) scaler cache

/-- What the cache is after an event. -/
def apply (event : WatchEvent) (cache : Cache) : Except WatchError Cache :=
  match event with
  | .applied scaler => keep scaler cache
  | .deleted scaler => do return Entries.erase (← ObjectRef.named scaler.metadata) cache
  | .restarted scalers => scalers.foldlM (fun cache scaler => keep scaler cache) []

/-- The name by which scalers refer to a workload; without one it is the name to generate from. -/
def workloadName (workload : Workload) : String :=
  (workload.metadata.name <|> workload.metadata.generateName).getD ""

/-- The scalers in the namespace of a workload that refer to it by name. -/
def referencing (cache : Cache) (workload : Workload) : List ObjectRef :=
  (cache.filter fun (_, scaler) =>
    scaler.metadata.ns = workload.metadata.ns &&
      scaler.spec.workloadRef.name = workloadName workload).map (·.1)

end Cache

end ReplicaKeeper
