import Mathlib.Data.List.Induction
import ReplicaKeeper.Proofs.Reconcile.Rounds
import ReplicaKeeper.Proofs.Server.Versions
import ReplicaKeeper.Reconcile.Attempt

/-!
# Reconciles that interleave

Any number of reconciles make turns on one server, in any order, and other clients act in between.
`System.after` is what a list of such events leads to.  `Turned` lists what one turn does, which is
nothing that a client could not do: `exists_deeds_turn`.

A reconcile under way has read its scaler in its first turn, `exists_began`, and has the answer to
the request of its last turn, `exists_answered`.  Both theorems say where in the events that was.
What it was told and is still there in the end has been there all the time, `throughout_scaler` and
`throughout_deployment`.

What a reconcile does after given events can be decided, as far as it is about what it knows and what
it asks for.
-/

set_option autoImplicit false

namespace ReplicaKeeper.Reconcile

/-! ## One turn -/

section Turns

variable {σ : Type} (now : Time) (config : Config) (store : Store σ)

/-- What one turn of a reconcile does. -/
inductive Turned : Attempt → σ → Attempt → σ → Prop
  | unreadable {key : Key} {world : σ} {error : ApiError}
      (hread : (store.getScaler key world).1 = .error error)
      (result : Except ReconcileError Action) :
      Turned (.unread key) world (.ended result) (store.getScaler key world).2
  | read {key : Key} {world : σ} {scaler : Scaler}
      (hread : (store.getScaler key world).1 = .ok scaler) :
      Turned (.unread key) world (.underWay { scaler }) (store.getScaler key world).2
  /-- The last step asks for nothing. -/
  | quiet {session : Session} {world : σ} (hnone : (session.nextStep now config).2 = none)
      (result : Except ReconcileError Action) :
      Turned (.underWay session) world (.ended result) world
  | sent {session : Session} {world : σ} {request : Request}
      (hrequest : (session.nextStep now config).2 = some request) :
      Turned (.underWay session) world
        (.underWay { session with
          state := (session.nextStep now config).1
          response := some (store.send request world).1 })
        (store.send request world).2
  | ended (result : Except ReconcileError Action) (world : σ) :
      Turned (.ended result) world (.ended result) world

theorem ofSession_of_isFinal (session : Session) (h : session.state.stage.isFinal = true) :
    ∃ result, Attempt.ofSession session = .ended result := by
  unfold Attempt.ofSession
  rw [if_pos h]
  cases session.state.error? with
  | none => exact ⟨_, rfl⟩
  | some error => exact ⟨_, rfl⟩

/-- Every turn is one of these. -/
theorem advance_turned (attempt : Attempt) (world : σ) :
    Turned now config store attempt world (attempt.advance now config store world).1
      (attempt.advance now config store world).2 := by
  unfold Attempt.advance
  cases attempt with
  | unread key =>
      dsimp only
      split
      · next hread =>
        have herror := congrArg Prod.fst hread
        obtain rfl := congrArg Prod.snd hread
        split <;> exact .unreadable herror _
      · next hread =>
        have hscaler := congrArg Prod.fst hread
        obtain rfl := congrArg Prod.snd hread
        exact .read hscaler
  | underWay session =>
      have hmove := @session.nextStep_move now config
      dsimp only
      cases hrequest : (session.nextStep now config).2 with
      | none =>
          rw [Session.advance_of_none store world hrequest]
          rw [hrequest] at hmove
          obtain ⟨result, hresult⟩ := ofSession_of_isFinal
            { session with state := (session.nextStep now config).1, response := none }
            hmove.of_none.1
          rw [hresult]
          exact .quiet hrequest result
      | some request =>
          rw [Session.advance_of_some store world hrequest]
          rw [hrequest] at hmove
          obtain ⟨phase, hstage, -⟩ := hmove.of_some
          unfold Attempt.ofSession
          rw [if_neg (by rw [hstage]; exact Bool.false_ne_true)]
          exact .sent hrequest
  | ended result => exact .ended result world

end Turns

/-! ## Systems -/

/-- A server and the reconciles on it. -/
structure System (ι : Type) where
  server : Server
  attempts : ι → Attempt

/-- What happens next: a client does something, or a reconcile makes a turn at some moment. -/
inductive Event (ι : Type) where
  | deed (deed : Deed)
  | turn (i : ι) (now : Time)

namespace System

variable {ι : Type} [DecidableEq ι]

/-- Nothing has happened yet. -/
def start (keys : ι → Key) : System ι := ⟨{}, fun i => .unread (keys i)⟩

/-- A reconcile makes a turn, and the server executes its request. -/
def turn (configs : ι → Config) (system : System ι) (i : ι) (now : Time) : System ι :=
  let made := (system.attempts i).advance now (configs i) Server.store system.server
  ⟨made.2, fun j => if j = i then made.1 else system.attempts j⟩

def run (configs : ι → Config) (system : System ι) : Event ι → System ι
  | .deed deed => { system with server := deed.run system.server }
  | .turn i now => system.turn configs i now

/-- What the events lead to. -/
def after (configs : ι → Config) (keys : ι → Key) (events : List (Event ι)) : System ι :=
  events.foldl (run configs) (start keys)

variable (configs : ι → Config) (keys : ι → Key)

theorem after_append (events more : List (Event ι)) :
    after configs keys (events ++ more) = more.foldl (run configs) (after configs keys events) :=
  List.foldl_append

theorem turned (system : System ι) (i : ι) (now : Time) :
    Turned now (configs i) Server.store (system.attempts i) system.server
      ((system.turn configs i now).attempts i) (system.turn configs i now).server := by
  have hturned := advance_turned now (configs i) Server.store (system.attempts i) system.server
  unfold turn
  dsimp only
  rw [if_pos rfl]
  exact hturned

/-- The other reconciles wait. -/
theorem attempts_turn (system : System ι) {i j : ι} (h : j ≠ i) (now : Time) :
    (system.turn configs i now).attempts j = system.attempts j :=
  if_neg h

/-! ## Turns as deeds -/

/-- On the server a turn is what a client could do as well. -/
theorem exists_deeds_turn (system : System ι) (i : ι) (now : Time) :
    ∃ deeds : List Deed, (system.turn configs i now).server = deeds.foldl Deed.run system.server := by
  have hturned := turned configs system i now
  generalize system.attempts i = attempt, (system.turn configs i now).attempts i = next,
    (system.turn configs i now).server = last at hturned ⊢
  cases hturned with
  | @unreadable key | @read key => exact ⟨[.readScaler key], rfl⟩
  | quiet | ended => exact ⟨[], rfl⟩
  | @sent session _ request hrequest => exact ⟨[.send request], rfl⟩

theorem exists_deeds_foldl (system : System ι) (events : List (Event ι)) :
    ∃ deeds : List Deed,
      (events.foldl (run configs) system).server = deeds.foldl Deed.run system.server := by
  induction events generalizing system with
  | nil => exact ⟨[], rfl⟩
  | cons event events ih =>
      have hfirst : ∃ deeds : List Deed,
          (run configs system event).server = deeds.foldl Deed.run system.server := by
        cases event with
        | deed deed => exact ⟨[deed], rfl⟩
        | turn i now => exact exists_deeds_turn configs system i now
      obtain ⟨first, hfirst⟩ := hfirst
      obtain ⟨others, hothers⟩ := ih (run configs system event)
      refine ⟨first ++ others, ?_⟩
      rw [List.foldl_append, ← hfirst, ← hothers]
      rfl

theorem reachable_after (events : List (Event ι)) : (after configs keys events).server.Reachable := by
  obtain ⟨deeds, hdeeds⟩ := exists_deeds_foldl configs (start keys) events
  have hreachable := Server.Reachable.start.foldl deeds
  rw [after, hdeeds]
  exact hreachable

/-- The server evolves. -/
theorem evolves_between {earlier events : List (Event ι)} (h : earlier <+: events) :
    Server.Evolves (after configs keys earlier).server (after configs keys events).server := by
  obtain ⟨more, rfl⟩ := h
  obtain ⟨deeds, hdeeds⟩ := exists_deeds_foldl configs (after configs keys earlier) more
  rw [after_append, hdeeds]
  exact Server.evolves_foldl _ deeds

/-- The server has a property from the earlier events on, until all of them have happened. -/
def Throughout (earlier events : List (Event ι)) (P : Server → Prop) : Prop :=
  ∀ between, earlier <+: between → between <+: events → P (after configs keys between).server

variable {configs keys} in
/-- A scaler that is there in the end has been there since it was known. -/
theorem throughout_scaler {earlier events : List (Event ι)} {key : Key} {scaler : Scaler}
    (hknown : (after configs keys earlier).server.KnowsScaler scaler)
    (hstored : Entries.get? (after configs keys events).server.scalers key = some scaler) :
    Throughout configs keys earlier events fun server =>
      Entries.get? server.scalers key = some scaler := by
  intro between hearlier hlater
  have hevolves := evolves_between configs keys hearlier
  exact (evolves_between configs keys hlater).scalers.stood
    (hevolves.scalers.drawn hknown.drawn) hstored

variable {configs keys} in
/-- A Deployment that is there in the end has been there since it was known. -/
theorem throughout_deployment {earlier events : List (Event ι)} {key : Key}
    {deployment : Deployment} (hknown : (after configs keys earlier).server.KnowsDeployment deployment)
    (hstored : Entries.get? (after configs keys events).server.deployments key = some deployment) :
    Throughout configs keys earlier events fun server =>
      Entries.get? server.deployments key = some deployment := by
  intro between hearlier hlater
  have hevolves := evolves_between configs keys hearlier
  exact (evolves_between configs keys hlater).deployments.stood
    (hevolves.deployments.drawn hknown.drawn) hstored

/-- A request that is made is executed at once. -/
theorem server_of_sent {events : List (Event ι)} {i : ι} {session : Session} {now : Time}
    {request : Request} (h : (after configs keys events).attempts i = .underWay session)
    (hrequest : (session.nextStep now (configs i)).2 = some request) :
    (after configs keys (events ++ [.turn i now])).server =
      (Server.store.send request (after configs keys events).server).2 := by
  rw [after_append]
  change ((after configs keys events).turn configs i now).server = _
  unfold turn Attempt.advance
  rw [h]
  dsimp only
  rw [Session.advance_of_some Server.store _ hrequest]

/-! ## Where a reconcile knows something from -/

/-- The reconcile has read its scaler between the earlier and the later events. -/
structure Began (events : List (Event ι)) (i : ι) (scaler : Scaler) (earlier : List (Event ι))
    (moment : Time) (later : List (Event ι)) : Prop where
  events_eq : events = earlier ++ .turn i moment :: later
  unread : (after configs keys earlier).attempts i = .unread (keys i)
  read : ((after configs keys earlier).server.getScaler (keys i)).1 = .ok scaler

/-- The last turn of the reconcile was between the earlier and the later events: it made the
request, and the server gave the response. -/
structure Answered (events : List (Event ι)) (i : ι) (request : Request) (response : Response)
    (earlier : List (Event ι)) (moment : Time) (later : List (Event ι)) : Prop where
  events_eq : events = earlier ++ .turn i moment :: later
  last : ∀ now, .turn i now ∉ later
  asked : ∃ session, (after configs keys earlier).attempts i = .underWay session ∧
    (session.nextStep moment (configs i)).2 = some request
  answer : (Server.store.send request (after configs keys earlier).server).1 = response

/-- How an event leaves a reconcile under way. -/
inductive Leaves (events : List (Event ι)) (i : ι) (session : Session) : Event ι → Prop
  | waiting {event : Event ι} (hother : ∀ now, event ≠ .turn i now)
      (hkept : (after configs keys events).attempts i = .underWay session) :
      Leaves events i session event
  | read (now : Time) (hunread : (after configs keys events).attempts i = .unread (keys i))
      (hread : ((after configs keys events).server.getScaler (keys i)).1 = .ok session.scaler)
      (hresponse : session.response = none) : Leaves events i session (.turn i now)
  | sent (now : Time) {before : Session} {request : Request}
      (hbefore : (after configs keys events).attempts i = .underWay before)
      (hrequest : (before.nextStep now (configs i)).2 = some request)
      (hscaler : session.scaler = before.scaler)
      (hresponse : session.response =
        some (Server.store.send request (after configs keys events).server).1) :
      Leaves events i session (.turn i now)

/-- An event is the turn of the reconcile, or it leaves the reconcile as it is. -/
theorem attempts_append (events : List (Event ι)) (i : ι) (event : Event ι) :
    (∃ now, event = .turn i now) ∨ (∀ now, event ≠ .turn i now) ∧
      (after configs keys (events ++ [event])).attempts i = (after configs keys events).attempts i := by
  rw [after_append]
  cases event with
  | deed deed => exact .inr ⟨nofun, rfl⟩
  | turn j now =>
      by_cases hsame : i = j
      · subst hsame
        exact .inl ⟨now, rfl⟩
      · refine .inr ⟨fun later heq => ?_, attempts_turn configs _ hsame now⟩
        cases heq
        exact hsame rfl

theorem turned_append (events : List (Event ι)) (i : ι) (now : Time) :
    Turned now (configs i) Server.store ((after configs keys events).attempts i)
      (after configs keys events).server ((after configs keys (events ++ [.turn i now])).attempts i)
      (after configs keys (events ++ [.turn i now])).server := by
  rw [after_append]
  exact turned configs (after configs keys events) i now

/-- Only the beginning is before a reconcile has read its scaler. -/
theorem key_of_unread {events : List (Event ι)} {i : ι} {key : Key}
    (h : (after configs keys events).attempts i = .unread key) : key = keys i := by
  induction events using List.reverseRecOn with
  | nil => exact (Attempt.unread.inj h).symm
  | append_singleton events event ih =>
      rcases attempts_append configs keys events i event with ⟨now, rfl⟩ | ⟨-, hkept⟩
      · have hturned := turned_append configs keys events i now
        rw [h] at hturned
        generalize (after configs keys events).attempts i = attempt at hturned
        cases hturned
      · rw [hkept] at h
        exact ih h

variable {configs keys}

theorem leaves {events : List (Event ι)} {i : ι} {event : Event ι} {session : Session}
    (h : (after configs keys (events ++ [event])).attempts i = .underWay session) :
    Leaves configs keys events i session event := by
  rcases attempts_append configs keys events i event with ⟨now, rfl⟩ | ⟨hother, hkept⟩
  · have hturned := turned_append configs keys events i now
    rw [h] at hturned
    generalize (after configs keys (events ++ [.turn i now])).server = last at hturned
    generalize hbefore : (after configs keys events).attempts i = attempt at hturned
    cases hturned with
    | read hread =>
        obtain rfl := key_of_unread configs keys hbefore
        exact .read now hbefore hread rfl
    | sent hrequest => exact .sent now hbefore hrequest rfl rfl
  · rw [hkept] at h
    exact .waiting hother h

variable {events : List (Event ι)} {i : ι}

theorem Began.append {scaler : Scaler} {earlier later : List (Event ι)} {moment : Time}
    (h : Began configs keys events i scaler earlier moment later) (event : Event ι) :
    Began configs keys (events ++ [event]) i scaler earlier moment (later ++ [event]) where
  events_eq := by rw [h.events_eq, List.append_assoc, List.cons_append]
  unread := h.unread
  read := h.read

/-- A reconcile under way has read its scaler. -/
theorem exists_began {session : Session}
    (h : (after configs keys events).attempts i = .underWay session) :
    ∃ earlier moment later, Began configs keys events i session.scaler earlier moment later := by
  induction events using List.reverseRecOn generalizing session with
  | nil => cases h
  | append_singleton events event ih =>
      cases leaves h with
      | waiting hother hkept =>
          obtain ⟨earlier, moment, later, hbegan⟩ := ih hkept
          exact ⟨earlier, moment, later ++ [event], hbegan.append event⟩
      | read now hunread hread hresponse => exact ⟨events, now, [], rfl, hunread, hread⟩
      | sent now hbefore hrequest hscaler hresponse =>
          obtain ⟨earlier, moment, later, hbegan⟩ := ih hbefore
          rw [hscaler]
          exact ⟨earlier, moment, later ++ [.turn i now], hbegan.append _⟩

/-- A scaler that a reconcile has read was stored at that time. -/
theorem Began.stored {scaler : Scaler} {earlier later : List (Event ι)} {moment : Time}
    (h : Began configs keys events i scaler earlier moment later) :
    Entries.get? (after configs keys earlier).server.scalers (keys i) = some scaler := by
  have hread := h.read
  rw [Server.getScaler_eq] at hread
  exact Server.get?_of_answerOf hread

/-- A reconcile goes on with the scaler that it was begun for. -/
theorem key_of_underWay {session : Session}
    (h : (after configs keys events).attempts i = .underWay session) :
    session.scaler.metadata.key = keys i := by
  obtain ⟨earlier, moment, later, hbegan⟩ := exists_began h
  exact (reachable_after configs keys earlier).keyed.scalers _ _ hbegan.stored

/-- A response that a reconcile has is the answer to the request of its last turn. -/
theorem exists_answered {session : Session} {response : Response}
    (h : (after configs keys events).attempts i = .underWay session)
    (hresponse : session.response = some response) :
    ∃ request earlier moment later,
      Answered configs keys events i request response earlier moment later := by
  induction events using List.reverseRecOn with
  | nil => cases h
  | append_singleton events event ih =>
      cases leaves h with
      | waiting hother hkept =>
          obtain ⟨request, earlier, moment, later, hanswered⟩ := ih hkept
          refine ⟨request, earlier, moment, later ++ [event], ?_, fun now hmem => ?_,
            hanswered.asked, hanswered.answer⟩
          · rw [hanswered.events_eq, List.append_assoc, List.cons_append]
          · rcases List.mem_append.1 hmem with hlater | hevent
            · exact hanswered.last now hlater
            · exact hother now (List.mem_singleton.1 hevent).symm
      | read now hunread hread hnone =>
          rw [hnone] at hresponse
          cases hresponse
      | @sent now before request hbefore hrequest hscaler hsent =>
          rw [hsent] at hresponse
          exact ⟨request, events, now, [], rfl, nofun, ⟨before, hbefore, hrequest⟩,
            Option.some.inj hresponse⟩

/-- A Deployment that a reconcile was told was stored at that time. -/
theorem Answered.getDeployment {request : Request} {fetched : Deployment}
    {earlier later : List (Event ι)} {moment : Time}
    (h : Answered configs keys events i request (.deployment (.ok fetched)) earlier moment later) :
    ∃ asked, request = .getDeployment asked ∧
      Entries.get? (after configs keys earlier).server.deployments asked = some fetched := by
  have hanswer := h.answer
  cases request with
  | getDeployment asked =>
      rw [Server.send_getDeployment] at hanswer
      exact ⟨asked, rfl, Server.get?_of_answerOf (Response.deployment.inj hanswer)⟩
  | getWorkload | patchDeployment | updateStatus => cases hanswer

/-- The answer to a patch is the answer to a patch. -/
theorem Answered.patchDeployment {request : Request} {answer : Except ApiError Deployment}
    {earlier later : List (Event ι)} {moment : Time}
    (h : Answered configs keys events i request (.patched answer) earlier moment later) :
    ∃ key patch, request = .patchDeployment key patch := by
  have hanswer := h.answer
  cases request with
  | patchDeployment key patch => exact ⟨key, patch, rfl⟩
  | getWorkload | getDeployment | updateStatus => cases hanswer

variable (configs keys) in
/-- A reconcile waits until its next turn. -/
theorem attempts_of_no_turn (events later : List (Event ι)) (h : ∀ now, .turn i now ∉ later) :
    (after configs keys (events ++ later)).attempts i = (after configs keys events).attempts i := by
  induction later using List.reverseRecOn with
  | nil => rw [List.append_nil]
  | append_singleton later event ih =>
      have hlater := ih fun now hmem => h now (List.mem_append_left _ hmem)
      rw [← List.append_assoc]
      rcases attempts_append configs keys (events ++ later) i event with ⟨now, rfl⟩ | ⟨-, hkept⟩
      · exact absurd (List.mem_append_right _ (List.mem_singleton_self _)) (h now)
      · rw [hkept, hlater]

/-- The request of the last turn was made for the same scaler. -/
theorem Answered.exists_session {request : Request} {response : Response}
    {earlier later : List (Event ι)} {moment : Time}
    (h : Answered configs keys events i request response earlier moment later) {session : Session}
    (hsession : (after configs keys events).attempts i = .underWay session) :
    ∃ before, (after configs keys earlier).attempts i = .underWay before ∧
      (before.nextStep moment (configs i)).2 = some request ∧ before.scaler = session.scaler := by
  obtain ⟨before, hbefore, hrequest⟩ := h.asked
  refine ⟨before, hbefore, hrequest, ?_⟩
  rw [h.events_eq, List.append_cons, attempts_of_no_turn configs keys _ _ h.last] at hsession
  cases leaves hsession with
  | waiting hother hkept => exact absurd rfl (hother moment)
  | read now hunread hread hresponse =>
      rw [hbefore] at hunread
      cases hunread
  | sent now hbetween hasked hscaler hresponse =>
      rw [hbefore] at hbetween
      cases hbetween
      exact hscaler.symm

end System

/-! ## Deciding what a reconcile does -/

section Decisions

instance decidableFound {α : Type} (value : Option α) (p : α → Prop) [DecidablePred p] :
    Decidable (∃ found, value = some found ∧ p found) :=
  match value with
  | some found => decidable_of_iff (p found) (by simp)
  | none => isFalse (by simp)

instance decidableUnderWay (attempt : Attempt) (p : Session → Prop) [DecidablePred p] :
    Decidable (∃ session, attempt = .underWay session ∧ p session) :=
  match attempt with
  | .underWay session => decidable_of_iff (p session) (by simp)
  | .unread _ | .ended _ => isFalse (by simp)

instance decidableReport (request : Option Request) (p : Scaler → Prop) [DecidablePred p] :
    Decidable (∃ written, request = some (.updateStatus written) ∧ p written) :=
  match request with
  | some (.updateStatus written) => decidable_of_iff (p written) (by simp)
  | none | some (.getWorkload _) | some (.getDeployment _) | some (.patchDeployment _ _) =>
      isFalse (by simp)

instance decidablePatch (request : Option Request) (key : Key) (p : Json → Prop) [DecidablePred p] :
    Decidable (∃ patch, request = some (.patchDeployment key patch) ∧ p patch) :=
  match request with
  | some (.patchDeployment target patch) =>
      if h : target = key then decidable_of_iff (p patch) (by simp [h]) else isFalse (by simp [h])
  | none | some (.getWorkload _) | some (.getDeployment _) | some (.updateStatus _) =>
      isFalse (by simp)

instance decidableFetched (response : Option Response) (p : Deployment → Prop) [DecidablePred p] :
    Decidable (∃ fetched, response = some (.deployment (.ok fetched)) ∧ p fetched) :=
  match response with
  | some (.deployment (.ok fetched)) => decidable_of_iff (p fetched) (by simp)
  | none | some (.deployment (.error _)) | some (.workload _) | some (.patched _)
  | some (.statusUpdated _) => isFalse (by simp)

instance decidableRefused (response : Response) (error : ApiError) :
    Decidable (response = .patched (.error error)) :=
  match response with
  | .patched (.error found) => decidable_of_iff (found = error) (by simp)
  | .patched (.ok _) | .workload _ | .deployment _ | .statusUpdated _ => isFalse (by simp)

end Decisions

end ReplicaKeeper.Reconcile
