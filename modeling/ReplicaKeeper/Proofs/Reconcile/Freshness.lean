import ReplicaKeeper.Proofs.Reconcile.Interleaving

/-!
# Reports on what was read

A reconcile reads its scaler in its first turn and reports on it in the last but one.  A report that
succeeds meets the scaler that was read: nobody has changed it, deleted it or created it again in
between, not even with the same uid.  `reports_fresh` is the main statement, for every list of events.
-/

set_option autoImplicit false

namespace ReplicaKeeper

open Entries

namespace Server

variable {server : Server} {sent known result : Scaler}

/-- A report with the version of a known scaler succeeds on this scaler only. -/
theorem get?_of_reported (hknown : server.KnowsScaler known)
    (hversion : sent.metadata.resourceVersion = known.metadata.resourceVersion)
    (h : (server.updateStatus sent).1 = .ok result) :
    get? server.scalers sent.metadata.key = some known := by
  obtain ⟨n, hdrawn, hread⟩ := hknown.drawn
  have hanswered := server.updateStatus_answered sent
  rw [h] at hanswered
  generalize (server.updateStatus sent).2 = last at hanswered
  generalize hresult : Except.ok result = answer at hanswered
  cases hanswered with
  | refused error => cases hresult
  | @accepted current hcurrent hmay =>
      rw [receive_scalers] at hcurrent
      have hsame : sent.metadata.resourceVersion = current.metadata.resourceVersion := by
        have hasked := hversion.trans hread
        simp only [mayReport, Bool.and_eq_true, Bool.or_eq_true, decide_eq_true_eq, hasked,
          Option.isNone_some, Bool.false_eq_true, false_or] at hmay
        exact hasked.trans hmay.2
      rw [hcurrent, hknown.unique _ current hcurrent (hsame.symm.trans hversion)]

end Server

namespace Reconcile.System

variable {ι : Type} [DecidableEq ι] (configs : ι → Config) (keys : ι → Key)

/-- A report is written onto the scaler that the reconcile has read, which has been there all the
time. -/
structure Fresh (events : List (Event ι)) (i : ι) (scaler written : Scaler) : Prop where
  key_eq : written.metadata.key = keys i
  /-- Right before the report the scaler is the one that was read. -/
  met : get? (after configs keys events).server.scalers (keys i) = some scaler
  read : ∃ earlier moment later, Began configs keys events i scaler earlier moment later ∧
    Throughout configs keys earlier events fun server => get? server.scalers (keys i) = some scaler

variable {configs keys} {events : List (Event ι)} {i : ι}

/-- Whatever has happened, a report that succeeds is written onto the scaler that was read. -/
theorem reports_fresh {session : Session} (now : Time) {written stored : Scaler}
    (hattempt : (after configs keys events).attempts i = .underWay session)
    (hrequest : (session.nextStep now (configs i)).2 = some (.updateStatus written))
    (hanswer : (Server.store.send (.updateStatus written) (after configs keys events).server).1 =
      .statusUpdated (.ok stored)) :
    Fresh configs keys events i session.scaler written := by
  have hmove := @session.nextStep_move now (configs i)
  rw [hrequest] at hmove
  obtain ⟨finding, hreport, -⟩ := hmove.of_updateStatus
  obtain ⟨earlier, moment, later, hbegan⟩ := exists_began hattempt
  have hreachable := reachable_after configs keys earlier
  have hkey : session.scaler.metadata.key = keys i := hreachable.keyed.scalers _ _ hbegan.stored
  have hread : (after configs keys earlier).server.KnowsScaler session.scaler :=
    hreachable.versioned.scalers _ _ hbegan.stored
  have hearlier : earlier <+: events := ⟨_, hbegan.events_eq.symm⟩
  have hknown := (evolves_between configs keys hearlier).scalers.known hread
  have hwrites : written.metadata = session.scaler.metadata := by
    rw [hreport]
    rfl
  have hmet := Server.get?_of_reported hknown (congrArg ObjectMeta.resourceVersion hwrites)
    (Response.statusUpdated.inj hanswer)
  rw [hwrites, hkey] at hmet
  refine ⟨?_, hmet, earlier, moment, later, hbegan, throughout_scaler hread hmet⟩
  rw [hwrites, hkey]

/-- Two reconciles of one scaler take turns, and the workload of the scaler is missing. -/
def sampleRace : List (Event Bool) :=
  (Server.sampleDeeds.take 1).map .deed ++
    [.turn false default, .turn true default, .turn false default, .turn true default]

theorem reports_fresh_sampleRace :
    let configs : Bool → Config := fun _ => {}
    let keys : Bool → Key := fun _ => Server.sampleKey
    ∃ session written, (after configs keys sampleRace).attempts true = .underWay session ∧
      (session.nextStep default (configs true)).2 = some (.updateStatus written) ∧
      Fresh configs keys sampleRace true session.scaler written :=
  ⟨_, _, rfl, rfl, reports_fresh default rfl rfl rfl⟩

end Reconcile.System

end ReplicaKeeper
