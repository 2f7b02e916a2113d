import ReplicaKeeper.Proofs.Reconcile.History

/-!
# The discipline of reporting

Whatever responses a reconcile is fed, it patches at most once and writes the status at most once, a
patch comes first, and nothing is sent after the status write.  What the status write says is
decided by the response to the patch.  `history_disciplined` is the main statement.

The stages of a reconcile only come closer to the end.  So what a turn has sent bounds how far the
reconcile is ever after, and how far it is says what can still be sent.
-/

set_option autoImplicit false

namespace ReplicaKeeper.Reconcile

/-- Some patch was sent, and the response fed right after it says that it was carried out. -/
def PatchConfirmed (turns : List Turn) : Prop :=
  ∃ k sent answered deployment,
    turns[k]? = some sent ∧ sent.Patches ∧ turns[k + 1]? = some answered ∧
      answered.input.response = some (.patched (.ok deployment))

/-- How a reconcile sends patches and status writes, in its turns up to a state. -/
structure Disciplined (config : Config) (turns : List Turn) (state : State) : Prop where
  /-- At most one patch is sent. -/
  patch_unique : ∀ {i j : Nat} {one another : Turn}, turns[i]? = some one →
    turns[j]? = some another → one.Patches → another.Patches → i = j
  /-- The status is written at most once. -/
  report_unique : ∀ {i j : Nat} {one another : Turn}, turns[i]? = some one →
    turns[j]? = some another → one.Reports → another.Reports → i = j
  /-- A patch comes before the status write. -/
  patch_before_report : ∀ {i j : Nat} {patching reporting : Turn}, turns[i]? = some patching →
    turns[j]? = some reporting → patching.Patches → reporting.Reports → i < j
  /-- Nothing is sent after the status write. -/
  quiet_after_report : ∀ {i j : Nat} {reporting later : Turn}, turns[i]? = some reporting →
    turns[j]? = some later → reporting.Reports → i < j → later.request = none
  /-- A reconcile that is done has written the status, exactly once. -/
  reported_of_done : state.stage = .done →
    ∃! i : Nat, ∃ reporting, turns[i]? = some reporting ∧ reporting.Reports
  /-- The condition that is written reports success if and only if the patch was confirmed, and the
  outcome agrees with it. -/
  condition_of_report : ∀ {i : Nat} {reporting : Turn} {written : Scaler},
    turns[i]? = some reporting → reporting.request = some (.updateStatus written) →
    ∃ condition, written.synced? = some condition ∧
      (condition.status = .success ↔ PatchConfirmed turns) ∧
      (PatchConfirmed turns → state.outcome = .done) ∧
      (¬ PatchConfirmed turns →
        condition.status = .error ∧ state.outcome = .requeueAfter config.retryDelay)
  /-- Once the end is reached the state stays, and nothing is sent. -/
  rest_of_final : ∀ {i j : Nat} {final later : Turn}, turns[i]? = some final →
    turns[j]? = some later → i < j → final.after.stage.isFinal = true →
    later.request = none ∧ later.after = final.after

/-! ## What the turns so far say about the present state -/

/-- How far a reconcile is, as seen from the turns so far. -/
structure Progress (turns : List Turn) (state : State) : Prop where
  rank_le : ∀ turn ∈ turns, state.stage.rank ≤ turn.after.stage.rank
  after_report : ∀ turn ∈ turns, turn.Reports →
    turn.after.stage.rank ≤ 1 ∧ state.outcome = turn.after.outcome
  after_final : ∀ turn ∈ turns, turn.after.stage.isFinal = true → state = turn.after
  patched : state.stage = .awaiting .afterPatchDeployment →
    ∃ last, turns.getLast? = some last ∧ last.Patches
  reported : state.stage = .awaiting .afterUpdateStatus ∨ state.stage = .done →
    ∃ turn ∈ turns, turn.Reports

theorem Turn.Patches.ranks {config : Config} {scaler : Scaler} {turn : Turn}
    (hpatches : turn.Patches) (hmove : turn.IsMove config scaler) :
    turn.before.stage.rank = 3 ∧ turn.after.stage.rank = 2 := by
  obtain ⟨key, patch, hrequest⟩ := hpatches
  obtain ⟨hbefore, hafter, -⟩ := (hmove.sending hrequest).of_patchDeployment
  exact ⟨by rw [hbefore]; rfl, by rw [hafter]; rfl⟩

theorem Turn.Reports.ranks {config : Config} {scaler : Scaler} {turn : Turn}
    (hreports : turn.Reports) (hmove : turn.IsMove config scaler) :
    2 ≤ turn.before.stage.rank ∧ turn.after.stage.rank = 1 := by
  obtain ⟨written, hrequest⟩ := hreports
  obtain ⟨finding, -, hbefore, hafter, -, -⟩ := (hmove.sending hrequest).of_updateStatus
  exact ⟨hbefore, by rw [hafter]; rfl⟩

theorem Progress.start : Progress [] {} where
  rank_le := by simp
  after_report := by simp
  after_final := by simp
  patched := by simp
  reported := by simp

/-- One more turn keeps the progress. -/
theorem Progress.next {config : Config} {scaler : Scaler} {turns : List Turn} {turn : Turn}
    (hprogress : Progress turns turn.before) (hmove : turn.IsMove config scaler) :
    Progress (turns ++ [turn]) turn.after := by
  constructor
  · intro earlier hearlier
    rcases List.mem_append.1 hearlier with hmem | hmem
    · exact Nat.le_trans (Move.rank_le hmove) (hprogress.rank_le earlier hmem)
    · cases List.mem_singleton.1 hmem
      exact Nat.le_refl _
  · intro earlier hearlier hreports
    rcases List.mem_append.1 hearlier with hmem | hmem
    · obtain ⟨hwritten, houtcome⟩ := hprogress.after_report earlier hmem hreports
      have hrank := Nat.le_trans (hprogress.rank_le earlier hmem) hwritten
      refine ⟨hwritten, ?_⟩
      rw [(Move.quiet_of_rank_le hmove hrank).2, houtcome]
    · rw [List.mem_singleton.1 hmem] at hreports ⊢
      exact ⟨Nat.le_of_eq (hreports.ranks hmove).2, rfl⟩
  · intro earlier hearlier hfinal
    rcases List.mem_append.1 hearlier with hmem | hmem
    · have hbefore := hprogress.after_final earlier hmem hfinal
      rw [(Move.rest_of_isFinal hmove (by rw [hbefore]; exact hfinal)).2, hbefore]
    · rw [List.mem_singleton.1 hmem]
  · intro hstage
    exact ⟨turn, List.getLast?_concat, Move.patch_of_stage hmove hstage⟩
  · intro hstage
    rcases Move.report_of_stage hmove hstage with hreports | hbefore
    · exact ⟨turn, List.mem_append_right _ (List.mem_singleton_self turn), hreports⟩
    · obtain ⟨earlier, hmem, hreports⟩ := hprogress.reported hbefore
      exact ⟨earlier, List.mem_append_left _ hmem, hreports⟩

/-! ## Histories are disciplined -/

section Disciplines

variable {config : Config} {scaler : Scaler} {inputs : List Input}

variable (config scaler inputs) in
/-- Progress holds after every history. -/
theorem progress_history :
    Progress (history config scaler inputs) (stateAfter config scaler inputs) :=
  history_induction Progress.start (fun _ _ => Progress.next) inputs

/-- Progress holds before every turn of a history, which is a move. -/
theorem progress_at {i : Nat} {turn : Turn}
    (hturn : (history config scaler inputs)[i]? = some turn) :
    Progress ((history config scaler inputs).take i) turn.before ∧ turn.IsMove config scaler :=
  history_invariant Progress.start (fun _ _ => Progress.next) hturn

theorem mem_take_of_getElem? {turns : List Turn} {i j : Nat} {turn : Turn}
    (hturn : turns[i]? = some turn) (hlt : i < j) : turn ∈ turns.take j :=
  List.mem_of_getElem? ((List.getElem?_take_of_lt hlt).trans hturn)

section Ranks

variable {i j : Nat} {one another : Turn} (hone : (history config scaler inputs)[i]? = some one)
  (hanother : (history config scaler inputs)[j]? = some another)
include hone hanother

/-- A turn starts at least as close to the end as an earlier turn has led. -/
theorem rank_le_of_lt (hlt : i < j) : another.before.stage.rank ≤ one.after.stage.rank :=
  (progress_at hanother).1.rank_le one (mem_take_of_getElem? hone hlt)

/-- No turn comes later than one that has led past it. -/
theorem not_lt_of_rank_lt (hrank : one.after.stage.rank < another.before.stage.rank) : ¬ i < j := by
  intro hlt
  have hle := rank_le_of_lt hone hanother hlt
  omega

/-- Patches are sent at one point only. -/
theorem patch_index_eq (hpatches : one.Patches) (hagain : another.Patches) : i = j := by
  have hranks := hpatches.ranks (progress_at hone).2
  have hagainRanks := hagain.ranks (progress_at hanother).2
  have hbefore := not_lt_of_rank_lt hone hanother (by omega)
  have hafter := not_lt_of_rank_lt hanother hone (by omega)
  omega

/-- The status is written at one point only. -/
theorem report_index_eq (hreports : one.Reports) (hagain : another.Reports) : i = j := by
  have hranks := hreports.ranks (progress_at hone).2
  have hagainRanks := hagain.ranks (progress_at hanother).2
  have hbefore := not_lt_of_rank_lt hone hanother (by omega)
  have hafter := not_lt_of_rank_lt hanother hone (by omega)
  omega

/-- A status write comes after the patch. -/
theorem patch_lt_report (hpatches : one.Patches) (hreports : another.Reports) : i < j := by
  have hranks := hpatches.ranks (progress_at hone).2
  have hreportRanks := hreports.ranks (progress_at hanother).2
  have hafter := not_lt_of_rank_lt hanother hone (by omega)
  have hdistinct : i ≠ j := by
    rintro rfl
    -- One turn leads to one phase.
    rw [hone] at hanother
    cases hanother
    omega
  omega

/-- Nothing is sent after the status write. -/
theorem quiet_of_report_lt (hreports : one.Reports) (hlt : i < j) : another.request = none := by
  have hrank := rank_le_of_lt hone hanother hlt
  rw [(hreports.ranks (progress_at hone).2).2] at hrank
  exact (Move.quiet_of_rank_le (progress_at hanother).2 hrank).1

end Ranks

/-- A success is reported if and only if the patch was confirmed. -/
theorem scaled_iff_patchConfirmed {i : Nat} {reporting : Turn} {finding : Finding}
    (hreporting : (history config scaler inputs)[i]? = some reporting)
    (hreports : reporting.Reports)
    (hfinding : finding = .scaled ↔
      reporting.before.stage = .awaiting .afterPatchDeployment ∧
        ∃ deployment, reporting.input.response = some (.patched (.ok deployment))) :
    finding = .scaled ↔ PatchConfirmed (history config scaler inputs) := by
  rw [hfinding]
  constructor
  · rintro ⟨hstage, deployment, hresponse⟩
    obtain ⟨last, hlast, hpatches⟩ := (progress_at hreporting).1.patched hstage
    obtain ⟨k, rfl, hk⟩ := getElem?_of_getLast?_take hreporting hlast
    exact ⟨k, last, reporting, deployment, hk, hpatches, hreporting, hresponse⟩
  · rintro ⟨k, sent, answered, deployment, hsent, hpatches, hanswered, hresponse⟩
    -- The turn that is told of the patch waits for that, so it is the one that reports.
    obtain ⟨key, patch, hrequest⟩ := hpatches
    have hstage : answered.before.stage = .awaiting .afterPatchDeployment := by
      rw [before_eq_after hsent hanswered]
      exact ((progress_at hsent).2.sending hrequest).of_patchDeployment.2.1
    have hreported : answered.Reports :=
      ((progress_at hanswered).2.told hresponse).report_of_patched hstage
    have hindex : k + 1 = i := report_index_eq hanswered hreporting hreported hreports
    subst hindex
    have hsame : answered = reporting := Option.some.inj (hanswered.symm.trans hreporting)
    subst hsame
    exact ⟨hstage, deployment, hresponse⟩

/-- The condition that is written, and the outcome that goes with it. -/
theorem condition_of_report {i : Nat} {reporting : Turn} {written : Scaler}
    (hreporting : (history config scaler inputs)[i]? = some reporting)
    (hrequest : reporting.request = some (.updateStatus written)) :
    ∃ finding : Finding,
      (finding = .scaled ↔ PatchConfirmed (history config scaler inputs)) ∧
      (stateAfter config scaler inputs).outcome = finding.outcome config ∧
      ∃ condition, written.synced? = some condition ∧ condition.status = finding.status := by
  have hreports : reporting.Reports := ⟨written, hrequest⟩
  obtain ⟨finding, hwritten, -, -, houtcome, hfinding⟩ :=
    ((progress_at hreporting).2.sending hrequest).of_updateStatus
  obtain ⟨-, hkept⟩ := (progress_history config scaler inputs).after_report reporting
    (List.mem_of_getElem? hreporting) hreports
  obtain ⟨condition, hcondition, hstatus, -, -⟩ :=
    Finding.synced?_reporting config reporting.input.now scaler finding
  exact ⟨finding, scaled_iff_patchConfirmed hreporting hreports hfinding, hkept.trans houtcome,
    condition, hwritten ▸ hcondition, hstatus⟩

end Disciplines

/-- Every history of a reconcile is disciplined, whatever the responses are. -/
theorem history_disciplined (config : Config) (scaler : Scaler) (inputs : List Input) :
    Disciplined config (history config scaler inputs) (stateAfter config scaler inputs) where
  patch_unique := patch_index_eq
  report_unique := report_index_eq
  patch_before_report := patch_lt_report
  quiet_after_report := quiet_of_report_lt
  reported_of_done hdone := by
    obtain ⟨reporting, hmem, hreports⟩ :=
      (progress_history config scaler inputs).reported (.inr hdone)
    obtain ⟨i, hreporting⟩ := List.mem_iff_getElem?.1 hmem
    refine ⟨i, ⟨reporting, hreporting, hreports⟩, ?_⟩
    rintro j ⟨another, hanother, hagain⟩
    exact report_index_eq hanother hreporting hagain hreports
  condition_of_report hreporting hrequest := by
    obtain ⟨finding, hconfirmed, houtcome, condition, hcondition, hstatus⟩ :=
      Reconcile.condition_of_report hreporting hrequest
    refine ⟨condition, hcondition, ?_, ?_, ?_⟩
    · rw [hstatus, finding.status_eq_success_iff, hconfirmed]
    · intro h
      rw [houtcome, hconfirmed.2 h]
      rfl
    · intro h
      have hfailed : finding ≠ .scaled := fun hscaled => h (hconfirmed.1 hscaled)
      rw [hstatus, houtcome]
      exact ⟨Finding.status_of_ne_scaled hfailed, Finding.outcome_of_ne_scaled config hfailed⟩
  rest_of_final hfinal hlater hlt hend := by
    obtain ⟨hprogress, hmove⟩ := progress_at hlater
    have hbefore := hprogress.after_final _ (mem_take_of_getElem? hfinal hlt) hend
    obtain ⟨hquiet, hafter⟩ := Move.rest_of_isFinal hmove (by rw [hbefore]; exact hend)
    exact ⟨hquiet, by rw [hafter, hbefore]⟩

end ReplicaKeeper.Reconcile
