import Mathlib.Algebra.Group.Nat.Defs
import Mathlib.Data.List.Induction
import Mathlib.Data.List.TakeWhile
import ReplicaKeeper.Proofs.Decode.ReadsBack

/-!
# Moments that are read

The text of a moment may be written in many ways, but the moment that is read from it lies within
the calendar, and a leap second is the last one of its minute: `Time.Readable.of_parse`.  `Yields`
says of a reader that all it reads has something in common, and is proved along the way in which the
reader is put together.  A moment that was read is written without its fraction and otherwise as it
is, `Time.wholeSecond_eq_truncate`.
-/

set_option autoImplicit false

namespace ReplicaKeeper

/-! ## What readers yield -/

section Readers

variable {α β σ ε : Type}

/-- Everything that a reader reads has the property. -/
def Yields (reader : StateT σ (Except ε) α) (property : α → Prop) : Prop :=
  ∀ before x after, reader.run before = .ok (x, after) → property x

namespace Yields

variable {reader : StateT σ (Except ε) α} {property : α → Prop} {result : β → Prop}

theorem trivial (reader : StateT σ (Except ε) α) : Yields reader fun _ => True :=
  fun _ _ _ _ => True.intro

theorem pure {x : α} (h : property x) : Yields (Pure.pure x : StateT σ (Except ε) α) property := by
  intro before y after hrun
  cases hrun
  exact h

theorem error (error : ε) :
    Yields (fun _ => .error error : StateT σ (Except ε) α) property := by
  intro before y after hrun
  cases hrun

/-- A reader goes on with what it has read so far. -/
theorem bind (h : Yields reader property) {next : α → StateT σ (Except ε) β}
    (hnext : ∀ x, property x → Yields (next x) result) : Yields (reader >>= next) result := by
  intro before z after hrun
  rw [StateT.run_bind] at hrun
  obtain ⟨⟨x, between⟩, hx, hz⟩ := bind_eq_ok.1 hrun
  exact hnext x (h before x between hx) between z after hz

/-- What was read so far does not matter. -/
theorem skip {next : α → StateT σ (Except ε) β} (hnext : ∀ x, Yields (next x) result) :
    Yields (reader >>= next) result :=
  (trivial reader).bind fun x _ => hnext x

theorem ite {condition : Prop} [Decidable condition] {other : StateT σ (Except ε) α}
    (hthen : condition → Yields reader property) (helse : ¬ condition → Yields other property) :
    Yields (if condition then reader else other) property := by
  split
  · next h => exact hthen h
  · next h => exact helse h

end Yields

end Readers

/-! ## Moments -/

theorem natOfDigits_lt {digits : List Char} (h : ∀ c ∈ digits, c.isDigit = true) :
    natOfDigits digits < 10 ^ digits.length := by
  induction digits using List.reverseRecOn with
  | nil => decide
  | append_singleton digits c ih =>
      have hdigit : digitValue c ≤ 9 := by
        have hc := h c (by simp)
        unfold Char.isDigit at hc
        rw [Bool.and_eq_true, decide_eq_true_eq, decide_eq_true_eq] at hc
        have hupper : c.toNat ≤ 57 := hc.2
        have hzero : '0'.toNat = 48 := rfl
        unfold digitValue
        omega
      have hrest := ih fun d hd => h d (List.mem_append_left _ hd)
      have hstep : natOfDigits (digits ++ [c]) = natOfDigits digits * 10 + digitValue c := by
        unfold natOfDigits
        rw [List.foldl_append]
        rfl
      rw [hstep, List.length_append, List.length_singleton, Nat.pow_succ]
      omega

namespace Time

/-- A leap second is the last one of its minute. -/
def Regular (time : Time) : Prop :=
  time.nanos < nanosPerSecond ∨ time.seconds % 60 = 59

/-- A moment as it may be read.  The years 0 to 9999 are a small part of the calendar. -/
def Readable (time : Time) : Prop := time.InCalendar ∧ time.Regular

/-- The text of such a moment names the moment without its fraction. -/
theorem wholeSecond_eq_truncate {time : Time} (h : time.Regular) :
    time.wholeSecond = time.truncate := by
  unfold wholeSecond truncate
  by_cases hnanos : time.nanos < nanosPerSecond
  · rw [if_pos hnanos, if_pos hnanos]
  · rw [if_neg hnanos, if_neg hnanos, if_pos (h.resolve_left hnanos)]

theorem text_truncate (time : Time) : time.truncate.text = time.text := by
  unfold text truncate
  by_cases hnanos : time.nanos < nanosPerSecond
  · rw [if_pos hnanos, if_pos hnanos]
    rfl
  · rw [if_neg hnanos, if_neg hnanos]
    rfl

/-! ## What is read -/

namespace Reader

theorem yields_twoDigits (least greatest : Nat) :
    Yields (twoDigits least greatest) (· ≤ greatest) := by
  refine .skip fun _ => .skip fun n => .ite (fun h => .pure h.2) fun _ => .error _

/-- A number has as many digits as are read for it, and not more than its width. -/
theorem number_lt {width n : Nat} {cs left : List Char}
    (h : (number (some width)).run cs = .ok (n, left)) :
    n < 10 ^ (cs.length - left.length) ∧ cs.length - left.length ≤ width := by
  change number (some width) cs = _ at h
  unfold number at h
  split at h
  · cases h
  · dsimp only at h
    split at h
    · cases h
    · split at h
      · cases h
      · cases h
        have hdigits : ∀ c ∈ (cs.take width).takeWhile Char.isDigit, c.isDigit = true :=
          fun c hc => List.mem_takeWhile_imp hc
        have htaken : ((cs.take width).takeWhile Char.isDigit).length ≤ (cs.take width).length :=
          (List.takeWhile_prefix _).length_le
        rw [List.length_take] at htaken
        have hleft : cs.length - (cs.drop ((cs.take width).takeWhile Char.isDigit).length).length =
            ((cs.take width).takeWhile Char.isDigit).length := by
          rw [List.length_drop]
          omega
        rw [hleft]
        exact ⟨natOfDigits_lt hdigits, by omega⟩

/-- Of a fraction nine digits count. -/
theorem yields_fraction : Yields fraction (· < nanosPerSecond) := by
  unfold fraction
  refine .skip fun cs => ?_
  split
  · next rest =>
    intro before nanos after hrun
    change ((number (some 9)) rest >>= _) = _ at hrun
    obtain ⟨⟨n, left⟩, hnumber, hnext⟩ := bind_eq_ok.1 hrun
    obtain ⟨hn, htaken⟩ := number_lt hnumber
    cases hnext
    generalize rest.length - left.length = taken at hn htaken
    have hpow : 10 ^ taken * 10 ^ (9 - taken) = nanosPerSecond := by
      rw [← Nat.pow_add, Nat.add_sub_cancel' htaken]
      rfl
    rw [← hpow]
    exact Nat.mul_lt_mul_of_pos_right hn (Nat.pow_pos (by decide))
  · exact .pure (by decide)

/-- An offset is a number of minutes. -/
theorem yields_offset : Yields offset (· % 60 = 0) := by
  refine .skip fun _ => .skip fun cs => .ite (fun _ => .skip fun _ => .pure rfl) fun _ => ?_
  cases cs with
  | nil => exact .error _
  | cons c rest =>
      refine .skip fun _ => .ite (fun _ => .pure rfl) fun _ => .ite (fun _ => ?_) fun _ => .error _
      refine .skip fun hours => .skip fun _ => .skip fun minutes => .pure ?_
      split <;> omega

/-- A moment that is read lies within the calendar, and a leap second is the last of its minute. -/
theorem yields_time : Yields time Readable := by
  unfold time
  -- Year, month and day, hour and minute: of these only the bounds at the end matter.
  refine .skip fun year => .skip fun _ => .skip fun _ => .skip fun month => ?_
  refine .skip fun _ => .skip fun _ => .skip fun day => .skip fun _ => ?_
  refine .skip fun hour => .skip fun _ => .skip fun _ => .skip fun minute => ?_
  refine .skip fun _ => .skip fun _ => ?_
  refine (yields_twoDigits 0 60).bind fun second hsecond => ?_
  refine yields_fraction.bind fun nanos hnanos => ?_
  refine yields_offset.bind fun offset hoffset => .skip fun _ => ?_
  refine .ite (fun _ => .error _) fun _ => .ite (fun _ => .error _) fun _ => ?_
  refine .ite (fun hbounds => .pure ⟨hbounds, ?_⟩) fun _ => .error _
  by_cases hleap : second = 60
  · refine .inr ?_
    subst hleap
    unfold secondsAt secondsPerDay
    dsimp only
    omega
  · exact .inl (by rwa [if_neg hleap])

end Reader

theorem Readable.of_parse {text : String} {time : Time} (h : parse text = .ok time) :
    time.Readable := by
  obtain ⟨⟨read, rest⟩, hrun, rfl⟩ := map_eq_ok.1 h
  exact Reader.yields_time text.toList read rest hrun

end Time

end ReplicaKeeper
