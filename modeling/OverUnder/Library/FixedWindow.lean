/-
Module: OverUnder.Library.FixedWindow
Purpose: Spending limited in fixed windows. A meter opens a window at the first charge after
  the last window ended and counts what is charged in it. Where each window counts at most a
  cap, any span of the width of a window, wherever it starts, holds at most twice the cap.
Trusted boundary: none
Main exports: Meter, Meter.current, totalWhere, inSpan, totalWhere_mono, totalWhere_split,
  Metered, Metered.fresh, Metered.wait, Metered.current, Metered.charge
-/
import Mathlib

namespace OverUnder.Library.FixedWindow

/-- When a window opened, zero if none did, and what it counted. -/
structure Meter where
  start : Nat
  spent : Nat

/-- The meter read at a time: a new window if none is open. -/
def Meter.current (width now : Nat) (m : Meter) : Meter :=
  if m.start = 0 ∨ now ≥ m.start + width then ⟨now, 0⟩ else m

/-! ### Totals over a history of times and amounts -/

/-- What was charged at the times that `P` admits. -/
def totalWhere (P : Nat → Bool) : List (Nat × Nat) → Nat
  | [] => 0
  | (time, amount) :: earlier => (if P time then amount else 0) + totalWhere P earlier

/-- The times from `first` on, for the width of a window. -/
def inSpan (width first time : Nat) : Bool :=
  decide (first ≤ time) && decide (time < first + width)

variable {P Q R : Nat → Bool} {history : List (Nat × Nat)} {width cap now first time : Nat}

theorem inSpan_iff : inSpan width first time = true ↔ first ≤ time ∧ time < first + width := by
  simp [inSpan]

/-- A larger set of times has a larger total. -/
theorem totalWhere_mono (within : ∀ entry ∈ history, P entry.1 = true → Q entry.1 = true) :
    totalWhere P history ≤ totalWhere Q history := by
  induction history with
  | nil => exact le_rfl
  | cons entry earlier ih =>
      have rest := ih fun e there => within e (.tail _ there)
      have head := within entry (.head _)
      simp only [totalWhere]
      cases admitted : P entry.1 with
      | true =>
          rw [if_pos (head admitted), if_pos rfl]
          omega
      | false =>
          rw [if_neg Bool.false_ne_true]
          omega

/-- A set of times covered by two others has at most the total of both. -/
theorem totalWhere_split
    (covered : ∀ entry ∈ history, P entry.1 = true → Q entry.1 = true ∨ R entry.1 = true) :
    totalWhere P history ≤ totalWhere Q history + totalWhere R history := by
  induction history with
  | nil => exact le_rfl
  | cons entry earlier ih =>
      have rest := ih fun e there => covered e (.tail _ there)
      have head := covered entry (.head _)
      simp only [totalWhere]
      cases admitted : P entry.1 with
      | true =>
          rw [if_pos rfl]
          rcases head admitted with here | here
          · rw [if_pos here]
            omega
          · rw [if_pos here]
            omega
      | false =>
          rw [if_neg Bool.false_ne_true]
          omega

theorem totalWhere_eq_zero (none : ∀ entry ∈ history, P entry.1 = false) :
    totalWhere P history = 0 := by
  induction history with
  | nil => rfl
  | cons entry earlier ih =>
      have rest := ih fun e there => none e (.tail _ there)
      simp only [totalWhere, none entry (.head _), rest]
      rfl

/-! ### Metered histories -/

/-- A meter and the charges, latest first, that brought it where it is: its window counts the
charges since it opened, and neither that window, nor what is left of the one before it, nor any
span at all holds too much. -/
structure Metered (width cap now : Nat) (m : Meter) (history : List (Nat × Nat)) : Prop where
  unopened : m.start = 0 → history = []
  opened : m.start ≤ now
  within : ∀ entry ∈ history, entry.1 < m.start + width
  counted : totalWhere (fun time => decide (m.start ≤ time)) history = m.spent
  spent_le : m.spent ≤ cap
  before_le : totalWhere (fun time => decide (time < m.start ∧ m.start < time + width))
    history ≤ cap
  span_le : ∀ first, totalWhere (inSpan width first) history ≤ 2 * cap

namespace Metered

variable {m : Meter}

theorem fresh (width cap now : Nat) : Metered width cap now ⟨0, 0⟩ [] where
  unopened _ := rfl
  opened := Nat.zero_le _
  within _ there := absurd there List.not_mem_nil
  counted := rfl
  spent_le := Nat.zero_le _
  before_le := Nat.zero_le _
  span_le _ := Nat.zero_le _

theorem wait {later : Nat} (metered : Metered width cap now m history) (passed : now ≤ later) :
    Metered width cap later m history :=
  { metered with opened := metered.opened.trans passed }

/-- A window opens only after the last one ended, so nothing was charged since its start, and
what lies less than a window back was charged in the last one. -/
theorem reopen (metered : Metered width cap now m history) (started : 0 < now) (wide : 0 < width)
    (ended : m.start + width ≤ now) : Metered width cap now ⟨now, 0⟩ history where
  unopened none := absurd none started.ne'
  opened := le_rfl
  within entry there := (metered.within entry there).trans_le (by simp only; omega)
  counted := by
    apply totalWhere_eq_zero
    intro entry there
    have := metered.within entry there
    exact decide_eq_false (by simp only; omega)
  spent_le := Nat.zero_le _
  before_le := by
    apply (totalWhere_mono _).trans (metered.counted.trans_le metered.spent_le)
    intro entry there recent
    have := of_decide_eq_true recent
    exact decide_eq_true (by simp only at this; omega)
  span_le := metered.span_le

/-- The meter as it is read, with its window open at that time. -/
theorem current (metered : Metered width cap now m history) (started : 0 < now)
    (wide : 0 < width) :
    Metered width cap now (m.current width now) history ∧
      0 < (m.current width now).start ∧ now < (m.current width now).start + width := by
  unfold Meter.current
  split
  · next closed =>
    have reopened : Metered width cap now ⟨now, 0⟩ history := by
      rcases closed with never | ended
      · rw [metered.unopened never]
        exact { fresh width cap now with
          unopened := fun _ => rfl, opened := le_rfl,
          within := fun _ there => absurd there List.not_mem_nil,
          counted := rfl, before_le := Nat.zero_le _ }
      · exact metered.reopen started wide ended
    exact ⟨reopened, started, Nat.lt_add_of_pos_right wide⟩
  · next still =>
    exact ⟨metered, by omega, by omega⟩

/-- A charge in the open window, up to the cap. A span that holds it reaches back over part of
this window and part of the one before. -/
theorem charge {amount : Nat} (metered : Metered width cap now m history) (open_ : 0 < m.start)
    (current : now < m.start + width) (covered : m.spent + amount ≤ cap) :
    Metered width cap now ⟨m.start, m.spent + amount⟩ ((now, amount) :: history) where
  unopened none := absurd none open_.ne'
  opened := metered.opened
  within entry there := by
    rcases List.mem_cons.mp there with rfl | earlier
    · exact current
    · exact metered.within entry earlier
  counted := by
    simp only [totalWhere, metered.opened, decide_true, if_true, metered.counted]
    omega
  spent_le := covered
  before_le := by
    have := metered.opened
    simp only [totalWhere, decide_eq_true_eq]
    rw [if_neg (by omega), Nat.zero_add]
    exact metered.before_le
  span_le first := by
    have before := metered.span_le first
    simp only [totalWhere]
    cases holds : inSpan width first now with
    | false => simpa using before
    | true =>
        obtain ⟨after, ends⟩ := inSpan_iff.mp holds
        have parts : totalWhere (inSpan width first) history ≤
            totalWhere (fun time => decide (time < m.start ∧ m.start < time + width)) history +
              totalWhere (fun time => decide (m.start ≤ time)) history := by
          apply totalWhere_split
          intro entry _ inside
          have := inSpan_iff.mp inside
          by_cases recent : m.start ≤ entry.1
          · exact .inr (decide_eq_true recent)
          · have := metered.opened
            exact .inl (decide_eq_true ⟨by omega, by omega⟩)
        have := metered.before_le
        have := metered.counted
        rw [if_pos rfl]
        omega

end Metered

end OverUnder.Library.FixedWindow
