/-
Module: OverUnder.Library.Enclosure
Purpose: Enclosing what a program computes by intervals: an operation on intervals holds
  whatever the operation gives on members, and a test that decides an interval at once is
  spread to all its members by halving.
Trusted boundary: none
Main exports: times, mem_map, mem_add, mem_times, Settles, bisect, pieces, bisect_sound,
  pieces_sound
-/
import Mathlib

namespace OverUnder.Library.Enclosure

open NonemptyInterval

/-! ### Interval operations -/

section Operations

variable {α β : Type*}

theorem mem_map [Preorder α] [Preorder β] (f : α →o β) {s : NonemptyInterval α} {a : α}
    (inside : a ∈ s) : f a ∈ s.map f :=
  ⟨f.monotone inside.1, f.monotone inside.2⟩

theorem mem_add [Preorder α] [Add α] [AddLeftMono α] [AddRightMono α]
    {s t : NonemptyInterval α} {a b : α} (left : a ∈ s) (right : b ∈ t) : a + b ∈ s + t :=
  ⟨add_le_add left.1 right.1, add_le_add left.2 right.2⟩

theorem mem_mul [Preorder α] [Mul α] [MulLeftMono α] [MulRightMono α]
    {s t : NonemptyInterval α} {a b : α} (left : a ∈ s) (right : b ∈ t) : a * b ∈ s * t :=
  ⟨mul_le_mul' left.1 right.1, mul_le_mul' left.2 right.2⟩

/-- The product where factors may be negative: it lies between the products of ends. -/
def times [Mul α] [LinearOrder α] (s t : NonemptyInterval α) : NonemptyInterval α :=
  ⟨(min (min (s.fst * t.fst) (s.fst * t.snd)) (min (s.snd * t.fst) (s.snd * t.snd)),
    max (max (s.fst * t.fst) (s.fst * t.snd)) (max (s.snd * t.fst) (s.snd * t.snd))),
    ((min_le_left _ _).trans (min_le_left _ _)).trans
      ((le_max_left _ _).trans (le_max_left _ _))⟩

section Ring

variable [CommRing α] [LinearOrder α] [IsStrictOrderedRing α]

/-- A multiple of a member lies between the multiples of the ends. -/
theorem mul_between {s : NonemptyInterval α} {a : α} (inside : a ∈ s) (b : α) :
    min (s.fst * b) (s.snd * b) ≤ a * b ∧ a * b ≤ max (s.fst * b) (s.snd * b) := by
  rcases le_total 0 b with positive | negative
  · have low := mul_le_mul_of_nonneg_right inside.1 positive
    have high := mul_le_mul_of_nonneg_right inside.2 positive
    exact ⟨min_le_of_left_le low, le_max_of_le_right high⟩
  · have low := mul_le_mul_of_nonpos_right inside.2 negative
    have high := mul_le_mul_of_nonpos_right inside.1 negative
    exact ⟨min_le_of_right_le low, le_max_of_le_left high⟩

theorem mem_times {s t : NonemptyInterval α} {a b : α} (left : a ∈ s) (right : b ∈ t) :
    a * b ∈ times s t := by
  have outer := mul_between left b
  have low := mul_between right s.fst
  have high := mul_between right s.snd
  simp only [mul_comm _ s.fst, mul_comm _ s.snd] at low high
  constructor
  · calc min (min (s.fst * t.fst) (s.fst * t.snd)) (min (s.snd * t.fst) (s.snd * t.snd))
        ≤ min (s.fst * b) (s.snd * b) := min_le_min low.1 high.1
      _ ≤ a * b := outer.1
  · calc a * b ≤ max (s.fst * b) (s.snd * b) := outer.2
      _ ≤ max (max (s.fst * t.fst) (s.fst * t.snd)) (max (s.snd * t.fst) (s.snd * t.snd)) :=
        max_le_max low.2 high.2

end Ring

end Operations

/-! ### Settling an interval by halving -/

section Bisection

variable {test : Nat → Nat → Bool} {P : Nat → Prop}

/-- A passed test on an interval settles the property for all of it. -/
def Settles (test : Nat → Nat → Bool) (P : Nat → Prop) : Prop :=
  ∀ a b x, a ≤ x → x ≤ b → test a b = true → P x

/-- The test, tried on the halves of an interval where it does not pass, to a depth. -/
def bisect (test : Nat → Nat → Bool) : Nat → Nat → Nat → Bool
  | 0, a, b => test a b
  | depth + 1, a, b =>
      test a b || (bisect test depth a ((a + b) / 2) && bisect test depth ((a + b) / 2 + 1) b)

/-- Halving each of the pieces that end at the given points and at the last one. -/
def pieces (test : Nat → Nat → Bool) (depth : Nat) : List Nat → Nat → Nat → Bool
  | [], a, b => bisect test depth a b
  | cut :: cuts, a, b => bisect test depth a cut && pieces test depth cuts (cut + 1) b

theorem bisect_sound (settles : Settles test P) : ∀ depth, Settles (bisect test depth) P := by
  intro depth
  induction depth with
  | zero => exact settles
  | succ depth ih =>
      intro a b x above below passed
      rw [bisect, Bool.or_eq_true, Bool.and_eq_true] at passed
      rcases passed with whole | ⟨left, right⟩
      · exact settles a b x above below whole
      · rcases Nat.lt_or_ge ((a + b) / 2) x with high | low
        · exact ih _ _ x high below right
        · exact ih _ _ x above low left

theorem pieces_sound (settles : Settles test P) (depth : Nat) :
    ∀ cuts, Settles (pieces test depth cuts) P := by
  intro cuts
  induction cuts with
  | nil => exact bisect_sound settles depth
  | cons cut cuts ih =>
      intro a b x above below passed
      rw [pieces, Bool.and_eq_true] at passed
      rcases Nat.lt_or_ge cut x with high | low
      · exact ih (cut + 1) b x high below passed.2
      · exact bisect_sound settles depth a cut x above low passed.1

end Bisection

end OverUnder.Library.Enclosure
