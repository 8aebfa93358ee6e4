/-
Module: OverUnder.Library.Floating
Purpose: Rounding to a unit, half to even; binary64 numbers, which have their unit in the last
  place; sums that round at each step; and how much rounding can take off a sum. Numbers are
  exact, and too small to overflow.
Trusted boundary: none
Main exports: nearest, roundTo, roundTo_pos, round, unit, tiny, round_nonneg, round_ge, sum,
  sum_nonneg, sum_ge
-/
import Mathlib

namespace OverUnder.Library.Floating

/-- The nearest whole number, of two the even one. -/
def nearest (x : Rat) : Int :=
  if x - ⌊x⌋ < 1 / 2 ∨ x - ⌊x⌋ = 1 / 2 ∧ ⌊x⌋ % 2 = 0 then ⌊x⌋ else ⌊x⌋ + 1

/-- The nearest multiple of a unit. -/
def roundTo (place x : Rat) : Rat := nearest (x / place) * place

/-- The exponent of the last place of a binary64 number of this size. -/
def lastPlace (x : Rat) : Int := max (Int.log 2 |x| - 52) (-1074)

/-- The nearest binary64 number. -/
def round (x : Rat) : Rat := roundTo (2 ^ lastPlace x) x

/-- Left-to-right addition of binary64 numbers. -/
def sum (terms : List Rat) : Rat := terms.foldl (fun total x => round (total + x)) 0

/-- Half a last place, relative to a number. -/
def unit : Rat := 1 / 2 ^ 53

/-- Half of the smallest number. -/
def tiny : Rat := 1 / 2 ^ 1075

theorem unit_bounds : 0 < unit ∧ unit < 1 := by
  unfold unit
  constructor
  · positivity
  · norm_num

theorem tiny_pos : 0 < tiny := by
  unfold tiny
  positivity

variable {x place : Rat}

theorem nearest_nonneg (x_pos : 0 ≤ x) : 0 ≤ nearest x := by
  have floor_pos : 0 ≤ ⌊x⌋ := Int.floor_nonneg.mpr x_pos
  unfold nearest
  split
  · exact floor_pos
  · omega

theorem nearest_ge (x : Rat) : x - 1 / 2 ≤ nearest x := by
  have below := Int.lt_floor_add_one x
  unfold nearest
  split
  · next half =>
    rcases half with under | ⟨tie, -⟩
    · linarith
    · linarith
  · push_cast
    linarith

theorem roundTo_nonneg (place_pos : 0 < place) (x_pos : 0 ≤ x) : 0 ≤ roundTo place x :=
  mul_nonneg (mod_cast nearest_nonneg (div_nonneg x_pos place_pos.le)) place_pos.le

theorem roundTo_ge (place_pos : 0 < place) (x : Rat) : x - place / 2 ≤ roundTo place x := by
  have scaled := mul_le_mul_of_nonneg_right (nearest_ge (x / place)) place_pos.le
  calc x - place / 2 = (x / place - 1 / 2) * place := by
        rw [sub_mul, div_mul_cancel₀ x place_pos.ne']
        ring
    _ ≤ roundTo place x := scaled

/-- A number of at least one unit stays positive. -/
theorem roundTo_pos (place_pos : 0 < place) (large : place ≤ x) : 0 < roundTo place x := by
  have half := roundTo_ge place_pos x
  linarith

theorem round_nonneg (x_pos : 0 ≤ x) : 0 ≤ round x :=
  roundTo_nonneg (zpow_pos two_pos _) x_pos

/-- The last place of a positive number, relative to it unless it is the smallest of all. -/
theorem lastPlace_le (x_pos : 0 < x) : (2 : Rat) ^ lastPlace x ≤ 2 * (x * unit + tiny) := by
  have log := Int.zpow_log_le_self (b := 2) one_lt_two x_pos
  have large : (2 : Rat) ^ (Int.log 2 x - 52) ≤ 2 * (x * unit) := by
    rw [zpow_sub₀ two_ne_zero]
    calc (2 : Rat) ^ Int.log 2 x / 2 ^ (52 : Int) ≤ x / 2 ^ (52 : Int) :=
          div_le_div_of_nonneg_right (mod_cast log) (by positivity)
      _ = 2 * (x * unit) := by
        unfold unit
        norm_num
        ring
  have small : (2 : Rat) ^ (-1074 : Int) = 2 * tiny := by
    unfold tiny
    rw [zpow_neg, show (1074 : Int) = ((1074 : Nat) : Int) from rfl, zpow_natCast, pow_succ]
    field_simp
  have scaled : 0 ≤ x * unit := mul_nonneg x_pos.le unit_bounds.1.le
  have rest := tiny_pos
  unfold lastPlace
  rw [abs_of_pos x_pos]
  rcases le_total (Int.log 2 x - 52) (-1074) with low | high
  · rw [max_eq_right low, small]
    linarith
  · rw [max_eq_left high]
    linarith

/-- Rounding takes off half a last place at most. -/
theorem round_ge (x_pos : 0 ≤ x) : x - (x * unit + tiny) ≤ round x := by
  rcases x_pos.eq_or_lt with rfl | x_pos
  · have rest := round_nonneg (le_refl (0 : Rat))
    have small := tiny_pos
    linarith
  · have half := roundTo_ge (zpow_pos two_pos (lastPlace x)) x
    have place := lastPlace_le x_pos
    unfold round
    linarith

/-- What is left of a positive number after some roundings, relative to it. -/
def kept (roundings : Nat) : Rat := (1 - unit) ^ roundings

theorem kept_nonneg (n : Nat) : 0 ≤ kept n := pow_nonneg (by linarith [unit_bounds.2]) n

theorem kept_le_one (n : Nat) : kept n ≤ 1 :=
  pow_le_one₀ (by linarith [unit_bounds.2]) (by linarith [unit_bounds.1])

theorem kept_succ (n : Nat) : kept (n + 1) = kept n * (1 - unit) := pow_succ _ _

theorem sumFrom_ge {terms : List Rat} {total : Rat} (total_pos : 0 ≤ total)
    (terms_pos : ∀ x ∈ terms, 0 ≤ x) :
    kept terms.length * (total + terms.sum) - terms.length * tiny ≤
      terms.foldl (fun total x => round (total + x)) total := by
  induction terms generalizing total with
  | nil => simp [kept]
  | cons x rest ih =>
      have x_pos := terms_pos x (.head rest)
      have later := fun y listed => terms_pos y (.tail x listed)
      have sum_pos : 0 ≤ rest.sum := List.sum_nonneg later
      have added : 0 ≤ total + x := add_nonneg total_pos x_pos
      have rounded := round_ge added
      have whole := ih (round_nonneg added) later
      have keeps := kept_nonneg rest.length
      have most := kept_le_one rest.length
      have small := tiny_pos
      rw [List.foldl_cons, List.sum_cons, List.length_cons, kept_succ]
      refine le_trans ?_ whole
      have lost : kept rest.length * (1 - unit) * rest.sum ≤ kept rest.length * rest.sum :=
        mul_le_mul_of_nonneg_right (mul_le_of_le_one_right keeps (by linarith [unit_bounds.1]))
          sum_pos
      have step := mul_le_mul_of_nonneg_left rounded keeps
      have dropped : kept rest.length * tiny ≤ tiny := mul_le_of_le_one_left small.le most
      push_cast
      nlinarith [lost, step, dropped]

/-- A sum of positive numbers loses at most half a last place with each of them. -/
theorem sum_ge {terms : List Rat} (terms_pos : ∀ x ∈ terms, 0 ≤ x) :
    kept terms.length * terms.sum - terms.length * tiny ≤ sum terms := by
  have whole := sumFrom_ge (le_refl 0) terms_pos
  rwa [zero_add] at whole

theorem sum_nonneg {terms : List Rat} (terms_pos : ∀ x ∈ terms, 0 ≤ x) : 0 ≤ sum terms := by
  have along : ∀ (rest : List Rat) (total : Rat), (∀ x ∈ rest, 0 ≤ x) → 0 ≤ total →
      0 ≤ rest.foldl (fun total x => round (total + x)) total := by
    intro rest
    induction rest with
    | nil => exact fun total _ total_pos => total_pos
    | cons x rest ih =>
        intro total rest_pos total_pos
        exact ih _ (fun y listed => rest_pos y (.tail x listed))
          (round_nonneg (add_nonneg total_pos (rest_pos x (.head rest))))
  exact along terms 0 terms_pos (le_refl 0)

end OverUnder.Library.Floating
