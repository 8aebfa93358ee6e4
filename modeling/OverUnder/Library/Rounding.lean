/-
Module: OverUnder.Library.Rounding
Purpose: Quotients of natural numbers rounded up or down: one part at a time, and a
  quantity scaled up against one scaled down by the same ratio.
Trusted boundary: none
Main exports: sum_mul_div_le, sum_map_div_le, le_ceilDiv_mul, ceilDiv_mul_lt, ceilDiv_cast_bounds,
  div_cast_bounds, mul_le_of_rounded, mul_lt_of_rounded, taken_back_le, kept_back_le,
  ratio_le_of_rounded, lt_tdiv_add_one_mul, tdiv_le_of_lt, abs_tdiv_sub_lt, rescaled_quotient
-/
import Mathlib

namespace OverUnder.Library

/-- Each part loses less than one unit when its quotient is rounded down. -/
theorem sum_mul_add_length_le (p d : Nat) (positive : 0 < d) (parts : List Nat) :
    parts.sum * p + parts.length ≤
      d * ((parts.map fun f => f * p / d).sum + parts.length) := by
  induction parts with
  | nil => simp
  | cons f rest ih =>
      have part : f * p < d * (f * p / d + 1) := Nat.lt_mul_div_succ _ positive
      simp only [List.sum_cons, List.map_cons, List.length_cons]
      calc (f + rest.sum) * p + (rest.length + 1)
          = (f * p + 1) + (rest.sum * p + rest.length) := by ring
        _ ≤ d * (f * p / d + 1) +
            d * ((rest.map fun f => f * p / d).sum + rest.length) :=
          Nat.add_le_add part ih
        _ = d * (f * p / d + (rest.map fun f => f * p / d).sum + (rest.length + 1)) := by ring

/-- Rounding down once for the whole is ahead of rounding down each part by less than
the number of parts. -/
theorem sum_mul_div_le (p d : Nat) (positive : 0 < d) (parts : List Nat) :
    parts.sum * p / d ≤ (parts.map fun f => f * p / d).sum + (parts.length - 1) := by
  cases parts with
  | nil => simp
  | cons f rest =>
      have strict := sum_mul_add_length_le p d positive (f :: rest)
      have below : (f :: rest).sum * p / d <
          ((f :: rest).map fun f => f * p / d).sum + (f :: rest).length := by
        rw [Nat.div_lt_iff_lt_mul positive, Nat.mul_comm _ d]
        exact Nat.lt_of_lt_of_le (Nat.lt_add_of_pos_right (by simp)) strict
      simp only [List.length_cons] at below ⊢
      omega

/-! ### Quotients rounded up -/

/-- Rounding each part down loses at least what rounding the whole down loses. -/
theorem sum_map_div_le (d : Nat) (parts : List Nat) :
    (parts.map (· / d)).sum ≤ parts.sum / d := by
  induction parts with
  | nil => simp
  | cons f rest ih =>
      rw [List.map_cons, List.sum_cons, List.sum_cons]
      calc f / d + (rest.map (· / d)).sum ≤ f / d + rest.sum / d := Nat.add_le_add_left ih _
        _ ≤ (f + rest.sum) / d := Nat.div_add_div_le_add_div

theorem div_le_ceilDiv (n : Nat) {d : Nat} (positive : 0 < d) : n / d ≤ n ⌈/⌉ d := by
  rw [Nat.ceilDiv_eq_add_pred_div]
  exact Nat.div_le_div_right (by omega)

theorem le_ceilDiv_mul {n d : Nat} (positive : 0 < d) : n ≤ (n ⌈/⌉ d) * d := by
  rw [Nat.mul_comm]
  exact le_smul_ceilDiv positive

theorem ceilDiv_mul_lt {n d : Nat} (positive : 0 < d) : (n ⌈/⌉ d) * d < n + d := by
  have below : (n + d - 1) / d * d ≤ n + d - 1 := Nat.div_mul_le_self _ _
  rw [Nat.ceilDiv_eq_add_pred_div]
  omega

/-- Both quotients are less than one away from the exact one. -/
theorem ceilDiv_cast_bounds (n : Nat) {d : Nat} (positive : 0 < d) :
    (n : ℚ) / d ≤ (n ⌈/⌉ d : Nat) ∧ ((n ⌈/⌉ d : Nat) : ℚ) < n / d + 1 := by
  have exact_d : (0 : ℚ) < d := by exact_mod_cast positive
  have above : (n : ℚ) ≤ (n ⌈/⌉ d : Nat) * d := by exact_mod_cast le_ceilDiv_mul positive
  have below : ((n ⌈/⌉ d : Nat) : ℚ) * d < n + d := by exact_mod_cast ceilDiv_mul_lt positive
  rw [div_le_iff₀ exact_d, div_add_one exact_d.ne', lt_div_iff₀ exact_d]
  exact ⟨above, below⟩

theorem div_cast_bounds (n : Nat) {d : Nat} (positive : 0 < d) :
    ((n / d : Nat) : ℚ) ≤ n / d ∧ (n : ℚ) / d < (n / d : Nat) + 1 := by
  have exact_d : (0 : ℚ) < d := by exact_mod_cast positive
  have below : ((n / d : Nat) : ℚ) * d ≤ n := by exact_mod_cast Nat.div_mul_le_self n d
  have above : (n : ℚ) < ((n / d : Nat) + 1) * d := by
    rw [mul_comm]
    exact_mod_cast Nat.lt_mul_div_succ n positive
  rw [le_div_iff₀ exact_d, div_lt_iff₀ exact_d]
  exact ⟨below, above⟩

variable {r s a d up down : Nat}

/-- `r` scaled by `a / d` and rounded up, against `s` scaled and rounded down. -/
theorem mul_le_of_rounded (positive : 0 < d) (above : r * a ≤ up * d)
    (below : down * d ≤ s * a) : r * down ≤ up * s := by
  apply Nat.le_of_mul_le_mul_right _ positive
  calc r * down * d = r * (down * d) := by ring
    _ ≤ r * (s * a) := Nat.mul_le_mul_left _ below
    _ = r * a * s := by ring
    _ ≤ up * d * s := Nat.mul_le_mul_right _ above
    _ = up * s * d := by ring

theorem mul_lt_of_rounded (some_s : 0 < s) (above : r * a < up * d)
    (below : down * d ≤ s * a) : r * down < up * s := by
  apply Nat.lt_of_mul_lt_mul_right (a := d)
  calc r * down * d = r * (down * d) := by ring
    _ ≤ r * (s * a) := Nat.mul_le_mul_left _ below
    _ = r * a * s := by ring
    _ < up * d * s := Nat.mul_lt_mul_of_pos_right above some_s
    _ = up * s * d := by ring

/-- A lower bound on the ratio of two numbers survives rescaling both by one ratio, the
upper one rounded up and the lower one rounded down. -/
theorem ratio_le_of_rounded {b r' b' k w : Nat} (positive : 0 < d) (below : b' * d ≤ b * a)
    (above : r * a ≤ r' * d) (bound : b * k ≤ r * w) : b' * k ≤ r' * w := by
  apply Nat.le_of_mul_le_mul_right _ positive
  calc b' * k * d = b' * d * k := by ring
    _ ≤ b * a * k := Nat.mul_le_mul_right _ below
    _ = b * k * a := by ring
    _ ≤ r * w * a := Nat.mul_le_mul_right _ bound
    _ = r * a * w := by ring
    _ ≤ r' * d * w := Nat.mul_le_mul_right _ above
    _ = r' * w * d := by ring

/-! ### A part put in and taken back -/

/-- A part of `r` rounded up, put in against `m` new shares, covers what these shares
take back. -/
theorem taken_back_le {m : Nat} (fair : r * m ≤ up * s) : (r + up) * m / (s + m) ≤ up := by
  apply Nat.div_le_of_le_mul
  calc (r + up) * m = r * m + up * m := by ring
    _ ≤ up * s + up * m := Nat.add_le_add_right fair _
    _ = (s + m) * up := by ring

/-- So does a part rounded down, the quotient taken back being rounded down as well. -/
theorem kept_back_le {m : Nat} (some_s : 0 < s) (fair : r * m < (down + 1) * s) :
    (r + down) * m / (s + m) ≤ down := by
  apply Nat.le_of_lt_succ
  rw [Nat.div_lt_iff_lt_mul (Nat.add_pos_left some_s m)]
  calc (r + down) * m = r * m + down * m := by ring
    _ < (down + 1) * s + down * m := Nat.add_lt_add_right fair _
    _ ≤ (down + 1) * s + (down * m + m) := Nat.add_le_add_left (Nat.le_add_right _ _) _
    _ = (down + 1) * (s + m) := by ring

/-! ### Signed quotients -/

theorem lt_tdiv_add_one_mul (x : Int) {d : Nat} (positive : 0 < d) :
    x < (x.tdiv d + 1) * d := by
  have parts := Int.tdiv_mul_add_tmod x d
  have rest : x.tmod d < d := Int.tmod_lt_of_pos x (by exact_mod_cast positive)
  rw [add_mul, one_mul]
  omega

theorem tdiv_le_of_lt {x u : Int} {d : Nat} (positive : 0 < d) (nonneg : 0 ≤ u)
    (below : x < (u + 1) * d) : x.tdiv d ≤ u := by
  have exact_d : (0 : Int) < d := by exact_mod_cast positive
  rcases le_or_gt 0 x with up | down
  · rw [Int.tdiv_eq_ediv_of_nonneg up]
    exact Int.lt_add_one_iff.1 (Int.ediv_lt_of_lt_mul exact_d below)
  · exact (Int.tdiv_le_tdiv exact_d down.le).trans (by simpa using nonneg)


/-- A quotient truncated toward zero is less than one away from the exact one. -/
theorem abs_tdiv_sub_lt (x : Int) {d : Nat} (positive : 0 < d) :
    |((x.tdiv d : Int) : ℚ) - x / d| < 1 := by
  have exact_d : (0 : ℚ) < d := by exact_mod_cast positive
  have parts : ((x.tdiv d : Int) : ℚ) * d + (x.tmod d : Int) = x := by
    exact_mod_cast Int.tdiv_mul_add_tmod x d
  have upper : ((x.tmod d : Int) : ℚ) < d := by
    exact_mod_cast Int.tmod_lt_of_pos x (by exact_mod_cast positive)
  have lower : -(d : ℚ) < (x.tmod d : Int) := by
    exact_mod_cast Int.lt_tmod_of_pos x (by exact_mod_cast positive)
  have error : ((x.tdiv d : Int) : ℚ) - x / d = -((x.tmod d : Int) : ℚ) / d := by
    rw [← parts]
    field_simp
    ring
  rw [error, abs_lt, lt_div_iff₀ exact_d, div_lt_iff₀ exact_d]
  constructor <;> linarith

/-- A quotient whose two sides are scaled by one ratio moves only by what the roundings
of the sides add. -/
theorem rescaled_quotient {n d n' d' k up down : ℚ} (some_d : 0 < d) (some_d' : 0 < d')
    (above : n' = n * k + up) (below : d' = d * k - down) (up_le : |up| ≤ 1)
    (down_nonneg : 0 ≤ down) (down_le : down ≤ 1) : |n' / d' - n / d| ≤ (|n| / d + 1) / d' := by
  have gap : n' / d' - n / d = (up + n / d * down) / d' := by
    rw [above]
    have whole : d * k = d' + down := by rw [below]; ring
    field_simp
    linear_combination n * whole
  rw [gap, abs_div, abs_of_pos some_d']
  apply div_le_div_of_nonneg_right _ some_d'.le
  calc |up + n / d * down| ≤ |up| + |n / d * down| := abs_add_le _ _
    _ = |up| + |n| / d * down := by rw [abs_mul, abs_div, abs_of_pos some_d, abs_of_nonneg down_nonneg]
    _ ≤ 1 + |n| / d * 1 := by
        apply add_le_add up_le
        exact mul_le_mul_of_nonneg_left down_le (by positivity)
    _ = |n| / d + 1 := by ring

end OverUnder.Library
