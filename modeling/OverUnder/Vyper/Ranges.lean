/-
Module: OverUnder.Vyper.Ranges
Purpose: The wrapping arithmetic of contract code on intervals. A result that may leave
  the word is enclosed by the whole word.
Trusted boundary: none
Main exports: mem_wrapInts, mem_mulInts, mem_divInts, mem_shlInts, mem_sarInts,
  mem_quotientInts, mem_wrapNats, mem_mulNats, mem_divNats, mem_shrNats
-/
import OverUnder.Library.Enclosure
import OverUnder.Vyper.Checked

namespace OverUnder.Vyper

open NonemptyInterval OverUnder.Library.Enclosure

namespace WordOrders

/-- The order of `ℤ`, not by way of its bounded suprema, which do not compute. -/
scoped instance orderOfInt : Preorder ℤ := Int.instLinearOrder.toPreorder

scoped instance addLeftMonoOfInt : AddLeftMono ℤ := inferInstance

scoped instance addRightMonoOfInt : AddRightMono ℤ := inferInstance

scoped instance orderedSubOfInt : OrderedSub ℤ := inferInstance

scoped instance mulRightMonoOfNat : MulRightMono ℕ := inferInstance

end WordOrders

open scoped WordOrders

/-! ### `int256` -/

/-- Every `int256`. -/
def int256s : NonemptyInterval ℤ := ⟨(-halfWord, halfWord - 1), by decide⟩

theorem wrapInt_mem_int256s (x : Int) : wrapInt x ∈ int256s := by
  have positive : 0 < wordSize := by decide
  have low := @Int.le_bmod x wordSize positive
  have high := @Int.bmod_lt x wordSize positive
  constructor
  · calc -(halfWord : Int) = -((wordSize : Int) / 2) := by decide
      _ ≤ wrapInt x := low
  · have half : ((wordSize : Int) + 1) / 2 = halfWord := by decide
    exact Int.le_sub_one_of_lt (half ▸ high)

def wrapInts (s : NonemptyInterval ℤ) : NonemptyInterval ℤ :=
  if -(halfWord : Int) ≤ s.fst ∧ s.snd < halfWord then s else int256s

theorem mem_wrapInts {s : NonemptyInterval ℤ} {x : Int} (inside : x ∈ s) :
    wrapInt x ∈ wrapInts s := by
  unfold wrapInts
  split
  · next fits =>
      have unchanged : InInt256 x := ⟨fits.1.trans inside.1, inside.2.trans_lt fits.2⟩
      rwa [wrapInt_of_inInt256 unchanged]
  · exact wrapInt_mem_int256s x

def mulInts (s t : NonemptyInterval ℤ) : NonemptyInterval ℤ := wrapInts (times s t)

theorem mem_mulInts {s t : NonemptyInterval ℤ} {x y : Int} (left : x ∈ s) (right : y ∈ t) :
    unsafeMulInt x y ∈ mulInts s t :=
  mem_wrapInts (mem_times left right)

/-- Multiplication by a constant. -/
def scaleHom (c : Nat) : ℤ →o ℤ :=
  ⟨fun x => x * c, fun _ _ below => Int.mul_le_mul_of_nonneg_right below (by omega)⟩

def shlInts (s : NonemptyInterval ℤ) (n : Nat) : NonemptyInterval ℤ :=
  wrapInts (s.map (scaleHom (2 ^ n)))

theorem mem_shlInts {s : NonemptyInterval ℤ} {x : Int} (inside : x ∈ s) (n : Nat) :
    shlInt x n ∈ shlInts s n := by
  have scaled := mem_wrapInts (mem_map (scaleHom (2 ^ n)) inside)
  have power : scaleHom (2 ^ n) x = x * 2 ^ n := by
    change x * ((2 ^ n : Nat) : Int) = _
    rw [Nat.cast_pow, Nat.cast_ofNat]
  rwa [power] at scaled

/-- The floor of the half, `n` times. -/
def sarHom (n : Nat) : ℤ →o ℤ :=
  ⟨fun x => sarInt x n, fun _ _ below => Int.ediv_le_ediv (Int.pow_pos (by decide)) below⟩

def sarInts (s : NonemptyInterval ℤ) (n : Nat) : NonemptyInterval ℤ := s.map (sarHom n)

theorem mem_sarInts {s : NonemptyInterval ℤ} {x : Int} (inside : x ∈ s) (n : Nat) :
    sarInt x n ∈ sarInts s n :=
  mem_map (sarHom n) inside

/-- Division by a positive constant, toward zero. -/
def divHom (d : Nat) : ℤ →o ℤ :=
  ⟨fun x => x.tdiv (d + 1), fun _ _ below => Int.tdiv_le_tdiv (by omega) below⟩

/-- `unsafe_div` by the positive constant `d + 1`. -/
def divInts (s : NonemptyInterval ℤ) (d : Nat) : NonemptyInterval ℤ :=
  wrapInts (s.map (divHom d))

theorem mem_divInts {s : NonemptyInterval ℤ} {x : Int} (inside : x ∈ s) (d : Nat) :
    unsafeDivInt x (d + 1) ∈ divInts s d :=
  mem_wrapInts (mem_map (divHom d) inside)

/-! ### `uint256` -/

/-- Every `uint256`. -/
def uint256s : NonemptyInterval ℕ := ⟨(0, wordSize - 1), Nat.zero_le _⟩

def wrapNats (s : NonemptyInterval ℕ) : NonemptyInterval ℕ :=
  if s.snd < wordSize then s else uint256s

theorem mem_wrapNats {s : NonemptyInterval ℕ} {x : Nat} (inside : x ∈ s) :
    wrapNat x ∈ wrapNats s := by
  unfold wrapNats
  split
  · next fits =>
      rwa [wrapNat_of_lt (inside.2.trans_lt fits)]
  · exact ⟨Nat.zero_le _, Nat.le_sub_one_of_lt (Nat.mod_lt _ (by decide))⟩

def mulNats (s t : NonemptyInterval ℕ) : NonemptyInterval ℕ := wrapNats (s * t)

theorem mem_mulNats {s t : NonemptyInterval ℕ} {x y : Nat} (left : x ∈ s) (right : y ∈ t) :
    unsafeMul x y ∈ mulNats s t :=
  mem_wrapNats (mem_mul left right)

/-- Quotients by the divisors that are not zero. -/
def divNats (s t : NonemptyInterval ℕ) : NonemptyInterval ℕ :=
  ⟨(s.fst / max t.snd 1, s.snd / max t.fst 1),
    Nat.div_le_div s.fst_le_snd (max_le_max_right 1 t.fst_le_snd)
      (Nat.ne_of_gt (Nat.lt_of_lt_of_le Nat.one_pos (Nat.le_max_right _ _)))⟩

theorem mem_divNats {s t : NonemptyInterval ℕ} {x y : Nat} (left : x ∈ s) (right : y ∈ t)
    (nonzero : y ≠ 0) : x / y ∈ divNats s t := by
  have least : max t.fst 1 ≤ y := max_le right.1 (Nat.one_le_iff_ne_zero.2 nonzero)
  have greatest : y ≤ max t.snd 1 := right.2.trans (le_max_left _ _)
  constructor
  · exact Nat.div_le_div left.1 greatest nonzero
  · exact Nat.div_le_div left.2 least
      (Nat.ne_of_gt (Nat.lt_of_lt_of_le Nat.one_pos (Nat.le_max_right _ _)))

/-- `2 ** n`. -/
def powerHom : ℕ →o ℕ := ⟨fun n => 2 ^ n, fun _ _ below => Nat.pow_le_pow_right (by decide) below⟩

def shrNats (s t : NonemptyInterval ℕ) : NonemptyInterval ℕ := divNats s (t.map powerHom)

theorem mem_shrNats {s t : NonemptyInterval ℕ} {x n : Nat} (left : x ∈ s) (right : n ∈ t) :
    shr x n ∈ shrNats s t :=
  mem_divNats left (mem_map powerHom right) (Nat.ne_of_gt (Nat.two_pow_pos n))

/-! ### Between the two -/

/-- `convert(x, uint256)`. -/
def toNatHom : ℤ →o ℕ := ⟨Int.toNat, fun _ _ below => Int.toNat_le_toNat below⟩

/-- `convert(x, int256)`. -/
def castHom : ℕ →o ℤ := ⟨Nat.cast, fun _ _ below => Int.ofNat_le.2 below⟩

/-- `unsafe_div` where the dividend is not negative and the divisor is positive. -/
def quotientInts (s t : NonemptyInterval ℤ) : NonemptyInterval ℤ :=
  if 0 ≤ s.fst ∧ 0 < t.fst then
    wrapInts ((divNats (s.map toNatHom) (t.map toNatHom)).map castHom)
  else int256s

theorem mem_quotientInts {s t : NonemptyInterval ℤ} {x y : Int} (left : x ∈ s)
    (right : y ∈ t) : unsafeDivInt x y ∈ quotientInts s t := by
  unfold quotientInts
  split
  · next positive =>
      have nonneg : 0 ≤ x := positive.1.trans left.1
      have divisor : 0 < y := positive.2.trans_le right.1
      have nonzero : toNatHom y ≠ 0 := by
        change y.toNat ≠ 0
        omega
      have divided := mem_map castHom
        (mem_divNats (mem_map toNatHom left) (mem_map toNatHom right) nonzero)
      have whole : x.tdiv y = castHom (toNatHom x / toNatHom y) := by
        change x.tdiv y = ((x.toNat / y.toNat : Nat) : Int)
        rw [Int.tdiv_eq_ediv_of_nonneg nonneg, Int.natCast_ediv, Int.toNat_of_nonneg nonneg,
          Int.toNat_of_nonneg divisor.le]
      rw [unsafeDivInt, whole]
      exact mem_wrapInts divided
  · exact wrapInt_mem_int256s _

end OverUnder.Vyper
