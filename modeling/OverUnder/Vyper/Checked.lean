/-
Module: OverUnder.Vyper.Checked
Purpose: The arithmetic of Vyper 0.4 contract code. Checked operations revert
  out of range, `unsafe_*` operations wrap, storage maps are total functions.
Trusted boundary: human-reviewed spec
Main exports: Address, Bytes32, Revert, Call, require, uadd, usub, umul, udiv,
  iadd, isub, imul, idiv, toInt256, toUint256, wrapInt, wrapNat, unsafeMulInt,
  unsafeDivInt, shlInt, sarInt, unsafeMul, unsafeDiv, shl, shr, debit, credit
-/
import Mathlib

namespace OverUnder.Vyper

/-- A 20-byte account address. -/
abbrev Address := BitVec 160

instance lawfulAddress : LawfulBEq Address := inferInstance

/-- A 32-byte word such as a condition id or a digest. -/
abbrev Bytes32 := BitVec 256

/-- `empty(address)`. -/
def zeroAddress : Address := 0

/-- Why a call reverted. Only `assert` with a text carries data. -/
inductive Revert where
  | assertion
  | reason (text : String)
  | overflow
  | underflow
  | divisionByZero
  | conversion
deriving DecidableEq, Repr

/-- The outcome of contract code: a value, or a revert that undoes the call. -/
abbrev Call := Except Revert

/-- `assert condition` and `assert condition, "text"`. -/
def require (condition : Prop) [Decidable condition]
    (why : Revert := .assertion) : Call Unit :=
  if condition then .ok () else .error why

/-- One past `max_value(uint256)`. -/
def wordSize : Nat := 2 ^ 256

/-- One past `max_value(int256)`. -/
def halfWord : Nat := 2 ^ 255

/-! ### Checked `uint256` arithmetic -/

def uadd (a b : Nat) : Call Nat :=
  if a + b < wordSize then .ok (a + b) else .error .overflow

def usub (a b : Nat) : Call Nat :=
  if b ≤ a then .ok (a - b) else .error .underflow

def umul (a b : Nat) : Call Nat :=
  if a * b < wordSize then .ok (a * b) else .error .overflow

def udiv (a b : Nat) : Call Nat :=
  if b = 0 then .error .divisionByZero else .ok (a / b)

/-! ### Checked `int256` arithmetic

Vyper's `//` on signed operands rounds toward zero. -/

/-- `x` fits in an `int256`. -/
def InInt256 (x : Int) : Prop := -(halfWord : Int) ≤ x ∧ x < halfWord

instance (x : Int) : Decidable (InInt256 x) :=
  inferInstanceAs (Decidable (_ ∧ _))

/-- A signed result, reverting out of range. -/
def int256 (x : Int) : Call Int :=
  if InInt256 x then .ok x else .error .overflow

def iadd (a b : Int) : Call Int := int256 (a + b)

def isub (a b : Int) : Call Int := int256 (a - b)

def imul (a b : Int) : Call Int := int256 (a * b)

def idiv (a b : Int) : Call Int :=
  if b = 0 then .error .divisionByZero else int256 (a.tdiv b)

/-- `convert(x, int256)`. -/
def toInt256 (x : Nat) : Call Int :=
  if x < halfWord then .ok x else .error .conversion

/-- `convert(x, uint256)`. -/
def toUint256 (x : Int) : Call Nat :=
  if 0 ≤ x then .ok x.toNat else .error .conversion

/-! ### Wrapping arithmetic for `unsafe_*` operations and shifts -/

/-- The `int256` with the low 256 bits of `x`. -/
def wrapInt (x : Int) : Int := x.bmod wordSize

/-- The `uint256` with the low 256 bits of `x`. -/
def wrapNat (x : Nat) : Nat := x % wordSize

/-- `unsafe_mul` on `int256`. -/
def unsafeMulInt (a b : Int) : Int := wrapInt (a * b)

/-- `unsafe_add` on `int256`. -/
def unsafeAddInt (a b : Int) : Int := wrapInt (a + b)

/-- `unsafe_div` on `int256`, zero for a zero divisor. -/
def unsafeDivInt (a b : Int) : Int := wrapInt (a.tdiv b)

/-- `x << n` on `int256`. -/
def shlInt (x : Int) (n : Nat) : Int := wrapInt (x * 2 ^ n)

/-- `x >> n` on `int256`, rounding down. -/
def sarInt (x : Int) (n : Nat) : Int := x / 2 ^ n

/-- `unsafe_mul` on `uint256`. -/
def unsafeMul (a b : Nat) : Nat := wrapNat (a * b)

/-- `unsafe_div` on `uint256`, zero for a zero divisor. -/
def unsafeDiv (a b : Nat) : Nat := a / b

/-- `x << n` on `uint256`. -/
def shl (x n : Nat) : Nat := wrapNat (x * 2 ^ n)

/-- `x >> n` on `uint256`. -/
def shr (x n : Nat) : Nat := x / 2 ^ n

/-! ### Storage maps

`m[k] -= v` and `m[k] += v` on a `HashMap` with `uint256` values. A nested
`HashMap` is a map on pairs of keys. -/

section Maps

variable {K : Type} [DecidableEq K]

def debit (m : K → Nat) (k : K) (v : Nat) : Call (K → Nat) := do
  let left ← usub (m k) v
  return Function.update m k left

def credit (m : K → Nat) (k : K) (v : Nat) : Call (K → Nat) := do
  let total ← uadd (m k) v
  return Function.update m k total

end Maps

/-! ### When a call succeeds

One `iff` for each primitive. Unfolding a contract function and rewriting with
these turns a successful call into its guards and its explicit result. -/

section Inversion

variable {α β : Type} {K : Type} [DecidableEq K]

@[simp] theorem bind_ok {x : Call α} {f : α → Call β} {b : β} :
    (x >>= f) = .ok b ↔ ∃ a, x = .ok a ∧ f a = .ok b := by
  cases x <;> simp [bind, Except.bind]

@[simp] theorem pure_ok {a b : α} :
    (pure a : Call α) = .ok b ↔ b = a := by
  simp [pure, Except.pure, eq_comm]

@[simp] theorem error_ok {why : Revert} {a : α} :
    (Except.error why : Call α) = .ok a ↔ False := by
  simp

theorem ok_of_isOk {x : Call α} (fine : x.isOk = true) : ∃ a, x = .ok a := by
  cases x with
  | error why => cases fine
  | ok a => exact ⟨a, rfl⟩

@[simp] theorem require_ok {c : Prop} [Decidable c] {why : Revert} {u : Unit} :
    require c why = .ok u ↔ c := by
  unfold require
  split <;> simp_all

@[simp] theorem uadd_ok {a b c : Nat} :
    uadd a b = .ok c ↔ a + b < wordSize ∧ c = a + b := by
  unfold uadd
  split <;> simp_all [eq_comm]

@[simp] theorem usub_ok {a b c : Nat} :
    usub a b = .ok c ↔ b ≤ a ∧ c = a - b := by
  unfold usub
  split <;> simp_all [eq_comm]

@[simp] theorem umul_ok {a b c : Nat} :
    umul a b = .ok c ↔ a * b < wordSize ∧ c = a * b := by
  unfold umul
  split <;> simp_all [eq_comm]

@[simp] theorem udiv_ok {a b c : Nat} :
    udiv a b = .ok c ↔ b ≠ 0 ∧ c = a / b := by
  unfold udiv
  split <;> simp_all [eq_comm]

@[simp] theorem int256_ok {a c : Int} :
    int256 a = .ok c ↔ InInt256 a ∧ c = a := by
  unfold int256
  split <;> simp_all [eq_comm]

@[simp] theorem iadd_ok {a b c : Int} :
    iadd a b = .ok c ↔ InInt256 (a + b) ∧ c = a + b := int256_ok

@[simp] theorem isub_ok {a b c : Int} :
    isub a b = .ok c ↔ InInt256 (a - b) ∧ c = a - b := int256_ok

@[simp] theorem imul_ok {a b c : Int} :
    imul a b = .ok c ↔ InInt256 (a * b) ∧ c = a * b := int256_ok

@[simp] theorem idiv_ok {a b c : Int} :
    idiv a b = .ok c ↔ b ≠ 0 ∧ InInt256 (a.tdiv b) ∧ c = a.tdiv b := by
  unfold idiv
  split <;> simp_all

@[simp] theorem toInt256_ok {a : Nat} {c : Int} :
    toInt256 a = .ok c ↔ a < halfWord ∧ c = a := by
  unfold toInt256
  split <;> simp_all [eq_comm]

@[simp] theorem toUint256_ok {a : Int} {c : Nat} :
    toUint256 a = .ok c ↔ 0 ≤ a ∧ c = a.toNat := by
  unfold toUint256
  split <;> simp_all [eq_comm]

@[simp] theorem debit_ok {m m' : K → Nat} {k : K} {v : Nat} :
    debit m k v = .ok m' ↔ v ≤ m k ∧ m' = Function.update m k (m k - v) := by
  simp only [debit, bind_ok, usub_ok, pure_ok, and_assoc, exists_and_left,
    exists_eq_left]

@[simp] theorem credit_ok {m m' : K → Nat} {k : K} {v : Nat} :
    credit m k v = .ok m' ↔
      m k + v < wordSize ∧ m' = Function.update m k (m k + v) := by
  simp only [credit, bind_ok, uadd_ok, pure_ok, and_assoc, exists_and_left,
    exists_eq_left]

end Inversion

/-- Inside the `int256` range wrapping changes nothing. -/
theorem wrapInt_of_inInt256 {x : Int} (h : InInt256 x) : wrapInt x = x := by
  unfold InInt256 halfWord at h
  exact Int.bmod_eq_of_le (by unfold wordSize; omega) (by unfold wordSize; omega)

theorem wrapNat_of_lt {x : Nat} (h : x < wordSize) : wrapNat x = x :=
  Nat.mod_eq_of_lt h

end OverUnder.Vyper
