/-
Module: OverUnder.Library.Ledger
Purpose: Ledgers as maps from keys to amounts. A posting adds to or takes from
  one key; the lemmas say what a posting does to the total of the ledger and to
  the total of one column of a ledger keyed by account and asset.
Trusted boundary: none
Main exports: total, Gains, Loses, Moves, Gains.total_eq, Loses.total_eq,
  Moves.total_eq, total_change, total_le_of_change, columnTotal,
  Gains.columnTotal_eq, Loses.columnTotal_eq, add_le_columnTotal
-/
import Mathlib

namespace OverUnder.Library

open Finset

variable {K A : Type}

/-- Total of a finite ledger. -/
def total {M : Type} [AddCommMonoid M] [Fintype K] (m : K → M) : M := ∑ x, m x

section Postings

variable [DecidableEq K]

/-- `after` is `before` with `v` more at `k`. -/
def Gains (before after : K → Nat) (k : K) (v : Nat) : Prop :=
  ∀ x, after x = before x + if x = k then v else 0

/-- `after` is `before` with `v` less at `k`. -/
def Loses (before after : K → Nat) (k : K) (v : Nat) : Prop :=
  ∀ x, after x + (if x = k then v else 0) = before x

variable {before after : K → Nat} {k : K} {v : Nat}

theorem gains_update (m : K → Nat) (k : K) (v : Nat) :
    Gains m (Function.update m k (m k + v)) k v := by
  intro x
  by_cases same : x = k
  · subst same; simp
  · simp [same]

theorem loses_update {m : K → Nat} (covered : v ≤ m k) :
    Loses m (Function.update m k (m k - v)) k v := by
  intro x
  by_cases same : x = k
  · subst same; simp [covered]
  · simp [same]

theorem Gains.at_key (posted : Gains before after k v) : after k = before k + v := by
  simpa using posted k

theorem Gains.le (posted : Gains before after k v) (x : K) : before x ≤ after x := by
  have := posted x
  omega

theorem Loses.at_key (posted : Loses before after k v) : after k + v = before k := by
  simpa using posted k

theorem Gains.of_ne (posted : Gains before after k v) {x : K} (other : x ≠ k) :
    after x = before x := by
  simpa [other] using posted x

theorem Loses.of_ne (posted : Loses before after k v) {x : K} (other : x ≠ k) :
    after x = before x := by
  simpa [other] using posted x

/-- `after` is `before` with `v` moved from `src` to `dst`. -/
structure Moves (before after : K → Nat) (src dst : K) (v : Nat) : Prop where
  covered : v ≤ before src
  entry : ∀ x, after x + (if x = src then v else 0) =
    before x + if x = dst then v else 0

/-- Taking from one key and then adding to another is a move. -/
theorem Loses.moves {middle : K → Nat} {src dst : K}
    (taken : Loses before middle src v) (given : Gains middle after dst v) :
    Moves before after src dst v where
  covered := by
    have := taken.at_key
    omega
  entry x := by
    have first := taken x
    have second := given x
    omega

variable [Fintype K]

theorem Gains.total_eq (posted : Gains before after k v) :
    total after = total before + v := by
  unfold total
  calc ∑ x, after x = ∑ x, (before x + if x = k then v else 0) :=
        sum_congr rfl fun x _ => posted x
    _ = (∑ x, before x) + v := by simp [sum_add_distrib]

theorem Loses.total_eq (posted : Loses before after k v) :
    total after + v = total before := by
  unfold total
  calc (∑ x, after x) + v = ∑ x, (after x + if x = k then v else 0) := by
        simp [sum_add_distrib]
    _ = ∑ x, before x := sum_congr rfl fun x _ => posted x

/-- A move leaves the total alone. -/
theorem Moves.total_eq {src dst : K} (moved : Moves before after src dst v) :
    total after = total before := by
  unfold total
  have both : ∑ x, (after x + if x = src then v else 0) =
      ∑ x, (before x + if x = dst then v else 0) :=
    sum_congr rfl fun x _ => moved.entry x
  simpa [sum_add_distrib] using both

end Postings

/-- One entry of a ledger of natural numbers is at most its total. -/
theorem le_total [Fintype K] (m : K → Nat) (k : K) : m k ≤ total m :=
  single_le_sum (f := m) (fun _ _ => Nat.zero_le _) (mem_univ k)

/-- Two entries of a ledger together are at most its total. -/
theorem add_le_total [Fintype K] [DecidableEq K] (m : K → Nat) {k l : K} (distinct : k ≠ l) :
    m k + m l ≤ total m := by
  unfold total
  rw [← add_sum_erase univ _ (mem_univ k)]
  have other : m l ≤ ∑ x ∈ univ.erase k, m x :=
    single_le_sum (f := m) (fun _ _ => Nat.zero_le _)
      (mem_erase.mpr ⟨distinct.symm, mem_univ l⟩)
  exact Nat.add_le_add_left other _

/-- One entry of a nonnegative ledger is at most its total. -/
theorem le_total_of_nonneg {M : Type} [AddCommGroup M] [PartialOrder M]
    [IsOrderedAddMonoid M] [Fintype K] {m : K → M} (nonneg : ∀ k, 0 ≤ m k) (k : K) :
    m k ≤ total m :=
  single_le_sum (f := m) (fun x _ => nonneg x) (mem_univ k)

theorem total_zero {M : Type} [AddCommMonoid M] [Fintype K] {m : K → M}
    (zero : ∀ k, m k = 0) : total m = 0 :=
  sum_eq_zero fun k _ => zero k

theorem total_add {M : Type} [AddCommMonoid M] [Fintype K] (m m' : K → M) :
    total (fun k => m k + m' k) = total m + total m' :=
  sum_add_distrib

theorem total_le_total [Fintype K] {m m' : K → Nat} (le : ∀ k, m k ≤ m' k) :
    total m ≤ total m' :=
  sum_le_sum fun k _ => le k

theorem total_congr {M : Type} [AddCommMonoid M] [Fintype K] {m m' : K → M}
    (same : ∀ k, m k = m' k) : total m = total m' :=
  sum_congr rfl fun k _ => same k

/-- A total after one entry is overwritten. -/
theorem total_update [Fintype K] [DecidableEq K] (m : K → Nat) (k : K) (v : Nat) :
    total (Function.update m k v) + m k = total m + v := by
  have cleared : Loses m (Function.update m k 0) k (m k) := by
    have posted := loses_update (m := m) (Nat.le_refl (m k))
    rwa [Nat.sub_self] at posted
  have refilled : Gains (Function.update m k 0) (Function.update m k v) k v := by
    have posted := gains_update (Function.update m k 0) k v
    rwa [Function.update_self, Nat.zero_add, Function.update_idem] at posted
  rw [refilled.total_eq, ← cleared.total_eq]
  exact Nat.add_right_comm _ _ _

/-- A total after a change at one key only. -/
theorem total_change {M : Type} [AddCommGroup M] [Fintype K] [DecidableEq K]
    {before after : K → M} (k : K) (others : ∀ x, x ≠ k → after x = before x) :
    total after = total before - before k + after k := by
  unfold total
  have rest : ∑ x ∈ univ.erase k, after x = ∑ x ∈ univ.erase k, before x :=
    sum_congr rfl fun x member => others x (ne_of_mem_erase member)
  rw [← add_sum_erase univ after (mem_univ k), ← add_sum_erase univ before (mem_univ k), rest]
  abel

/-- A natural-number total after a change by at most `v` at one key only. -/
theorem total_le_of_change [Fintype K] [DecidableEq K] {before after : K → Nat} {v : Int}
    (k : K) (others : ∀ x, x ≠ k → after x = before x)
    (changed : (after k : Int) ≤ before k + v) :
    ((total after : Nat) : Int) ≤ (total before : Nat) + v := by
  have cast : ∀ m : K → Nat, ((total m : Nat) : Int) = total fun x => (m x : Int) :=
    fun m => Nat.cast_sum _ _
  have same : ∀ x, x ≠ k → (after x : Int) = before x := fun x other => by
    rw [others x other]
  have moved := total_change k same
  rw [cast, cast, moved]
  omega

/-! ### Columns of a ledger keyed by account and asset -/

section Columns

variable [Fintype K]

/-- Total of asset `a` over all accounts. -/
def columnTotal (m : K × A → Nat) (a : A) : Nat := total fun x => m (x, a)

/-- One account holds at most the total of its column. -/
theorem le_columnTotal (m : K × A → Nat) (k : K) (a : A) :
    m (k, a) ≤ columnTotal m a := le_total (fun x => m (x, a)) k

/-- Two accounts together hold at most the total of their column. -/
theorem add_le_columnTotal [DecidableEq K] (m : K × A → Nat) {k l : K} (a : A)
    (distinct : k ≠ l) : m (k, a) + m (l, a) ≤ columnTotal m a :=
  add_le_total (fun x => m (x, a)) distinct

variable [DecidableEq K] [DecidableEq A]
variable {before after : K × A → Nat} {k : K × A} {v : Nat}

private theorem sum_posting (k : K × A) (v : Nat) (a : A) :
    (∑ x, if (x, a) = k then v else 0) = if a = k.2 then v else 0 := by
  obtain ⟨account, asset⟩ := k
  by_cases same : a = asset <;> simp [Prod.ext_iff, same]

theorem Gains.columnTotal_eq (posted : Gains before after k v) (a : A) :
    columnTotal after a = columnTotal before a + if a = k.2 then v else 0 := by
  unfold columnTotal total
  rw [← sum_posting k v a, ← sum_add_distrib]
  exact sum_congr rfl fun x _ => posted (x, a)

theorem Loses.columnTotal_eq (posted : Loses before after k v) (a : A) :
    columnTotal after a + (if a = k.2 then v else 0) = columnTotal before a := by
  unfold columnTotal total
  rw [← sum_posting k v a, ← sum_add_distrib]
  exact sum_congr rfl fun x _ => posted (x, a)

/-- A move within the column of `a` leaves its total alone, and so does a move
in any other column. -/
theorem Moves.columnTotal_eq {src dst : K} {asset : A}
    (moved : Moves before after (src, asset) (dst, asset) v) (a : A) :
    columnTotal after a = columnTotal before a := by
  unfold columnTotal total
  have both : ∑ x, (after (x, a) + if (x, a) = (src, asset) then v else 0) =
      ∑ x, (before (x, a) + if (x, a) = (dst, asset) then v else 0) :=
    sum_congr rfl fun x _ => moved.entry (x, a)
  simp only [sum_add_distrib, sum_posting] at both
  exact Nat.add_right_cancel both

end Columns

attribute [irreducible] total columnTotal

end OverUnder.Library
