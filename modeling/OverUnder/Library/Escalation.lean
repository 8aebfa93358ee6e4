/-
Module: OverUnder.Library.Escalation
Purpose: Amounts of which each is at least a given ratio of the one before: any later one is raised
  by the ratio too, and under a bound there are only so many.
Trusted boundary: none
Main exports: Raised, Raised.trans, raised_pairwise, raised_pow, raised_bounded
-/
import Mathlib

namespace OverUnder.Library

/-- `b` is at least `num / den` times `a`. -/
def Raised (num den a b : Nat) : Prop := a * num ≤ b * den

variable {num den a b c first : Nat} {rest : List Nat}

theorem Raised.trans (grows : den ≤ num) (ab : Raised num den a b) (bc : Raised num den b c) :
    Raised num den a c := by
  unfold Raised at ab bc ⊢
  calc a * num ≤ b * den := ab
    _ ≤ b * num := Nat.mul_le_mul_left b grows
    _ ≤ c * den := bc

theorem raised_pairwise {amounts : List Nat} (grows : den ≤ num)
    (chain : amounts.IsChain (Raised num den)) : amounts.Pairwise (Raised num den) := by
  have transitive : IsTrans Nat (Raised num den) := ⟨fun _ _ _ => Raised.trans grows⟩
  exact List.isChain_iff_pairwise.mp chain

/-- After `n` raises the first amount is multiplied by the ratio `n` times. -/
theorem raised_pow (chain : (first :: rest).IsChain (Raised num den)) :
    first * num ^ rest.length ≤ rest.getLastD first * den ^ rest.length := by
  induction rest generalizing first with
  | nil => simp
  | cons next rest ih =>
      rcases List.isChain_cons_cons.mp chain with ⟨raised, later⟩
      have onward := ih later
      rw [List.getLastD_cons, List.length_cons, pow_succ, pow_succ]
      calc first * (num ^ rest.length * num) = first * num * num ^ rest.length := by ring
        _ ≤ next * den * num ^ rest.length := Nat.mul_le_mul_right _ raised
        _ = next * num ^ rest.length * den := by ring
        _ ≤ rest.getLastD next * den ^ rest.length * den := Nat.mul_le_mul_right _ onward
        _ = rest.getLastD next * (den ^ rest.length * den) := by ring

/-- A bound on the amounts bounds how often they were raised. -/
theorem raised_bounded (cap : Nat) (chain : (first :: rest).IsChain (Raised num den))
    (bounded : ∀ x ∈ first :: rest, x ≤ cap) :
    first * num ^ rest.length ≤ cap * den ^ rest.length := by
  apply (raised_pow chain).trans
  apply Nat.mul_le_mul_right
  exact bounded _ (List.getLastD_mem_cons ..)

end OverUnder.Library
