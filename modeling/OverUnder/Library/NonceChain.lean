/-
Module: OverUnder.Library.NonceChain
Purpose: The chain as one signing key sees it. A transaction carries a nonce and
  is mined when its nonce is the next one, so of all transactions with one
  nonce at most one is ever mined. Nodes may hold transactions not yet mined.
Trusted boundary: none
Main exports: NonceChain, accept, mine, mineOther, Ordered, Viable, Dead,
  Viable.of_mine, Viable.of_accept, Dead.mine, Dead.not_viable
-/
import Mathlib

namespace OverUnder.Library

/-- Mined transactions with their success, and transactions some node holds. -/
structure NonceChain (T : Type) where
  /-- How many transactions of the key are mined: the next nonce. -/
  mined : Nat
  outcome : T → Option Bool
  accepted : T → Bool

namespace NonceChain

variable {T : Type} (nonceOf : T → Nat)

/-- A node takes `t` into its pool. -/
def accept [DecidableEq T] (chain : NonceChain T) (t : T) : NonceChain T :=
  { chain with accepted := Function.update chain.accepted t true }

/-- A block includes `t`. -/
def mine [DecidableEq T] (chain : NonceChain T) (t : T) (success : Bool) : NonceChain T :=
  { chain with
    mined := chain.mined + 1
    outcome := Function.update chain.outcome t (some success) }

/-- A block includes some other transaction of the key. -/
def mineOther (chain : NonceChain T) : NonceChain T :=
  { chain with mined := chain.mined + 1 }

/-- `t` can be in the next block. -/
def Minable (chain : NonceChain T) (t : T) : Prop :=
  chain.accepted t = true ∧ chain.outcome t = none ∧ nonceOf t = chain.mined

instance decidableMinable (chain : NonceChain T) (t : T) : Decidable (chain.Minable nonceOf t) :=
  inferInstanceAs (Decidable (_ ∧ _))

/-- Mined transactions have used nonces, one each. -/
structure Ordered (chain : NonceChain T) : Prop where
  used : ∀ t, chain.outcome t ≠ none → nonceOf t < chain.mined
  exclusive : ∀ t u, chain.outcome t ≠ none → chain.outcome u ≠ none →
    nonceOf t = nonceOf u → t = u

/-- `t` succeeded, or can still be mined from a node's pool. -/
def Viable (chain : NonceChain T) (t : T) : Prop :=
  chain.outcome t = some true ∨
    chain.outcome t = none ∧ chain.accepted t = true ∧ chain.mined ≤ nonceOf t

/-- `t` did not succeed, and its nonce is used. -/
def Dead (chain : NonceChain T) (t : T) : Prop :=
  chain.outcome t ≠ some true ∧ nonceOf t < chain.mined

instance decidableViable (chain : NonceChain T) (t : T) : Decidable (chain.Viable nonceOf t) :=
  inferInstanceAs (Decidable (_ ∨ _))

instance decidableDead (chain : NonceChain T) (t : T) : Decidable (chain.Dead nonceOf t) :=
  inferInstanceAs (Decidable (_ ∧ _))

variable {nonceOf} {chain : NonceChain T} {t u : T} {success : Bool}

theorem Dead.not_viable (dead : chain.Dead nonceOf t) : ¬chain.Viable nonceOf t := by
  intro viable
  rcases viable with succeeded | ⟨-, -, unused⟩
  · exact dead.1 succeeded
  · exact Nat.not_le_of_lt dead.2 unused

theorem Viable.of_succeeded (succeeded : chain.outcome t = some true) :
    chain.Viable nonceOf t := .inl succeeded

/-! ### Blocks -/

theorem Ordered.mineOther (ordered : chain.Ordered nonceOf) : chain.mineOther.Ordered nonceOf :=
  ⟨fun u included => Nat.lt_succ_of_lt (ordered.used u included), ordered.exclusive⟩

theorem Viable.of_mineOther (viable : chain.mineOther.Viable nonceOf u) :
    chain.Viable nonceOf u := by
  rcases viable with succeeded | ⟨outcome, accepted, unused⟩
  · exact .inl succeeded
  · exact .inr ⟨outcome, accepted, (Nat.le_succ _).trans unused⟩

theorem Dead.mineOther (dead : chain.Dead nonceOf u) : chain.mineOther.Dead nonceOf u :=
  ⟨dead.1, Nat.lt_succ_of_lt dead.2⟩

section

variable [DecidableEq T]

theorem Ordered.mine (ordered : chain.Ordered nonceOf) (minable : chain.Minable nonceOf t) :
    (chain.mine t success).Ordered nonceOf := by
  have earlier : ∀ u, u ≠ t → (chain.mine t success).outcome u ≠ none →
      nonceOf u < nonceOf t := by
    intro u other included
    simp only [NonceChain.mine, Function.update_of_ne other] at included
    rw [minable.2.2]
    exact ordered.used u included
  constructor
  · intro u included
    by_cases same : u = t
    · subst same
      exact Nat.lt_succ_of_le minable.2.2.le
    · exact Nat.lt_succ_of_lt (minable.2.2 ▸ earlier u same included)
  · intro u v first second nonces
    by_cases left : u = t
    · by_cases right : v = t
      · rw [left, right]
      · exact absurd (earlier v right second) (by rw [← nonces, left]; exact Nat.lt_irrefl _)
    · by_cases right : v = t
      · exact absurd (earlier u left first) (by rw [nonces, right]; exact Nat.lt_irrefl _)
      · simp only [NonceChain.mine, Function.update_of_ne left] at first
        simp only [NonceChain.mine, Function.update_of_ne right] at second
        exact ordered.exclusive u v first second nonces

/-- What is viable after a block was viable before it. -/
theorem Viable.of_mine (minable : chain.Minable nonceOf t)
    (viable : (chain.mine t success).Viable nonceOf u) : chain.Viable nonceOf u := by
  rcases minable with ⟨held, unmined, next⟩
  by_cases same : u = t
  · subst same
    exact .inr ⟨unmined, held, next.ge⟩
  · rcases viable with succeeded | ⟨outcome, accepted, unused⟩
    · simp only [NonceChain.mine, Function.update_of_ne same] at succeeded
      exact .inl succeeded
    · simp only [NonceChain.mine, Function.update_of_ne same] at outcome
      exact .inr ⟨outcome, accepted, (Nat.le_succ _).trans unused⟩

/-- A used nonce is used for good: no block revives a dead transaction. -/
theorem Dead.mine (minable : chain.Minable nonceOf t) (dead : chain.Dead nonceOf u) :
    (chain.mine t success).Dead nonceOf u := by
  have other : u ≠ t := by
    rintro rfl
    exact absurd dead.2 (minable.2.2 ▸ Nat.lt_irrefl _)
  refine ⟨?_, Nat.lt_succ_of_lt dead.2⟩
  simp only [NonceChain.mine, Function.update_of_ne other]
  exact dead.1

/-- A success is never undone. -/
theorem succeeded_mine (minable : chain.Minable nonceOf t)
    (succeeded : chain.outcome u = some true) :
    (chain.mine t success).outcome u = some true := by
  have other : u ≠ t := by
    rintro rfl
    rw [minable.2.1] at succeeded
    cases succeeded
  simp only [NonceChain.mine, Function.update_of_ne other]
  exact succeeded

/-! ### Broadcasts -/

/-- Acceptance makes at most the accepted transaction viable, and no dead one. -/
theorem Viable.of_accept (viable : (chain.accept t).Viable nonceOf u) :
    chain.Viable nonceOf u ∨ (u = t ∧ ¬chain.Dead nonceOf u) := by
  by_cases same : u = t
  · refine or_iff_not_imp_right.mpr fun alive => ?_
    have dead : chain.Dead nonceOf u := by
      by_contra live
      exact alive ⟨same, live⟩
    rcases viable with succeeded | ⟨-, -, unused⟩
    · exact .inl succeeded
    · exact absurd dead.2 (Nat.not_lt_of_le unused)
  · left
    rcases viable with succeeded | ⟨outcome, accepted, unused⟩
    · exact .inl succeeded
    · simp only [accept, Function.update_of_ne same] at accepted
      exact .inr ⟨outcome, accepted, unused⟩

theorem Ordered.accept (ordered : chain.Ordered nonceOf) : (chain.accept t).Ordered nonceOf :=
  ⟨ordered.used, ordered.exclusive⟩

theorem Dead.accept (dead : chain.Dead nonceOf u) : (chain.accept t).Dead nonceOf u := dead

end

end NonceChain

end OverUnder.Library
