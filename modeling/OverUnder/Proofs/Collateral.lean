/-
Module: OverUnder.Proofs.Collateral
Purpose: What each entry point of the collateral token does to its balances and
  allowances, and the supply invariant that makes a covered transfer succeed.
Trusted boundary: none
Main exports: MockUSDC.transfer_spec, MockUSDC.transferFrom_spec,
  MockUSDC.Backed, MockUSDC.exec_backed, MockUSDC.transfer_succeeds,
  MockUSDC.exec_keeps_balance
-/
import OverUnder.Contracts.MockUSDC

namespace OverUnder.Contracts

open OverUnder.Vyper
open OverUnder.Library

namespace MockUSDC

variable {token after : MockUSDC} {sender owner recipient spender : Address} {amount : Nat}

theorem spend_ok {allowance : Address × Address → Nat}
    (done : token.spend owner spender amount = .ok allowance) :
    ∀ pair, pair ≠ (owner, spender) → allowance pair = token.allowance pair := by
  intro pair other
  unfold spend at done
  split at done
  · obtain ⟨-, rfl⟩ := debit_ok.mp done
    exact Function.update_of_ne other _ _
  · rw [pure_ok] at done
    rw [done]

/-- Drawing on an unlimited allowance leaves every allowance as it was. -/
theorem spend_unlimited (unlimited : token.allowance (owner, spender) = maxAllowance) :
    token.spend owner spender amount = .ok token.allowance := by
  simp [spend, unlimited, pure, Except.pure]

theorem mint_spec (done : token.mint recipient amount = .ok after) :
    Gains token.balanceOf after.balanceOf recipient amount ∧
      after.totalSupply = token.totalSupply + amount ∧ after.totalSupply < wordSize ∧
      after.allowance = token.allowance := by
  simp only [mint, bind_ok, uadd_ok, credit_ok, pure_ok] at done
  obtain ⟨total, ⟨fits, rfl⟩, balances, ⟨-, rfl⟩, rfl⟩ := done
  exact ⟨gains_update _ _ _, rfl, fits, rfl⟩

theorem transfer_spec (done : token.transfer sender recipient amount = .ok after) :
    Moves token.balanceOf after.balanceOf sender recipient amount ∧
      after.totalSupply = token.totalSupply ∧ after.allowance = token.allowance := by
  simp only [transfer, bind_ok, debit_ok, credit_ok, pure_ok] at done
  obtain ⟨taken, ⟨covered, rfl⟩, given, ⟨-, rfl⟩, rfl⟩ := done
  exact ⟨(loses_update covered).moves (gains_update _ _ _), rfl, rfl⟩

theorem transferFrom_spec
    (done : token.transferFrom spender owner recipient amount = .ok after) :
    Moves token.balanceOf after.balanceOf owner recipient amount ∧
      after.totalSupply = token.totalSupply ∧
      (∀ pair, pair ≠ (owner, spender) → after.allowance pair = token.allowance pair) ∧
      token.spend owner spender amount = .ok after.allowance := by
  simp only [transferFrom, bind_ok, debit_ok, credit_ok, pure_ok] at done
  obtain ⟨allowance, drawn, taken, ⟨covered, rfl⟩, given, ⟨-, rfl⟩, rfl⟩ := done
  exact ⟨(loses_update covered).moves (gains_update _ _ _), rfl, spend_ok drawn, drawn⟩

/-! ### The supply invariant -/

/-- Every balance is part of a total supply that fits in a word. -/
structure Backed (token : MockUSDC) : Prop where
  supply_eq : total token.balanceOf = token.totalSupply
  fits : token.totalSupply < wordSize

theorem deployed_backed : deployed.Backed :=
  ⟨total_zero fun _ => rfl, by decide⟩

theorem Backed.balance_le (backed : token.Backed) (a : Address) :
    token.balanceOf a ≤ token.totalSupply := by
  rw [← backed.supply_eq]
  exact le_total token.balanceOf a

theorem mint_backed (backed : token.Backed)
    (done : token.mint recipient amount = .ok after) : after.Backed := by
  obtain ⟨posted, supply, fits, -⟩ := mint_spec done
  exact ⟨by rw [posted.total_eq, supply, backed.supply_eq], fits⟩

theorem Backed.of_moves (backed : token.Backed)
    (moved : Moves token.balanceOf after.balanceOf owner recipient amount)
    (supply : after.totalSupply = token.totalSupply) : after.Backed :=
  ⟨by rw [moved.total_eq, supply, backed.supply_eq], by rw [supply]; exact backed.fits⟩

/-- Every entry point of the token keeps the supply invariant. -/
theorem exec_backed {tx : Tx} (backed : token.Backed)
    (done : token.exec sender tx = .ok after) : after.Backed := by
  cases tx with
  | faucet amount => exact mint_backed backed done
  | mint recipient amount => exact mint_backed backed done
  | transfer recipient amount =>
      obtain ⟨moved, supply, -⟩ := transfer_spec done
      exact backed.of_moves moved supply
  | approve spender amount =>
      cases done
      exact ⟨backed.supply_eq, backed.fits⟩
  | transferFrom owner recipient amount =>
      obtain ⟨moved, supply, -⟩ := transferFrom_spec done
      exact backed.of_moves moved supply

/-- In a backed token the sender's balance is the only thing a transfer needs. -/
theorem transfer_succeeds (backed : token.Backed)
    (covered : amount ≤ token.balanceOf sender) :
    ∃ after, token.transfer sender recipient amount = .ok after := by
  have bound : Function.update token.balanceOf sender (token.balanceOf sender - amount)
      recipient + amount < wordSize := by
    by_cases same : recipient = sender
    · subst same
      have := backed.balance_le recipient
      have := backed.fits
      simp only [Function.update_self]
      omega
    · rw [Function.update_of_ne same]
      have left := (loses_update covered).total_eq
      have part := le_total (Function.update token.balanceOf sender
        (token.balanceOf sender - amount)) recipient
      rw [Function.update_of_ne same] at part
      have := backed.supply_eq
      have := backed.fits
      omega
  simp only [transfer, bind_ok, debit_ok, credit_ok, pure_ok]
  exact ⟨_, _, ⟨covered, rfl⟩, _, ⟨bound, rfl⟩, rfl⟩

/-! ### Accounts that gave nobody an allowance -/

/-- A call by somebody else, to whom `a` gave no allowance, never lowers `a`'s
balance and never changes `a`'s allowances. -/
theorem exec_keeps_balance {tx : Tx} {a : Address} (outsider : sender ≠ a)
    (barred : token.allowance (a, sender) = 0)
    (done : token.exec sender tx = .ok after) :
    token.balanceOf a ≤ after.balanceOf a ∧
      ∀ s, after.allowance (a, s) = token.allowance (a, s) := by
  cases tx with
  | faucet amount =>
      obtain ⟨posted, -, -, same⟩ := mint_spec done
      exact ⟨posted.le a, fun s => by rw [same]⟩
  | mint recipient amount =>
      obtain ⟨posted, -, -, same⟩ := mint_spec done
      exact ⟨posted.le a, fun s => by rw [same]⟩
  | transfer recipient amount =>
      obtain ⟨moved, -, same⟩ := transfer_spec done
      have entry := moved.entry a
      rw [if_neg outsider.symm] at entry
      exact ⟨by omega, fun s => by rw [same]⟩
  | approve spender amount =>
      cases done
      refine ⟨Nat.le_refl _, fun s => ?_⟩
      have apart : (a, s) ≠ (sender, spender) :=
        fun same => outsider (congrArg Prod.fst same).symm
      exact Function.update_of_ne apart _ _
  | transferFrom owner recipient amount =>
      obtain ⟨moved, -, others, drawn⟩ := transferFrom_spec done
      by_cases owned : owner = a
      · -- the only draw an empty allowance admits is of nothing
        subst owned
        have empty : token.allowance (owner, sender) ≠ maxAllowance := by
          rw [barred]
          decide
        rw [spend, if_pos empty, debit_ok, barred] at drawn
        obtain ⟨none, same⟩ := drawn
        have zero : amount = 0 := by omega
        subst zero
        have entry := moved.entry owner
        simp only [ite_self, Nat.add_zero] at entry
        refine ⟨entry.ge, fun s => ?_⟩
        rw [same]
        simp only [Nat.sub_zero, Function.update_apply]
        split
        · next pair => rw [pair, barred]
        · rfl
      · have entry := moved.entry a
        rw [if_neg (Ne.symm owned)] at entry
        refine ⟨by omega, fun s => others _ fun same => ?_⟩
        exact owned (congrArg Prod.fst same).symm

end MockUSDC

end OverUnder.Contracts
