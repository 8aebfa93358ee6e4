/-
Module: OverUnder.Proofs.OutcomeTokens
Purpose: What each entry point of the outcome-token contract does to positions,
  collateral and payouts, as postings on the two ledgers.
Trusted boundary: none
Main exports: splitPosition_spec, mergePositions_spec, redeemPositions_spec,
  reportPayouts_spec, safeTransferFrom_spec, prepareCondition_spec,
  exec_conditions, exec_payouts, exec_keeps_payouts, exec_keeps_holder
-/
import OverUnder.Contracts.ConditionalTokens
import OverUnder.Proofs.Collateral

namespace OverUnder.Contracts.ConditionalTokens

open OverUnder.Vyper
open OverUnder.Library

variable {site : CtfSite} {w after : Tokens} {ctf ctf' : ConditionalTokens}
variable {sender : Address} {c : Bytes32} {amount : Nat}

theorem pid_ne (site : CtfSite) {c c' : Bytes32} {o o' : Nat} (apart : c ≠ c' ∨ o ≠ o') :
    pid site c o ≠ pid site c' o' := by
  intro same
  obtain ⟨sameCondition, sameOutcome⟩ := site.hashes.positionId_injective same
  rcases apart with apart | apart
  · exact apart sameCondition
  · exact apart sameOutcome

theorem pid_eq_iff (site : CtfSite) {c c' : Bytes32} {o o' : Nat} :
    pid site c o = pid site c' o' ↔ c = c' ∧ o = o' :=
  ⟨site.hashes.positionId_injective, fun same => by rw [same.1, same.2]⟩

theorem prepareCondition_spec {oracle : Address} {questionId cid : Bytes32}
    (done : prepareCondition site w oracle questionId = .ok (cid, after)) :
    cid = site.hashes.conditionId oracle questionId ∧ oracle ≠ zeroAddress ∧
      w.ctf.outcomeSlots cid = 0 ∧
      after = { w with ctf := { w.ctf with
        outcomeSlots := Function.update w.ctf.outcomeSlots cid 2
        oracles := Function.update w.ctf.oracles cid oracle } } := by
  simp only [prepareCondition, bind_ok, require_ok, pure_ok, exists_const,
    Prod.mk.injEq] at done
  obtain ⟨named, fresh, rfl, rfl⟩ := done
  exact ⟨rfl, named, fresh, rfl⟩

theorem splitPosition_spec (done : splitPosition site w sender c amount = .ok after) :
    w.ctf.outcomeSlots c = 2 ∧ w.ctf.payoutDenominator c = 0 ∧
      w.usdc.transferFrom site.self sender site.self amount = .ok after.usdc ∧
      (∃ middle, Gains w.ctf.balanceOf middle (sender, pid site c 0) amount ∧
        Gains middle after.ctf.balanceOf (sender, pid site c 1) amount) ∧
      after.ctf = { w.ctf with balanceOf := after.ctf.balanceOf } := by
  simp only [splitPosition, bind_ok, require_ok, credit_ok, pure_ok, exists_const] at done
  obtain ⟨prepared, unresolved, usdc, paid, yes, ⟨-, rfl⟩, no, ⟨-, rfl⟩, rfl⟩ := done
  exact ⟨prepared, unresolved, paid, ⟨_, gains_update _ _ _, gains_update _ _ _⟩, rfl⟩

theorem mergePositions_spec (done : mergePositions site w sender c amount = .ok after) :
    w.ctf.payoutDenominator c = 0 ∧
      w.usdc.transfer site.self sender amount = .ok after.usdc ∧
      (∃ middle, Loses w.ctf.balanceOf middle (sender, pid site c 0) amount ∧
        Loses middle after.ctf.balanceOf (sender, pid site c 1) amount) ∧
      after.ctf = { w.ctf with balanceOf := after.ctf.balanceOf } := by
  simp only [mergePositions, bind_ok, require_ok, debit_ok, pure_ok, exists_const] at done
  obtain ⟨unresolved, yes, ⟨heldYes, rfl⟩, no, ⟨heldNo, rfl⟩, usdc, paid, rfl⟩ := done
  exact ⟨unresolved, paid, ⟨_, loses_update heldYes, loses_update heldNo⟩, rfl⟩

/-- The payout of a redemption is the floor of its weighted amount. -/
theorem redeemPositions_spec {outcome : Nat}
    (done : redeemPositions site w sender c outcome amount = .ok after) :
    0 < w.ctf.payoutDenominator c ∧ outcome < 2 ∧
      Loses w.ctf.balanceOf after.ctf.balanceOf (sender, pid site c outcome) amount ∧
      payOut site w.usdc sender (amount * slot (w.ctf.payoutNumerators c) outcome /
        w.ctf.payoutDenominator c) = .ok after.usdc ∧
      after.ctf = { w.ctf with balanceOf := after.ctf.balanceOf } := by
  simp only [redeemPositions, bind_ok, require_ok, debit_ok, umul_ok, udiv_ok, pure_ok,
    exists_const] at done
  obtain ⟨resolved, binary, burned, ⟨held, rfl⟩, weighted, ⟨-, rfl⟩, payout, ⟨-, rfl⟩, usdc,
    paid, rfl⟩ := done
  exact ⟨resolved, binary, loses_update held, paid, rfl⟩

theorem reportPayouts_spec {payouts : Nat × Nat}
    (done : reportPayouts ctf sender c payouts = .ok ctf') :
    sender = ctf.oracles c ∧ ctf.payoutDenominator c = 0 ∧ 0 < payouts.1 + payouts.2 ∧
      ctf' = { ctf with
        payoutNumerators := Function.update ctf.payoutNumerators c payouts
        payoutDenominator :=
          Function.update ctf.payoutDenominator c (payouts.1 + payouts.2) } := by
  simp only [reportPayouts, bind_ok, require_ok, uadd_ok, pure_ok, exists_const] at done
  obtain ⟨authorised, unresolved, denom, ⟨-, rfl⟩, positive, rfl⟩ := done
  exact ⟨authorised, unresolved, positive, rfl⟩

theorem safeTransferFrom_spec {owner receiver : Address} {id : Nat}
    (done : safeTransferFrom ctf sender owner receiver id amount = .ok ctf') :
    (sender = owner ∨ ctf.isApprovedForAll (owner, sender) = true) ∧
      Moves ctf.balanceOf ctf'.balanceOf (owner, id) (receiver, id) amount ∧
      ctf' = { ctf with balanceOf := ctf'.balanceOf } := by
  simp only [safeTransferFrom, bind_ok, require_ok, debit_ok, credit_ok, pure_ok,
    exists_const] at done
  obtain ⟨-, approved, taken, ⟨covered, rfl⟩, given, ⟨-, rfl⟩, rfl⟩ := done
  exact ⟨approved, (loses_update covered).moves (gains_update _ _ _), rfl⟩

/-- Paying out nothing is skipped and paying out something is a transfer, so
either way the payout leaves the contract. -/
theorem payOut_spec {usdc usdc' : MockUSDC} {payout : Nat}
    (done : payOut site usdc sender payout = .ok usdc') :
    Moves usdc.balanceOf usdc'.balanceOf site.self sender payout ∧
      usdc'.totalSupply = usdc.totalSupply ∧ usdc'.allowance = usdc.allowance := by
  unfold payOut at done
  split at done
  · exact MockUSDC.transfer_spec done
  · rw [pure_ok] at done
    subst done
    have zero : payout = 0 := by omega
    subst zero
    exact ⟨⟨Nat.zero_le _, fun x => by simp⟩, rfl, rfl⟩

/-- Oracles and payouts stay. -/
structure SameConditions (ctf ctf' : ConditionalTokens) : Prop where
  outcomeSlots : ctf'.outcomeSlots = ctf.outcomeSlots
  oracles : ctf'.oracles = ctf.oracles
  payoutDenominator : ctf'.payoutDenominator = ctf.payoutDenominator
  payoutNumerators : ctf'.payoutNumerators = ctf.payoutNumerators

theorem SameConditions.of_balances {balanceOf : Address × Nat → Nat}
    (same : ctf' = { ctf with balanceOf }) : SameConditions ctf ctf' := by
  subst same
  exact ⟨rfl, rfl, rfl, rfl⟩

/-- A call leaves the conditions alone, prepares a new one or reports one. -/
theorem exec_conditions {tx : Tx} (done : exec site w sender tx = .ok after) :
    SameConditions w.ctf after.ctf ∨
      (∃ oracle questionId cid, tx = .prepareCondition oracle questionId ∧
        prepareCondition site w oracle questionId = .ok (cid, after)) ∨
      ∃ c payouts, reportPayouts w.ctf sender c payouts = .ok after.ctf := by
  cases tx with
  | prepareCondition oracle questionId =>
      simp only [exec, bind_ok, pure_ok] at done
      rcases done with ⟨⟨cid, prepared⟩, done, rfl⟩
      exact .inr (.inl ⟨oracle, questionId, cid, rfl, done⟩)
  | splitPosition c amount =>
      rcases splitPosition_spec done with ⟨-, -, -, -, same⟩
      exact .inl (.of_balances same)
  | mergePositions c amount =>
      rcases mergePositions_spec done with ⟨-, -, -, same⟩
      exact .inl (.of_balances same)
  | redeemPositions c outcome amount =>
      rcases redeemPositions_spec done with ⟨-, -, -, -, same⟩
      exact .inl (.of_balances same)
  | reportPayouts c payouts =>
      simp only [exec, bind_ok, pure_ok] at done
      rcases done with ⟨ctf, done, rfl⟩
      exact .inr (.inr ⟨c, payouts, done⟩)
  | setApprovalForAll operator approved =>
      simp only [exec, pure_ok] at done
      subst done
      exact .inl ⟨rfl, rfl, rfl, rfl⟩
  | safeTransferFrom owner receiver id amount =>
      simp only [exec, bind_ok, pure_ok] at done
      rcases done with ⟨ctf, done, rfl⟩
      rcases safeTransferFrom_spec done with ⟨-, -, same⟩
      exact .inl (.of_balances same)

/-- Payouts change by a report only. -/
theorem exec_payouts {tx : Tx} (done : exec site w sender tx = .ok after) :
    (after.ctf.payoutDenominator = w.ctf.payoutDenominator ∧
      after.ctf.payoutNumerators = w.ctf.payoutNumerators) ∨
    ∃ c payouts, reportPayouts w.ctf sender c payouts = .ok after.ctf := by
  rcases exec_conditions done with same | ⟨oracle, questionId, cid, -, done⟩ | reported
  · exact .inl ⟨same.payoutDenominator, same.payoutNumerators⟩
  · rcases prepareCondition_spec done with ⟨-, -, -, rfl⟩
    exact .inl ⟨rfl, rfl⟩
  · exact .inr reported

/-- A report of one condition leaves the others alone, and needs one not yet made. -/
theorem reportPayouts_other {payouts : Nat × Nat} {c' : Bytes32}
    (done : reportPayouts ctf sender c' payouts = .ok ctf')
    (other : c ≠ c' ∨ ctf.payoutDenominator c ≠ 0) :
    ctf'.payoutDenominator c = ctf.payoutDenominator c ∧
      ctf'.payoutNumerators c = ctf.payoutNumerators c := by
  rcases reportPayouts_spec done with ⟨-, unresolved, -, rfl⟩
  have apart : c ≠ c' := by
    rintro rfl
    rcases other with other | other
    · exact other rfl
    · exact other unresolved
  exact ⟨Function.update_of_ne apart _ _, Function.update_of_ne apart _ _⟩

/-- A reported payout is never touched again. -/
theorem exec_keeps_payouts {tx : Tx} (resolved : w.ctf.payoutDenominator c ≠ 0)
    (done : exec site w sender tx = .ok after) :
    after.ctf.payoutDenominator c = w.ctf.payoutDenominator c ∧
      after.ctf.payoutNumerators c = w.ctf.payoutNumerators c := by
  rcases exec_payouts done with ⟨denominators, numerators⟩ | ⟨c', payouts, reported⟩
  · rw [denominators, numerators]
    exact ⟨rfl, rfl⟩
  · exact reportPayouts_other reported (.inr resolved)

/-! ### Accounts that approved nobody -/

/-- A call by somebody else takes neither positions nor collateral from an account
that approved no operator, and changes none of its approvals. -/
theorem exec_keeps_holder {tx : Tx} {a : Address} (outsider : sender ≠ a)
    (apart : site.self ≠ a) (unapproved : w.ctf.isApprovedForAll (a, sender) = false)
    (done : exec site w sender tx = .ok after) :
    (∀ id, w.ctf.balanceOf (a, id) ≤ after.ctf.balanceOf (a, id)) ∧
      (∀ op, after.ctf.isApprovedForAll (a, op) = w.ctf.isApprovedForAll (a, op)) ∧
      w.usdc.balanceOf a ≤ after.usdc.balanceOf a ∧
      ∀ s, after.usdc.allowance (a, s) = w.usdc.allowance (a, s) := by
  have mine : ∀ id id' : Nat, (a, id) ≠ (sender, id') :=
    fun _ _ same => outsider (congrArg Prod.fst same).symm
  cases tx with
  | prepareCondition oracle questionId =>
      simp only [exec, bind_ok, pure_ok] at done
      obtain ⟨⟨cid, prepared⟩, done, rfl⟩ := done
      obtain ⟨-, -, -, rfl⟩ := prepareCondition_spec done
      exact ⟨fun _ => Nat.le_refl _, fun _ => rfl, Nat.le_refl _, fun _ => rfl⟩
  | splitPosition c amount =>
      obtain ⟨-, -, paid, ⟨middle, yes, no⟩, same⟩ := splitPosition_spec done
      obtain ⟨moved, -, others, -⟩ := MockUSDC.transferFrom_spec paid
      have entry := moved.entry a
      rw [if_neg outsider.symm, if_neg apart.symm] at entry
      refine ⟨fun id => (yes.le _).trans (no.le _), fun op => by rw [same], entry.ge,
        fun s => others _ fun pair => outsider (congrArg Prod.fst pair).symm⟩
  | mergePositions c amount =>
      obtain ⟨-, paid, ⟨middle, yes, no⟩, same⟩ := mergePositions_spec done
      obtain ⟨moved, -, allowances⟩ := MockUSDC.transfer_spec paid
      have entry := moved.entry a
      rw [if_neg outsider.symm, if_neg apart.symm] at entry
      refine ⟨fun id => ?_, fun op => by rw [same], entry.ge, fun s => by rw [allowances]⟩
      rw [no.of_ne (mine _ _), yes.of_ne (mine _ _)]
  | redeemPositions c outcome amount =>
      obtain ⟨-, -, burned, paid, same⟩ := redeemPositions_spec done
      obtain ⟨moved, -, allowances⟩ := payOut_spec paid
      have entry := moved.entry a
      rw [if_neg outsider.symm, if_neg apart.symm] at entry
      refine ⟨fun id => ?_, fun op => by rw [same], entry.ge, fun s => by rw [allowances]⟩
      rw [burned.of_ne (mine _ _)]
  | reportPayouts c payouts =>
      simp only [exec, bind_ok, pure_ok] at done
      obtain ⟨ctf, done, rfl⟩ := done
      obtain ⟨-, -, -, rfl⟩ := reportPayouts_spec done
      exact ⟨fun _ => Nat.le_refl _, fun _ => rfl, Nat.le_refl _, fun _ => rfl⟩
  | setApprovalForAll operator approved =>
      simp only [exec, pure_ok] at done
      subst done
      refine ⟨fun _ => Nat.le_refl _, fun op => ?_, Nat.le_refl _, fun _ => rfl⟩
      exact Function.update_of_ne
        (fun pair : (a, op) = (sender, operator) => outsider (congrArg Prod.fst pair).symm) _ _
  | safeTransferFrom owner receiver id amount =>
      simp only [exec, bind_ok, pure_ok] at done
      obtain ⟨ctf, done, rfl⟩ := done
      obtain ⟨allowed, moved, same⟩ := safeTransferFrom_spec done
      have foreign : owner ≠ a := by
        rintro rfl
        rcases allowed with allowed | allowed
        · exact outsider allowed
        · rw [unapproved] at allowed
          cases allowed
      refine ⟨fun id' => ?_, fun op => by rw [same], Nat.le_refl _, fun _ => rfl⟩
      have entry := moved.entry (a, id')
      rw [if_neg fun pair => foreign (congrArg Prod.fst pair).symm] at entry
      exact (Nat.le_add_right _ _).trans entry.ge

end OverUnder.Contracts.ConditionalTokens
