/-
Module: OverUnder.Proofs.FullCollateral
Purpose: One collateral balance covers the obligations of every condition. An
  unresolved condition owes one unit for each complete set, a resolved one the
  weighted payout of its positions.
Trusted boundary: none
Main exports: supply, obligation, Tokens.Initial, Collateralised,
  Collateralised.step, reachable_collateralised, tokens_fully_collateralised
-/
import Mathlib
import OverUnder.Library.Reachable
import OverUnder.Proofs.OutcomeTokens

namespace OverUnder.Contracts

open OverUnder.Vyper
open OverUnder.Library

/-- The contract is freshly deployed over a working collateral token to which it
gave no allowance. -/
structure Tokens.Initial (site : CtfSite) (w : Tokens) : Prop where
  fresh : w.ctf = ConditionalTokens.deployed
  backed : w.usdc.Backed
  barred : ∀ s, w.usdc.allowance (site.self, s) = 0

namespace ConditionalTokens

variable (site : CtfSite)

/-- Total supply of one outcome of a condition. -/
def supply (ctf : ConditionalTokens) (c : Bytes32) (outcome : Nat) : Nat :=
  columnTotal ctf.balanceOf (pid site c outcome)

/-- What a resolved condition pays for given amounts of YES and NO. -/
def weighted (ctf : ConditionalTokens) (c : Bytes32) (yes no : Nat) : ℚ :=
  ((yes : ℚ) * (ctf.payoutNumerators c).1 + no * (ctf.payoutNumerators c).2) /
    ctf.payoutDenominator c

/-- Collateral owed to the holders of one condition. -/
def obligation (ctf : ConditionalTokens) (c : Bytes32) : ℚ :=
  if ctf.payoutDenominator c = 0 then supply site ctf c 0
  else weighted ctf c (supply site ctf c 0) (supply site ctf c 1)

/-- The invariant of the two contracts. -/
structure Collateralised (w : Tokens) : Prop where
  backed : w.usdc.Backed
  barred : ∀ s, w.usdc.allowance (site.self, s) = 0
  matched : ∀ c, w.ctf.payoutDenominator c = 0 →
    supply site w.ctf c 0 = supply site w.ctf c 1
  covered : total (obligation site w.ctf) ≤ (w.usdc.balanceOf site.self : ℚ)

variable {site} {w after : Tokens} {ctf ctf' : ConditionalTokens}
variable {sender : Address} {c : Bytes32} {amount : Nat}

/-! ### Supplies under postings -/

/-- Issuing both outcomes of one condition. -/
theorem supply_of_gains {middle : Address × Nat → Nat}
    (yes : Gains ctf.balanceOf middle (sender, pid site c 0) amount)
    (no : Gains middle ctf'.balanceOf (sender, pid site c 1) amount)
    (c' : Bytes32) {o : Nat} (binary : o < 2) :
    supply site ctf' c' o = supply site ctf c' o + if c' = c then amount else 0 := by
  unfold supply
  rw [no.columnTotal_eq, yes.columnTotal_eq]
  simp only [pid_eq_iff]
  by_cases same : c' = c
  · interval_cases o <;> simp [same]
  · simp [same]

/-- Burning both outcomes of one condition. -/
theorem supply_of_loses {middle : Address × Nat → Nat}
    (yes : Loses ctf.balanceOf middle (sender, pid site c 0) amount)
    (no : Loses middle ctf'.balanceOf (sender, pid site c 1) amount)
    (c' : Bytes32) {o : Nat} (binary : o < 2) :
    supply site ctf' c' o + (if c' = c then amount else 0) = supply site ctf c' o := by
  unfold supply
  rw [← yes.columnTotal_eq, ← no.columnTotal_eq]
  simp only [pid_eq_iff]
  by_cases same : c' = c
  · interval_cases o <;> simp [same]
  · simp [same]

/-- Burning one outcome of one condition. -/
theorem supply_of_burn {outcome : Nat}
    (burned : Loses ctf.balanceOf ctf'.balanceOf (sender, pid site c outcome) amount)
    (o : Nat) :
    supply site ctf' c o + (if o = outcome then amount else 0) = supply site ctf c o := by
  unfold supply
  rw [← burned.columnTotal_eq]
  simp only [pid_eq_iff]
  by_cases same : o = outcome <;> simp [same]

/-- Burning positions of one condition leaves the other conditions alone. -/
theorem supply_of_burn_elsewhere {outcome : Nat} {c' : Bytes32}
    (burned : Loses ctf.balanceOf ctf'.balanceOf (sender, pid site c outcome) amount)
    (other : c' ≠ c) (o : Nat) : supply site ctf' c' o = supply site ctf c' o := by
  unfold supply
  rw [← burned.columnTotal_eq, if_neg fun same => other ((pid_eq_iff site).mp same).1,
    Nat.add_zero]

/-- Moving positions between accounts changes no supply. -/
theorem supply_of_moves {owner receiver : Address} {id : Nat}
    (moved : Moves ctf.balanceOf ctf'.balanceOf (owner, id) (receiver, id) amount)
    (c' : Bytes32) (o : Nat) : supply site ctf' c' o = supply site ctf c' o :=
  moved.columnTotal_eq _

/-! ### Obligations -/

theorem obligation_nonneg (site : CtfSite) (ctf : ConditionalTokens) (c : Bytes32) :
    0 ≤ obligation site ctf c := by
  unfold obligation weighted
  split
  · exact Nat.cast_nonneg _
  · exact div_nonneg (add_nonneg (mul_nonneg (Nat.cast_nonneg _) (Nat.cast_nonneg _))
      (mul_nonneg (Nat.cast_nonneg _) (Nat.cast_nonneg _))) (Nat.cast_nonneg _)

theorem obligation_le_total (site : CtfSite) (ctf : ConditionalTokens) (c : Bytes32) :
    obligation site ctf c ≤ total (obligation site ctf) :=
  le_total_of_nonneg (obligation_nonneg site ctf) c

theorem obligation_unresolved (unresolved : ctf.payoutDenominator c = 0) :
    obligation site ctf c = supply site ctf c 0 := if_pos unresolved

theorem obligation_resolved (resolved : ctf.payoutDenominator c ≠ 0) :
    obligation site ctf c = weighted ctf c (supply site ctf c 0) (supply site ctf c 1) :=
  if_neg resolved

/-- An obligation depends on the supplies and the payouts of its condition only. -/
theorem obligation_congr
    (denominator : ctf'.payoutDenominator c = ctf.payoutDenominator c)
    (numerators : ctf'.payoutNumerators c = ctf.payoutNumerators c)
    (yes : supply site ctf' c 0 = supply site ctf c 0)
    (no : supply site ctf' c 1 = supply site ctf c 1) :
    obligation site ctf' c = obligation site ctf c := by
  simp only [obligation, weighted, denominator, numerators, yes, no]

@[simp] theorem slot_zero (payouts : Nat × Nat) : slot payouts 0 = payouts.1 := rfl

@[simp] theorem slot_one (payouts : Nat × Nat) : slot payouts 1 = payouts.2 := rfl

theorem weighted_congr (denominator : ctf'.payoutDenominator c = ctf.payoutDenominator c)
    (numerators : ctf'.payoutNumerators c = ctf.payoutNumerators c) (yes no : Nat) :
    weighted ctf' c yes no = weighted ctf c yes no := by
  rw [weighted, weighted, denominator, numerators]

theorem weighted_add_yes (ctf : ConditionalTokens) (c : Bytes32) (yes no more : Nat) :
    weighted ctf c (yes + more) no =
      weighted ctf c yes no + more * (ctf.payoutNumerators c).1 / ctf.payoutDenominator c := by
  rw [weighted, weighted, ← add_div, Nat.cast_add]
  ring

theorem weighted_add_no (ctf : ConditionalTokens) (c : Bytes32) (yes no more : Nat) :
    weighted ctf c yes (no + more) =
      weighted ctf c yes no + more * (ctf.payoutNumerators c).2 / ctf.payoutDenominator c := by
  rw [weighted, weighted, ← add_div, Nat.cast_add]
  ring

/-- The floored payout of a redemption is covered by the obligation it removes. -/
theorem redemption_le (ctf : ConditionalTokens) (c : Bytes32) (outcome amount : Nat) :
    ((amount * slot (ctf.payoutNumerators c) outcome / ctf.payoutDenominator c : Nat) : ℚ) ≤
      (amount : ℚ) * slot (ctf.payoutNumerators c) outcome / ctf.payoutDenominator c := by
  rw [← Nat.cast_mul]
  exact Nat.cast_div_le

/-! ### One step -/

theorem supply_deployed (c : Bytes32) (o : Nat) : supply site deployed c o = 0 := by
  unfold supply columnTotal
  exact total_zero fun _ => rfl

theorem initially_collateralised (initial : Tokens.Initial site w) :
    Collateralised site w where
  backed := initial.backed
  barred := initial.barred
  matched c _ := by rw [initial.fresh, supply_deployed, supply_deployed]
  covered := by
    have none : ∀ c, obligation site w.ctf c = 0 := fun c => by
      rw [initial.fresh, obligation_unresolved rfl, supply_deployed, Nat.cast_zero]
    rw [total_zero none]
    exact Nat.cast_nonneg _

/-- A call of the token by somebody else never lowers the collateral. -/
theorem Collateralised.usdc_step {usdc : MockUSDC} {tx : MockUSDC.Tx}
    (inv : Collateralised site w) (outsider : sender ≠ site.self)
    (done : w.usdc.exec sender tx = .ok usdc) : Collateralised site { w with usdc } := by
  obtain ⟨kept, allowances⟩ :=
    MockUSDC.exec_keeps_balance outsider (inv.barred sender) done
  refine ⟨MockUSDC.exec_backed inv.backed done, fun s => ?_, inv.matched, ?_⟩
  · rw [allowances s, inv.barred s]
  · exact inv.covered.trans (by exact_mod_cast kept)

theorem Collateralised.prepareCondition {oracle : Address} {questionId cid : Bytes32}
    (inv : Collateralised site w)
    (done : prepareCondition site w oracle questionId = .ok (cid, after)) :
    Collateralised site after := by
  obtain ⟨-, -, -, rfl⟩ := prepareCondition_spec done
  exact ⟨inv.backed, inv.barred, inv.matched, inv.covered⟩

theorem Collateralised.splitPosition (inv : Collateralised site w)
    (outsider : sender ≠ site.self)
    (done : splitPosition site w sender c amount = .ok after) :
    Collateralised site after := by
  obtain ⟨-, unresolved, paid, ⟨middle, yes, no⟩, same⟩ := splitPosition_spec done
  obtain ⟨moved, totals, allowances, -⟩ := MockUSDC.transferFrom_spec paid
  have issued := fun c' o => supply_of_gains (o := o) yes no c'
  have denominators : after.ctf.payoutDenominator = w.ctf.payoutDenominator := by rw [same]
  have numerators : after.ctf.payoutNumerators = w.ctf.payoutNumerators := by rw [same]
  refine ⟨inv.backed.of_moves moved totals, fun s => ?_, fun c' open' => ?_, ?_⟩
  · rw [allowances _ fun pair => outsider (congrArg Prod.fst pair).symm, inv.barred s]
  · rw [issued c' 0 (by decide), issued c' 1 (by decide),
      inv.matched c' (by rw [← denominators]; exact open')]
  · have others : ∀ c', c' ≠ c → obligation site after.ctf c' = obligation site w.ctf c' :=
      fun c' other => obligation_congr (by rw [denominators]) (by rw [numerators])
        (by simp [issued c' 0 (by decide), other]) (by simp [issued c' 1 (by decide), other])
    have mine : obligation site after.ctf c = obligation site w.ctf c + amount := by
      rw [obligation_unresolved (by rw [denominators]; exact unresolved),
        obligation_unresolved unresolved, issued c 0 (by decide)]
      simp
    have locked := moved.entry site.self
    rw [if_neg outsider.symm, if_pos rfl] at locked
    have locked' : (after.usdc.balanceOf site.self : ℚ) =
        w.usdc.balanceOf site.self + amount := by exact_mod_cast locked
    rw [total_change c others, mine, locked']
    linarith [inv.covered]

theorem Collateralised.mergePositions (inv : Collateralised site w)
    (outsider : sender ≠ site.self)
    (done : mergePositions site w sender c amount = .ok after) :
    Collateralised site after := by
  obtain ⟨unresolved, paid, ⟨middle, yes, no⟩, same⟩ := mergePositions_spec done
  obtain ⟨moved, totals, allowances⟩ := MockUSDC.transfer_spec paid
  have burned := fun c' o => supply_of_loses (o := o) yes no c'
  have denominators : after.ctf.payoutDenominator = w.ctf.payoutDenominator := by rw [same]
  have numerators : after.ctf.payoutNumerators = w.ctf.payoutNumerators := by rw [same]
  refine ⟨inv.backed.of_moves moved totals, fun s => ?_, fun c' open' => ?_, ?_⟩
  · rw [allowances, inv.barred s]
  · have := inv.matched c' (by rw [← denominators]; exact open')
    have := burned c' 0 (by decide)
    have := burned c' 1 (by decide)
    omega
  · have others : ∀ c', c' ≠ c → obligation site after.ctf c' = obligation site w.ctf c' :=
      fun c' other => obligation_congr (by rw [denominators]) (by rw [numerators])
        (by simpa [other] using burned c' 0 (by decide))
        (by simpa [other] using burned c' 1 (by decide))
    have mine : obligation site after.ctf c + amount = obligation site w.ctf c := by
      rw [obligation_unresolved (by rw [denominators]; exact unresolved),
        obligation_unresolved unresolved]
      have := burned c 0 (by decide)
      rw [if_pos rfl] at this
      exact_mod_cast this
    have released := moved.entry site.self
    rw [if_pos rfl, if_neg outsider.symm] at released
    have released' : (after.usdc.balanceOf site.self : ℚ) + amount =
        w.usdc.balanceOf site.self := by exact_mod_cast released
    rw [total_change c others]
    linarith [inv.covered]

/-- Redeeming takes the weighted amount out of the obligation. -/
theorem redeemed_obligation {outcome : Nat} (resolved : 0 < ctf.payoutDenominator c)
    (binary : outcome < 2)
    (denominator : ctf'.payoutDenominator c = ctf.payoutDenominator c)
    (numerators : ctf'.payoutNumerators c = ctf.payoutNumerators c)
    (burned : ∀ o, supply site ctf' c o + (if o = outcome then amount else 0) =
      supply site ctf c o) :
    obligation site ctf' c +
        (amount : ℚ) * slot (ctf.payoutNumerators c) outcome / ctf.payoutDenominator c =
      obligation site ctf c := by
  have nonzero : ctf.payoutDenominator c ≠ 0 := resolved.ne'
  have sides : outcome = 0 ∨ outcome = 1 := by omega
  rw [obligation_resolved (by rw [denominator]; exact nonzero), obligation_resolved nonzero,
    weighted_congr denominator numerators]
  rcases sides with rfl | rfl
  · have yes : supply site ctf' c 0 + amount = supply site ctf c 0 := by
      simpa using burned 0
    have no : supply site ctf' c 1 = supply site ctf c 1 := by
      simpa using burned 1
    rw [← yes, no, weighted_add_yes, slot_zero]
  · have yes : supply site ctf' c 0 = supply site ctf c 0 := by
      simpa using burned 0
    have no : supply site ctf' c 1 + amount = supply site ctf c 1 := by
      simpa using burned 1
    rw [← no, yes, weighted_add_no, slot_one]

theorem Collateralised.redeemPositions {outcome : Nat} (inv : Collateralised site w)
    (outsider : sender ≠ site.self)
    (done : redeemPositions site w sender c outcome amount = .ok after) :
    Collateralised site after := by
  obtain ⟨resolved, binary, posted, paid, same⟩ := redeemPositions_spec done
  obtain ⟨moved, totals, allowances⟩ := payOut_spec paid
  have denominators : after.ctf.payoutDenominator = w.ctf.payoutDenominator := by rw [same]
  have numerators : after.ctf.payoutNumerators = w.ctf.payoutNumerators := by rw [same]
  refine ⟨inv.backed.of_moves moved totals, fun s => ?_, fun c' open' => ?_, ?_⟩
  · rw [allowances, inv.barred s]
  · have other : c' ≠ c := by
      rintro rfl
      rw [denominators] at open'
      exact resolved.ne' open'
    rw [supply_of_burn_elsewhere posted other, supply_of_burn_elsewhere posted other,
      inv.matched c' (by rw [← denominators]; exact open')]
  · have others : ∀ c', c' ≠ c → obligation site after.ctf c' = obligation site w.ctf c' :=
      fun c' other => obligation_congr (by rw [denominators]) (by rw [numerators])
        (supply_of_burn_elsewhere posted other 0) (supply_of_burn_elsewhere posted other 1)
    have mine := redeemed_obligation resolved binary (congrFun denominators c)
      (congrFun numerators c) (supply_of_burn posted)
    have floor := redemption_le w.ctf c outcome amount
    have released := moved.entry site.self
    rw [if_pos rfl, if_neg outsider.symm, Nat.add_zero] at released
    have released' : (after.usdc.balanceOf site.self : ℚ) +
        (amount * slot (w.ctf.payoutNumerators c) outcome /
          w.ctf.payoutDenominator c : Nat) = w.usdc.balanceOf site.self := by
      exact_mod_cast released
    rw [total_change c others]
    linarith [inv.covered]

/-- Resolution trades one unit for each complete set for the same amount split by
the payouts, because the two supplies are still equal. -/
theorem Collateralised.reportPayouts {payouts : Nat × Nat} (inv : Collateralised site w)
    (done : reportPayouts w.ctf sender c payouts = .ok ctf') :
    Collateralised site { w with ctf := ctf' } := by
  obtain ⟨-, unresolved, positive, rfl⟩ := reportPayouts_spec done
  refine ⟨inv.backed, inv.barred, fun c' open' => ?_, ?_⟩
  · refine inv.matched c' ?_
    by_cases same : c' = c
    · rw [same]; exact unresolved
    · simpa [Function.update_of_ne same] using open'
  · have unchanged : ∀ c', obligation site { w.ctf with
        payoutNumerators := Function.update w.ctf.payoutNumerators c payouts
        payoutDenominator := Function.update w.ctf.payoutDenominator c
          (payouts.1 + payouts.2) } c' = obligation site w.ctf c' := by
      intro c'
      by_cases same : c' = c
      · subst same
        have nonzero : (payouts.1 + payouts.2 : ℚ) ≠ 0 := by exact_mod_cast positive.ne'
        rw [obligation_unresolved unresolved,
          obligation_resolved (by simp only [Function.update_self]; omega)]
        simp only [weighted, supply, Function.update_self]
        rw [show columnTotal w.ctf.balanceOf (pid site c' 1) =
          columnTotal w.ctf.balanceOf (pid site c' 0) from (inv.matched c' unresolved).symm]
        push_cast
        field_simp
      · exact obligation_congr (Function.update_of_ne same _ _)
          (Function.update_of_ne same _ _) rfl rfl
    exact (total_congr unchanged).trans_le inv.covered

theorem Collateralised.safeTransferFrom {owner receiver : Address} {id : Nat}
    (inv : Collateralised site w)
    (done : safeTransferFrom w.ctf sender owner receiver id amount = .ok ctf') :
    Collateralised site { w with ctf := ctf' } := by
  obtain ⟨-, moved, same⟩ := safeTransferFrom_spec done
  have supplies : ∀ c' o, supply site ctf' c' o = supply site w.ctf c' o :=
    supply_of_moves moved
  have denominators : ctf'.payoutDenominator = w.ctf.payoutDenominator := by rw [same]
  have numerators : ctf'.payoutNumerators = w.ctf.payoutNumerators := by rw [same]
  refine ⟨inv.backed, inv.barred, fun c' open' => ?_, ?_⟩
  · rw [supplies, supplies]
    exact inv.matched c' (by rw [← denominators]; exact open')
  · have unchanged : ∀ c', obligation site ctf' c' = obligation site w.ctf c' :=
      fun c' => obligation_congr (by rw [denominators]) (by rw [numerators])
        (supplies c' 0) (supplies c' 1)
    exact (total_congr unchanged).trans_le inv.covered

/-- Every step keeps the two contracts collateralised. -/
theorem Collateralised.step (inv : Collateralised site w) (taken : Tokens.Step site w after) :
    Collateralised site after := by
  obtain ⟨sender, tx, outsider, done⟩ := taken
  cases tx with
  | usdc tx =>
      simp only [Tokens.exec, bind_ok, pure_ok] at done
      obtain ⟨usdc, done, rfl⟩ := done
      exact inv.usdc_step outsider done
  | ctf tx =>
      cases tx with
      | prepareCondition oracle questionId =>
          simp only [Tokens.exec, exec, bind_ok, pure_ok] at done
          obtain ⟨⟨cid, prepared⟩, done, rfl⟩ := done
          exact inv.prepareCondition done
      | splitPosition c amount => exact inv.splitPosition outsider done
      | mergePositions c amount => exact inv.mergePositions outsider done
      | redeemPositions c outcome amount => exact inv.redeemPositions outsider done
      | reportPayouts c payouts =>
          simp only [Tokens.exec, exec, bind_ok, pure_ok] at done
          obtain ⟨ctf, done, rfl⟩ := done
          exact inv.reportPayouts done
      | setApprovalForAll operator approved =>
          simp only [Tokens.exec, exec, pure_ok] at done
          subst done
          exact ⟨inv.backed, inv.barred, inv.matched, inv.covered⟩
      | safeTransferFrom owner receiver id amount =>
          simp only [Tokens.exec, exec, bind_ok, pure_ok] at done
          obtain ⟨ctf, done, rfl⟩ := done
          exact inv.safeTransferFrom done

theorem reachable_collateralised
    (reached : Reachable (Tokens.Initial site) (Tokens.Step site) w) :
    Collateralised site w :=
  reached.invariant (fun _ => initially_collateralised) (fun _ _ inv => inv.step)

/-- A supply depends on the balances only. -/
theorem supply_congr {ctf ctf' : ConditionalTokens} (same : ctf'.balanceOf = ctf.balanceOf)
    (c : Bytes32) (outcome : Nat) : supply site ctf' c outcome = supply site ctf c outcome := by
  unfold supply
  rw [same]

/-- Nothing is issued for a condition that is unprepared or resolved. -/
theorem exec_supply_le {tx : Tx}
    (closed : w.ctf.outcomeSlots c ≠ 2 ∨ w.ctf.payoutDenominator c ≠ 0)
    (done : exec site w sender tx = .ok after) {outcome : Nat} (binary : outcome < 2) :
    supply site after.ctf c outcome ≤ supply site w.ctf c outcome := by
  cases tx with
  | prepareCondition oracle questionId =>
      simp only [exec, bind_ok, pure_ok] at done
      rcases done with ⟨⟨cid, w'⟩, done, rfl⟩
      rcases prepareCondition_spec done with ⟨-, -, -, rfl⟩
      exact (supply_congr rfl c outcome).le
  | splitPosition c' amount =>
      rcases splitPosition_spec done with ⟨prepared, unresolved, -, ⟨middle, yes, no⟩, -⟩
      have other : c ≠ c' := by
        rintro rfl
        exact closed.elim (fun missing => missing prepared) fun resolved => resolved unresolved
      have issued := supply_of_gains yes no c binary
      rw [if_neg other, Nat.add_zero] at issued
      exact issued.le
  | mergePositions c' amount =>
      rcases mergePositions_spec done with ⟨-, -, ⟨middle, yes, no⟩, -⟩
      have burned := supply_of_loses yes no c binary
      omega
  | redeemPositions c' outcome' amount =>
      rcases redeemPositions_spec done with ⟨-, -, burned, -, -⟩
      by_cases same : c = c'
      · subst same
        have less := supply_of_burn burned outcome
        omega
      · rw [supply_of_burn_elsewhere burned same]
  | reportPayouts c' payouts =>
      simp only [exec, bind_ok, pure_ok] at done
      rcases done with ⟨ctf, done, rfl⟩
      rcases reportPayouts_spec done with ⟨-, -, -, rfl⟩
      exact (supply_congr rfl c outcome).le
  | setApprovalForAll operator approved =>
      cases done
      exact (supply_congr rfl c outcome).le
  | safeTransferFrom owner receiver id amount =>
      simp only [exec, bind_ok, pure_ok] at done
      rcases done with ⟨ctf, done, rfl⟩
      rcases safeTransferFrom_spec done with ⟨-, moved, -⟩
      exact (supply_of_moves moved c outcome).le

/-! ### Payouts never run out of collateral -/

/-- Merging held complete sets of an unresolved condition succeeds. -/
theorem Collateralised.merge_succeeds (inv : Collateralised site w)
    (unresolved : w.ctf.payoutDenominator c = 0)
    (yes : amount ≤ w.ctf.balanceOf (sender, pid site c 0))
    (no : amount ≤ w.ctf.balanceOf (sender, pid site c 1)) :
    ∃ after, ConditionalTokens.mergePositions site w sender c amount = .ok after := by
  have held : (amount : ℚ) ≤ w.usdc.balanceOf site.self := by
    have mine : amount ≤ supply site w.ctf c 0 := yes.trans (le_columnTotal _ _ _)
    have owed := obligation_le_total site w.ctf c
    rw [obligation_unresolved unresolved] at owed
    have : (amount : ℚ) ≤ supply site w.ctf c 0 := by exact_mod_cast mine
    linarith [inv.covered]
  have covered : amount ≤ w.usdc.balanceOf site.self := by exact_mod_cast held
  obtain ⟨usdc, paid⟩ : ∃ usdc, w.usdc.transfer site.self sender amount = .ok usdc :=
    MockUSDC.transfer_succeeds inv.backed covered
  have apart : (sender, pid site c 1) ≠ (sender, pid site c 0) := fun same =>
    pid_ne site (.inr (by decide)) (congrArg Prod.snd same)
  simp only [ConditionalTokens.mergePositions, bind_ok, require_ok, debit_ok, pure_ok,
    exists_const]
  exact ⟨_, unresolved, _, ⟨yes, rfl⟩, _,
    ⟨by rw [Function.update_of_ne apart]; exact no, rfl⟩, usdc, paid, rfl⟩

/-- Redeeming held positions of a resolved condition succeeds whenever the
weighted amount fits in a word. -/
theorem Collateralised.redeem_succeeds {outcome : Nat} (inv : Collateralised site w)
    (resolved : 0 < w.ctf.payoutDenominator c) (binary : outcome < 2)
    (held : amount ≤ w.ctf.balanceOf (sender, pid site c outcome))
    (fits : amount * slot (w.ctf.payoutNumerators c) outcome < wordSize) :
    ∃ after, ConditionalTokens.redeemPositions site w sender c outcome amount = .ok after := by
  have owed := obligation_le_total site w.ctf c
  rw [obligation_resolved resolved.ne', weighted] at owed
  have mine : amount ≤ supply site w.ctf c outcome := held.trans (le_columnTotal _ _ _)
  have share : (amount : ℚ) * slot (w.ctf.payoutNumerators c) outcome ≤
      (supply site w.ctf c 0 : ℚ) * (w.ctf.payoutNumerators c).1 +
        supply site w.ctf c 1 * (w.ctf.payoutNumerators c).2 := by
    interval_cases outcome
    · simp only [slot, if_true]
      exact_mod_cast (Nat.mul_le_mul_right _ mine).trans (Nat.le_add_right _ _)
    · simp only [slot, one_ne_zero, if_false]
      exact_mod_cast (Nat.mul_le_mul_right _ mine).trans (Nat.le_add_left _ _)
  have floor := redemption_le w.ctf c outcome amount
  have payable : ((amount * slot (w.ctf.payoutNumerators c) outcome /
      w.ctf.payoutDenominator c : Nat) : ℚ) ≤ w.usdc.balanceOf site.self := by
    have nonneg : (0 : ℚ) ≤ w.ctf.payoutDenominator c := Nat.cast_nonneg _
    have := div_le_div_of_nonneg_right share nonneg
    linarith [inv.covered]
  have covered : amount * slot (w.ctf.payoutNumerators c) outcome /
      w.ctf.payoutDenominator c ≤ w.usdc.balanceOf site.self := by exact_mod_cast payable
  have out : ∃ usdc, payOut site w.usdc sender (amount *
      slot (w.ctf.payoutNumerators c) outcome / w.ctf.payoutDenominator c) = .ok usdc := by
    unfold payOut
    split
    · exact MockUSDC.transfer_succeeds inv.backed covered
    · exact ⟨w.usdc, rfl⟩
  obtain ⟨usdc', paid'⟩ := out
  simp only [ConditionalTokens.redeemPositions, bind_ok, require_ok, debit_ok, umul_ok,
    udiv_ok, pure_ok, exists_const]
  exact ⟨_, resolved, binary, _, ⟨held, rfl⟩, _, ⟨fits, rfl⟩, _, ⟨resolved.ne', rfl⟩,
    usdc', paid', rfl⟩

/-- In every reachable state the supplies of each unresolved condition match, the
collateral covers every obligation, and no merge or redemption of held positions
fails for lack of it. -/
theorem tokens_fully_collateralised
    (reached : Reachable (Tokens.Initial site) (Tokens.Step site) w) :
    (∀ c, w.ctf.payoutDenominator c = 0 →
      supply site w.ctf c 0 = supply site w.ctf c 1) ∧
    total (fun c => if w.ctf.payoutDenominator c = 0 then (supply site w.ctf c 0 : ℚ) else 0) +
      total (fun c => if w.ctf.payoutDenominator c = 0 then (0 : ℚ) else
        ((supply site w.ctf c 0 : ℚ) * (w.ctf.payoutNumerators c).1 +
          supply site w.ctf c 1 * (w.ctf.payoutNumerators c).2) /
            w.ctf.payoutDenominator c) ≤ w.usdc.balanceOf site.self ∧
    (∀ sender c amount, w.ctf.payoutDenominator c = 0 →
      amount ≤ w.ctf.balanceOf (sender, pid site c 0) →
      amount ≤ w.ctf.balanceOf (sender, pid site c 1) →
      ∃ after, ConditionalTokens.mergePositions site w sender c amount = .ok after) ∧
    (∀ sender c outcome amount, 0 < w.ctf.payoutDenominator c → outcome < 2 →
      amount ≤ w.ctf.balanceOf (sender, pid site c outcome) →
      amount * slot (w.ctf.payoutNumerators c) outcome < wordSize →
      ∃ after,
        ConditionalTokens.redeemPositions site w sender c outcome amount = .ok after) := by
  have inv := reachable_collateralised reached
  refine ⟨inv.matched, ?_, fun sender c amount => inv.merge_succeeds,
    fun sender c outcome amount => inv.redeem_succeeds⟩
  rw [← total_add]
  refine le_of_eq_of_le (total_congr fun c => ?_) inv.covered
  unfold obligation
  split
  · rw [add_zero]
  · rw [zero_add]
    rfl

/-- A run to try the theorem on: two accounts split, then the oracle resolves. -/
theorem tokens_fully_collateralised_after_report :
    ∃ w : Tokens, w.ctf.payoutDenominator 7 = 1 ∧
      (total (fun c => if w.ctf.payoutDenominator c = 0 then
          (supply ⟨9, .paired⟩ w.ctf c 0 : ℚ) else 0) +
        total (fun c => if w.ctf.payoutDenominator c = 0 then (0 : ℚ) else
          ((supply ⟨9, .paired⟩ w.ctf c 0 : ℚ) * (w.ctf.payoutNumerators c).1 +
            supply ⟨9, .paired⟩ w.ctf c 1 * (w.ctf.payoutNumerators c).2) /
              w.ctf.payoutDenominator c) ≤ w.usdc.balanceOf 9) ∧
      ∃ after, ConditionalTokens.redeemPositions ⟨9, .paired⟩ w 2 7 0 30 = .ok after := by
  let site : CtfSite := ⟨9, .paired⟩
  have start : Reachable (Tokens.Initial site) (Tokens.Step site)
      ⟨.deployed, .deployed⟩ := .start ⟨rfl, MockUSDC.deployed_backed, fun _ => rfl⟩
  have paid := (start.next (.call 2 (.usdc (.faucet 30)) (by decide) rfl)).next
    (.call 2 (.usdc (.approve 9 30)) (by decide) rfl)
  have split := (paid.next (.call 2 (.ctf (.prepareCondition 5 7)) (by decide) rfl)).next
    (.call 2 (.ctf (.splitPosition 7 30)) (by decide) rfl)
  have funded := (split.next (.call 3 (.usdc (.faucet 20)) (by decide) rfl)).next
    (.call 3 (.usdc (.approve 9 20)) (by decide) rfl)
  have both := funded.next (.call 3 (.ctf (.splitPosition 7 20)) (by decide) rfl)
  have resolved := both.next (.call 5 (.ctf (.reportPayouts 7 (1, 0))) (by decide) rfl)
  have settled := tokens_fully_collateralised resolved
  exact ⟨_, rfl, settled.2.1, settled.2.2.2 2 7 0 30 (by decide) (by decide) (by decide)
    (by decide)⟩

end ConditionalTokens

end OverUnder.Contracts
