/-
Module: OverUnder.Proofs.Redemptions
Purpose: Every pending redemption is backed by OU the vault holds, can be claimed for
  its floored share of the collateral, and no call lowers what the OU left over is
  worth.
Trusted boundary: none
Main exports: Pooled, Pooled.step, claim_succeeds, nav_step, redemptions_payable
-/
import OverUnder.Contracts.FeeVault
import OverUnder.Library.Reachable
import OverUnder.Proofs.Collateral

namespace OverUnder.Contracts

open OverUnder.Vyper
open OverUnder.Library

namespace RevenueToken

variable {ou after : RevenueToken} {sender account : Address} {amount : Nat}

theorem burn_spec (done : ou.burn sender amount = .ok after) :
    Loses ou.balanceOf after.balanceOf sender amount ∧ amount ≤ ou.totalSupply ∧
      after.totalSupply = ou.totalSupply - amount ∧ after.allowance = ou.allowance := by
  simp only [burn, bind_ok, debit_ok, usub_ok, pure_ok] at done
  rcases done with ⟨balances, ⟨covered, rfl⟩, supply, ⟨part, rfl⟩, rfl⟩
  exact ⟨loses_update covered, part, rfl, rfl⟩

theorem burn_backed (backed : ou.toMockUSDC.Backed) (done : ou.burn sender amount = .ok after) :
    after.toMockUSDC.Backed := by
  rcases burn_spec done with ⟨burned, part, supply, -⟩
  have left := burned.total_eq
  have whole := backed.supply_eq
  refine ⟨?_, ?_⟩
  · rw [supply]
    omega
  · rw [supply]
    exact Nat.lt_of_le_of_lt (Nat.sub_le _ _) backed.fits

theorem deployed_backed (treasury : Address) : (deployed treasury).toMockUSDC.Backed := by
  have balances : (deployed treasury).balanceOf =
      Function.update (fun _ => 0) treasury initialSupply := rfl
  have gained := (gains_update (fun _ : Address => 0) treasury initialSupply).total_eq
  have nothing : total (fun _ : Address => 0) = 0 := total_zero fun _ => rfl
  rw [nothing, Nat.zero_add] at gained
  constructor
  · rw [balances, gained]
    rfl
  · exact (by decide +kernel : initialSupply < wordSize)

/-- A call of somebody else than `account`, to whom `account` gave no allowance. -/
structure Keeps (ou after : RevenueToken) (account : Address) : Prop where
  backed : ou.toMockUSDC.Backed → after.toMockUSDC.Backed
  supply : after.totalSupply ≤ ou.totalSupply
  balance : ou.balanceOf account ≤ after.balanceOf account
  allowance : ∀ s, after.allowance (account, s) = ou.allowance (account, s)

theorem Keeps.refl (ou : RevenueToken) (account : Address) : Keeps ou ou account :=
  ⟨id, Nat.le_refl _, Nat.le_refl _, fun _ => rfl⟩

theorem Keeps.trans {last : RevenueToken} (first : Keeps ou after account)
    (second : Keeps after last account) : Keeps ou last account where
  backed := second.backed ∘ first.backed
  supply := second.supply.trans first.supply
  balance := first.balance.trans second.balance
  allowance s := (second.allowance s).trans (first.allowance s)

theorem transferFrom_keeps {owner recipient : Address} (outsider : sender ≠ account)
    (barred : ou.allowance (account, sender) = 0)
    (done : ou.transferFrom sender owner recipient amount = .ok after) :
    Keeps ou after account := by
  simp only [transferFrom, bind_ok, pure_ok] at done
  rcases done with ⟨token, done, rfl⟩
  have called : ou.toMockUSDC.exec sender (.transferFrom owner recipient amount) = .ok token := done
  have kept := MockUSDC.exec_keeps_balance outsider barred called
  rcases MockUSDC.transferFrom_spec done with ⟨moved, supply, -⟩
  exact ⟨fun backed => backed.of_moves moved supply, supply.le, kept.1, kept.2⟩

theorem exec_keeps {tx : Tx} (outsider : sender ≠ account)
    (barred : ou.allowance (account, sender) = 0) (done : ou.exec sender tx = .ok after) :
    Keeps ou after account := by
  cases tx with
  | transfer recipient amount =>
      simp only [exec, transfer, bind_ok, pure_ok] at done
      rcases done with ⟨token, done, rfl⟩
      have called : ou.toMockUSDC.exec sender (.transfer recipient amount) = .ok token := done
      have kept := MockUSDC.exec_keeps_balance outsider barred called
      rcases MockUSDC.transfer_spec done with ⟨moved, supply, -⟩
      exact ⟨fun backed => backed.of_moves moved supply, supply.le, kept.1, kept.2⟩
  | approve spender amount =>
      cases done
      have called : ou.toMockUSDC.exec sender (.approve spender amount) =
        .ok (ou.approve sender spender amount).toMockUSDC := rfl
      have kept := MockUSDC.exec_keeps_balance outsider barred called
      exact ⟨fun backed => ⟨backed.supply_eq, backed.fits⟩, Nat.le_refl _, kept.1, kept.2⟩
  | transferFrom owner recipient amount => exact transferFrom_keeps outsider barred done
  | burn amount =>
      rcases burn_spec done with ⟨burned, -, supply, same⟩
      refine ⟨fun backed => burn_backed backed done, ?_, ?_, fun s => by rw [same]⟩
      · rw [supply]
        exact Nat.sub_le _ _
      · rw [burned.of_ne outsider.symm]

end RevenueToken

theorem EmissionsDistributor.distribute_keeps {d : EmissionsDistributor}
    {ou after : RevenueToken} {sender account : Address} {recipients : List Address}
    {amounts : List Nat} (apart : d.self ≠ account) (barred : ou.allowance (account, d.self) = 0)
    (done : d.distribute ou sender recipients amounts = .ok after) :
    RevenueToken.Keeps ou after account := by
  simp only [distribute, bind_ok, require_ok, pure_ok, exists_const] at done
  rcases done with ⟨-, -, -, paid, done, -, rfl⟩
  generalize recipients.zip amounts = payments at done
  induction payments generalizing ou with
  | nil =>
      cases done
      exact .refl _ account
  | cons payment rest ih =>
      rw [List.foldlM_cons, bind_ok] at done
      rcases done with ⟨middle, first, later⟩
      simp only [pay, bind_ok, require_ok, exists_const] at first
      have kept := RevenueToken.transferFrom_keeps apart barred first.2.2
      exact kept.trans (ih ((kept.allowance _).trans barred) later)

namespace FeeVault

/-- What every reachable state satisfies. -/
structure Pooled (home : Address) (w : Revenue) : Prop where
  usdc : w.usdc.Backed
  ou : w.ou.toMockUSDC.Backed
  usdcBarred : ∀ s, w.usdc.allowance (home, s) = 0
  ouBarred : ∀ s, w.ou.allowance (home, s) = 0
  apart : w.distributor.self ≠ home
  own : (w.vault.requests home).amount = 0
  pooled : total (fun a => (w.vault.requests a).amount) ≤ w.ou.balanceOf home

variable {home : Address} {w next : Revenue} {account : Address} {timestamp paid : Nat}

/-- Calls that leave the vault's storage alone and nothing of its holdings out. -/
theorem Pooled.of_keeps (inv : Pooled home w) {ou : RevenueToken}
    (kept : RevenueToken.Keeps w.ou ou home) : Pooled home { w with ou } where
  usdc := inv.usdc
  ou := kept.backed inv.ou
  usdcBarred := inv.usdcBarred
  ouBarred s := (kept.allowance s).trans (inv.ouBarred s)
  apart := inv.apart
  own := inv.own
  pooled := inv.pooled.trans kept.balance

/-! ### Requests -/

theorem requestRedeem_spec {ouAmount : Nat}
    (done : requestRedeem home w account timestamp ouAmount = .ok next) :
    (w.vault.requests account).amount = 0 ∧
      w.ou.transferFrom home account home ouAmount = .ok next.ou ∧
      (∃ availableAt, next.vault.requests =
        Function.update w.vault.requests account ⟨ouAmount, availableAt⟩) ∧
      next.usdc = w.usdc ∧ next.distributor = w.distributor := by
  simp only [requestRedeem, bind_ok, require_ok, uadd_ok, pure_ok, exists_const] at done
  rcases done with ⟨-, none, ou, pulled, _, ⟨-, rfl⟩, rfl⟩
  exact ⟨none, pulled, ⟨_, rfl⟩, rfl, rfl⟩

theorem Pooled.requestRedeem {ouAmount : Nat} (inv : Pooled home w) (outsider : account ≠ home)
    (done : FeeVault.requestRedeem home w account timestamp ouAmount = .ok next) :
    Pooled home next ∧ next.ou.totalSupply = w.ou.totalSupply := by
  rcases requestRedeem_spec done with ⟨none, pulled, ⟨availableAt, requests⟩, usdc, distributor⟩
  simp only [RevenueToken.transferFrom, bind_ok, pure_ok] at pulled
  rcases pulled with ⟨token, pulled, ou⟩
  rcases MockUSDC.transferFrom_spec pulled with ⟨moved, supply, others, -⟩
  have mine : next.ou.balanceOf home = w.ou.balanceOf home + ouAmount := by
    have entry := moved.entry home
    rw [if_neg outsider.symm, if_pos rfl] at entry
    rw [ou]
    exact entry
  have more : Gains (fun a => (w.vault.requests a).amount)
      (fun a => (next.vault.requests a).amount) account ouAmount := by
    intro x
    rw [requests]
    by_cases same : x = account
    · subst same
      simp [none]
    · simp [same]
  have supplied : next.ou.totalSupply = w.ou.totalSupply := by
    rw [ou]
    exact supply
  refine ⟨⟨by rw [usdc]; exact inv.usdc, ?_, by rw [usdc]; exact inv.usdcBarred, fun s => ?_,
    by rw [distributor]; exact inv.apart, ?_, ?_⟩, supplied⟩
  · rw [ou]
    exact inv.ou.of_moves moved supply
  · rw [ou]
    exact (others _ fun pair => outsider (congrArg Prod.fst pair).symm).trans (inv.ouBarred s)
  · rw [requests, Function.update_of_ne outsider.symm]
    exact inv.own
  · rw [more.total_eq, mine]
    exact Nat.add_le_add_right inv.pooled _

/-! ### Claims -/

/-- A claim burns the pooled OU and pays the floored share of the collateral. -/
structure Claims (home : Address) (w next : Revenue) (account : Address) (paid : Nat) :
    Prop where
  burned : w.ou.burn home (w.vault.requests account).amount = .ok next.ou
  share : paid = (w.vault.requests account).amount * w.usdc.balanceOf home / w.ou.totalSupply
  moved : Moves w.usdc.balanceOf next.usdc.balanceOf home account paid
  usdcSupply : next.usdc.totalSupply = w.usdc.totalSupply
  allowance : next.usdc.allowance = w.usdc.allowance
  requests : next.vault.requests = Function.update w.vault.requests account .empty
  distributor : next.distributor = w.distributor

theorem claim_spec (done : claim home w account timestamp = .ok (paid, next)) :
    Claims home w next account paid := by
  simp only [claim, bind_ok, require_ok, umul_ok, udiv_ok, exists_const] at done
  rcases done with ⟨-, -, _, ⟨-, rfl⟩, _, ⟨-, rfl⟩, ou, burned, done⟩
  split at done
  · simp only [bind_ok, pure_ok, Prod.mk.injEq] at done
    rcases done with ⟨usdc, sent, rfl, rfl⟩
    rcases MockUSDC.transfer_spec sent with ⟨moved, supply, allowance⟩
    exact ⟨burned, rfl, moved, supply, allowance, rfl, rfl⟩
  · next nothing =>
    simp only [pure_ok, Prod.mk.injEq] at done
    rcases done with ⟨rfl, rfl⟩
    refine ⟨burned, rfl, ?_, rfl, rfl, rfl, rfl⟩
    rw [Nat.eq_zero_of_not_pos nothing]
    exact ⟨Nat.zero_le _, fun x => by simp⟩

theorem Pooled.claim (inv : Pooled home w) (outsider : account ≠ home)
    (claims : Claims home w next account paid) : Pooled home next := by
  rcases RevenueToken.burn_spec claims.burned with ⟨burned, -, -, allowance⟩
  have fewer : Loses (fun a => (w.vault.requests a).amount)
      (fun a => (next.vault.requests a).amount) account (w.vault.requests account).amount := by
    intro x
    rw [claims.requests]
    by_cases same : x = account
    · subst same
      simp [Request.empty]
    · simp [same]
  refine ⟨inv.usdc.of_moves claims.moved claims.usdcSupply,
    RevenueToken.burn_backed inv.ou claims.burned, ?_, ?_, ?_, ?_, ?_⟩
  · rw [claims.allowance]
    exact inv.usdcBarred
  · rw [allowance]
    exact inv.ouBarred
  · rw [claims.distributor]
    exact inv.apart
  · rw [claims.requests, Function.update_of_ne outsider.symm]
    exact inv.own
  · have left := fewer.total_eq
    have held := burned.at_key
    have old := inv.pooled
    omega

/-- The vault holds the OU of a request, so there is a supply to share among. -/
theorem Pooled.amount_le (inv : Pooled home w) (account : Address) :
    (w.vault.requests account).amount ≤ w.ou.balanceOf home :=
  (le_total (fun a => (w.vault.requests a).amount) account).trans inv.pooled

/-- A request past its cooldown can be claimed. -/
theorem claim_succeeds (inv : Pooled home w)
    (pending : 0 < (w.vault.requests account).amount)
    (ripe : (w.vault.requests account).availableAt ≤ timestamp)
    (fits : (w.vault.requests account).amount * w.usdc.balanceOf home < wordSize) :
    ∃ next, claim home w account timestamp =
      .ok ((w.vault.requests account).amount * w.usdc.balanceOf home / w.ou.totalSupply, next) := by
  have held := inv.amount_le account
  have supplied : w.ou.balanceOf home ≤ w.ou.totalSupply := inv.ou.balance_le home
  have some_supply : w.ou.totalSupply ≠ 0 := by omega
  have share : (w.vault.requests account).amount * w.usdc.balanceOf home / w.ou.totalSupply ≤
      w.usdc.balanceOf home := by
    apply Nat.div_le_of_le_mul
    exact Nat.mul_le_mul_right _ (held.trans supplied)
  have burns : ∃ ou, w.ou.burn home (w.vault.requests account).amount = .ok ou := by
    simp only [RevenueToken.burn, bind_ok, debit_ok, usub_ok, pure_ok]
    exact ⟨_, _, ⟨held, rfl⟩, _, ⟨held.trans supplied, rfl⟩, rfl⟩
  rcases burns with ⟨ou, burned⟩
  obtain ⟨usdc, sent⟩ : ∃ usdc, w.usdc.transfer home account
      ((w.vault.requests account).amount * w.usdc.balanceOf home / w.ou.totalSupply) = .ok usdc :=
    MockUSDC.transfer_succeeds inv.usdc share
  simp only [claim, bind_ok, require_ok, umul_ok, udiv_ok, exists_const]
  by_cases some_paid : 0 < (w.vault.requests account).amount * w.usdc.balanceOf home /
      w.ou.totalSupply
  · refine ⟨{ w with ou, usdc, vault := { w.vault with
      requests := Function.update w.vault.requests account .empty } },
      pending, ripe, _, ⟨fits, rfl⟩, _, ⟨some_supply, rfl⟩, ou, burned, ?_⟩
    rw [if_pos some_paid]
    simp only [bind_ok, pure_ok]
    exact ⟨usdc, sent, rfl⟩
  · refine ⟨{ w with ou, vault := { w.vault with
      requests := Function.update w.vault.requests account .empty } },
      pending, ripe, _, ⟨fits, rfl⟩, _, ⟨some_supply, rfl⟩, ou, burned, ?_⟩
    rw [if_neg some_paid]
    rfl

/-- The collateral left after a claim is at least the share of the OU left. -/
theorem claim_nav (outsider : account ≠ home)
    (claims : Claims home w next account paid) :
    w.usdc.balanceOf home * next.ou.totalSupply ≤
      next.usdc.balanceOf home * w.ou.totalSupply := by
  rcases RevenueToken.burn_spec claims.burned with ⟨-, -, supply, -⟩
  have entry := claims.moved.entry home
  rw [if_pos rfl, if_neg outsider.symm] at entry
  have left : next.usdc.balanceOf home = w.usdc.balanceOf home - paid := by omega
  have share : paid * w.ou.totalSupply ≤
      (w.vault.requests account).amount * w.usdc.balanceOf home := by
    rw [claims.share]
    exact Nat.div_mul_le_self _ _
  rw [supply, left, Nat.mul_sub, Nat.sub_mul, Nat.mul_comm (w.usdc.balanceOf home)
    (w.vault.requests account).amount]
  exact Nat.sub_le_sub_left share _

/-! ### Steps and runs -/

/-- Each call keeps the pool and the worth of what is left. -/
theorem Pooled.step (inv : Pooled home w) (taken : Revenue.Step home w next) :
    Pooled home next ∧ w.usdc.balanceOf home * next.ou.totalSupply ≤
      next.usdc.balanceOf home * w.ou.totalSupply := by
  rcases taken with ⟨action, outsider, done⟩
  cases action with
  | usdc sender tx =>
      simp only [Revenue.perform, bind_ok, pure_ok] at done
      rcases done with ⟨usdc, done, rfl⟩
      rcases MockUSDC.exec_keeps_balance outsider (inv.usdcBarred sender) done with
        ⟨balance, allowance⟩
      exact ⟨⟨MockUSDC.exec_backed inv.usdc done, inv.ou,
        fun s => (allowance s).trans (inv.usdcBarred s), inv.ouBarred, inv.apart, inv.own,
        inv.pooled⟩, Nat.mul_le_mul_right _ balance⟩
  | ou sender tx =>
      simp only [Revenue.perform, bind_ok, pure_ok] at done
      rcases done with ⟨ou, done, rfl⟩
      have kept := RevenueToken.exec_keeps outsider (inv.ouBarred sender) done
      exact ⟨inv.of_keeps kept, Nat.mul_le_mul_left _ kept.supply⟩
  | distribute sender recipients amounts =>
      simp only [Revenue.perform, bind_ok, pure_ok] at done
      rcases done with ⟨ou, done, rfl⟩
      have kept := EmissionsDistributor.distribute_keeps inv.apart (inv.ouBarred _) done
      exact ⟨inv.of_keeps kept, Nat.mul_le_mul_left _ kept.supply⟩
  | requestRedeem sender timestamp ouAmount =>
      rcases inv.requestRedeem outsider done with ⟨pooled, supply⟩
      rcases requestRedeem_spec done with ⟨-, -, -, usdc, -⟩
      rw [usdc, supply]
      exact ⟨pooled, Nat.le_refl _⟩
  | claim sender timestamp =>
      simp only [Revenue.perform, bind_ok, pure_ok] at done
      rcases done with ⟨⟨paid, w'⟩, done, rfl⟩
      have claims := claim_spec done
      exact ⟨inv.claim outsider claims, claim_nav outsider claims⟩

/-- The vault was just deployed over two working tokens whose allowances it never gave,
beside a distributor of its own. -/
structure Initial (home : Address) (w : Revenue) : Prop where
  usdc : w.usdc.Backed
  ou : w.ou.toMockUSDC.Backed
  usdcBarred : ∀ s, w.usdc.allowance (home, s) = 0
  ouBarred : ∀ s, w.ou.allowance (home, s) = 0
  apart : w.distributor.self ≠ home
  deployed : ∃ cooldown, w.vault = FeeVault.deployed cooldown

theorem initially_pooled (initial : Initial home w) : Pooled home w := by
  rcases initial.deployed with ⟨cooldown, vault⟩
  refine ⟨initial.usdc, initial.ou, initial.usdcBarred, initial.ouBarred, initial.apart, ?_, ?_⟩
  · rw [vault]
    rfl
  · rw [vault]
    exact (total_zero fun _ => rfl).trans_le (Nat.zero_le _)

/-- In every reachable state the pending requests are backed by OU of the vault, each can be
claimed from its time on for the floored share of the collateral, and no call lowers what
the remaining OU is worth. -/
theorem redemptions_payable (reached : Reachable (Initial home) (Revenue.Step home) w) :
    total (fun a => (w.vault.requests a).amount) ≤ w.ou.balanceOf home ∧
    (∀ account timestamp, 0 < (w.vault.requests account).amount →
      (w.vault.requests account).availableAt ≤ timestamp →
      (w.vault.requests account).amount * w.usdc.balanceOf home < wordSize →
      ∃ next, claim home w account timestamp = .ok
          ((w.vault.requests account).amount * w.usdc.balanceOf home / w.ou.totalSupply, next) ∧
        next.usdc.balanceOf account = w.usdc.balanceOf account +
          (w.vault.requests account).amount * w.usdc.balanceOf home / w.ou.totalSupply) ∧
    ∀ next, Revenue.Step home w next →
      w.usdc.balanceOf home * next.ou.totalSupply ≤
        next.usdc.balanceOf home * w.ou.totalSupply := by
  have inv : Pooled home w :=
    reached.invariant (fun _ => initially_pooled) fun _ _ inv taken => (inv.step taken).1
  refine ⟨inv.pooled, fun account timestamp pending ripe fits => ?_,
    fun next taken => (inv.step taken).2⟩
  have outsider : account ≠ home := by
    rintro rfl
    rw [inv.own] at pending
    exact Nat.lt_irrefl _ pending
  rcases claim_succeeds inv pending ripe fits with ⟨next, done⟩
  have entry := (claim_spec done).moved.entry account
  rw [if_neg outsider, if_pos rfl] at entry
  exact ⟨next, done, entry⟩

/-- The vault at address 8 of a treasury at address 2, with a thousand units of fees and a
request of half a thousand OU units. -/
def sampleCalls : List Revenue.Action :=
  [.usdc 3 (.mint 8 1000), .ou 2 (.approve 8 500), .requestRedeem 2 0 500]

def sampleRevenue : Revenue := ⟨.deployed, .deployed 2, .deployed 10, ⟨7, 5, 2⟩⟩

theorem sample_initial : Initial 8 sampleRevenue where
  usdc := MockUSDC.deployed_backed
  ou := RevenueToken.deployed_backed 2
  usdcBarred _ := rfl
  ouBarred _ := rfl
  apart := by decide
  deployed := ⟨10, rfl⟩

/-- The theorem over a request and its claim. -/
theorem redemptions_payable_claimed :
    ∃ w next : Revenue, (w.vault.requests 2).amount = 500 ∧
      ∃ paid, claim 8 w 2 10 = .ok (paid, next) := by
  rcases (ok_of_isOk (by decide +kernel) : ∃ w, sampleCalls.foldlM (Revenue.perform 8)
    sampleRevenue = .ok w) with ⟨w, done⟩
  have state : (sampleCalls.foldlM (Revenue.perform 8) sampleRevenue).toOption.map
      (fun w => (w.vault.requests 2, w.usdc.balanceOf 8)) = some (⟨500, 10⟩, 1000) := by
    decide +kernel
  rw [done] at state
  simp only [Except.toOption, Option.map_some, Option.some.injEq, Prod.mk.injEq] at state
  rcases state with ⟨request, fees⟩
  have reached : Reachable (Initial 8) (Revenue.Step 8) w :=
    Reachable.execute (fun _ action _ => Revenue.Step.call action)
      (by decide : ∀ action ∈ sampleCalls, action.sender ≠ 8) (.start sample_initial) done
  rcases (redemptions_payable reached).2.1 2 10 (by rw [request]; decide)
    (by rw [request]) (by rw [request, fees]; decide +kernel) with ⟨next, claimed, -⟩
  exact ⟨w, next, congrArg Request.amount request, _, claimed⟩

end FeeVault

end OverUnder.Contracts
