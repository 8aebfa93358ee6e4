/-
Module: OverUnder.Proofs.PoolCalls
Purpose: The pool contract as a caller of the tokens. A relation that its external calls
  satisfy one by one holds between the tokens before and after an entry point.
Trusted boundary: none
Main exports: Carries, Carries.exec, Calls, calls_carries, conditions_carries,
  perform_calls
-/
import Mathlib
import OverUnder.Contracts.MarketAMM
import OverUnder.Proofs.OutcomeTokens

namespace OverUnder.Contracts.MarketAMM

open OverUnder.Vyper

variable {site : AmmSite} {m next : Market} {msg : Msg} {tokens after : Tokens}
variable {c : Bytes32} {account : Address}

/-- What every external call of an entry point called by `sender` satisfies. -/
structure Carries (site : AmmSite) (sender : Address) (R : Tokens → Tokens → Prop) : Prop where
  refl : ∀ t, R t t
  trans : ∀ {t u v}, R t u → R u v → R t v
  pullUsdc : ∀ {t u amount}, pullUsdc site t sender amount = .ok u → R t u
  sendUsdc : ∀ {t u recipient amount}, sendUsdc site t recipient amount = .ok u → R t u
  sendTokens : ∀ {t u recipient c yes amount},
    sendTokens site t recipient c yes amount = .ok u → R t u
  pullTokens : ∀ {t u c yes amount}, pullTokens site t sender c yes amount = .ok u → R t u
  splitPosition : ∀ {t u c amount}, splitPosition site t c amount = .ok u → R t u
  mergePositions : ∀ {t u c amount}, mergePositions site t c amount = .ok u → R t u

variable {R : Tokens → Tokens → Prop}

theorem Carries.callWhen (carries : Carries site account R) {guard : Prop} [Decidable guard]
    {call : Tokens → Call Tokens} (done : callWhen guard tokens call = .ok after)
    (on : call tokens = .ok after → R tokens after) : R tokens after := by
  unfold MarketAMM.callWhen at done
  split at done
  · exact on done
  · rw [pure_ok] at done
    rw [done]
    exact carries.refl _

theorem Carries.seed (carries : Carries site msg.sender R) {provider : Address}
    (done : seed site m msg c amount provider = .ok next) : R m.tokens next.tokens := by
  simp only [MarketAMM.seed, bind_ok, require_ok, pure_ok, exists_const] at done
  rcases done with ⟨-, -, -, -, -, oracle, -, close, -, -, paid, pulled, split, locked,
    liquidity, -, rfl⟩
  exact carries.trans (carries.pullUsdc pulled) (carries.splitPosition locked)

theorem Carries.buyWithUSDC (carries : Carries site msg.sender R) {buyYes : Bool}
    {usdcIn minOut out : Nat}
    (done : buyWithUSDC site m msg c buyYes usdcIn minOut = .ok (out, next)) :
    R m.tokens next.tokens := by
  simp only [MarketAMM.buyWithUSDC, bind_ok, require_ok, pure_ok, Prod.mk.injEq,
    exists_const] at done
  rcases done with ⟨-, -, _, -, q, -, -, _, -, _, -, _, -, t1, pulled, t2, vaulted, t3, split,
    t4, sent, rfl, rfl⟩
  have paid := carries.trans (carries.pullUsdc pulled) (carries.sendUsdc vaulted)
  exact carries.trans (carries.trans paid (carries.splitPosition split)) (carries.sendTokens sent)

theorem Carries.sellToUSDC (carries : Carries site msg.sender R) {sellYes : Bool}
    {tokenAmount minUsdc out : Nat}
    (done : sellToUSDC site m msg c sellYes tokenAmount minUsdc = .ok (out, next)) :
    R m.tokens next.tokens := by
  simp only [MarketAMM.sellToUSDC, bind_ok, require_ok, pure_ok, Prod.mk.injEq,
    exists_const] at done
  rcases done with ⟨-, -, _, -, q, -, -, _, -, t1, pulled, t2, merged, t3, vaulted, t4, paid,
    rfl, rfl⟩
  have sets := carries.trans (carries.pullTokens pulled) (carries.mergePositions merged)
  exact carries.trans (carries.trans sets (carries.sendUsdc vaulted)) (carries.sendUsdc paid)

theorem Carries.addLiquidity (carries : Carries site msg.sender R)
    {usdcAmount minLpOut minted : Nat}
    (done : addLiquidity site m msg c usdcAmount minLpOut = .ok (minted, next)) :
    R m.tokens next.tokens := by
  simp only [MarketAMM.addLiquidity, bind_ok, require_ok, pure_ok, Prod.mk.injEq,
    exists_const] at done
  rcases done with ⟨-, -, -, _, -, d, -, _, -, t1, pulled, t2, split, t3, long, t4, short, rfl,
    rfl⟩
  have sets := carries.trans (carries.pullUsdc pulled) (carries.splitPosition split)
  have legs := carries.trans sets (carries.callWhen long carries.sendTokens)
  exact carries.trans legs (carries.callWhen short carries.sendTokens)

theorem Carries.removeLiquidity (carries : Carries site msg.sender R) {lpAmount out : Nat}
    (done : removeLiquidity site m msg c lpAmount = .ok (out, next)) :
    R m.tokens next.tokens := by
  simp only [MarketAMM.removeLiquidity, bind_ok, require_ok, pure_ok, Prod.mk.injEq,
    exists_const] at done
  rcases done with ⟨-, -, _, -, -, _, -, -, d, -, _, -, t1, merged, _, -, _, -, _, -, t2, long,
    t3, short, t4, cashed, rfl, rfl⟩
  have sets := carries.trans (carries.callWhen merged carries.mergePositions)
    (carries.callWhen long carries.sendTokens)
  have legs := carries.trans sets (carries.callWhen short carries.sendTokens)
  exact carries.trans legs (carries.callWhen cashed carries.sendUsdc)

/-- The pool contract acts on the tokens only through these calls. -/
theorem Carries.exec (carries : Carries site msg.sender R) {tx : Tx}
    (done : exec site m msg tx = .ok next) : R m.tokens next.tokens := by
  cases tx with
  | setFactory factory =>
      simp only [MarketAMM.exec, bind_ok, pure_ok] at done
      rcases done with ⟨amm, -, rfl⟩
      exact carries.refl _
  | setCloseGate enabled =>
      simp only [MarketAMM.exec, bind_ok, pure_ok] at done
      rcases done with ⟨amm, -, rfl⟩
      exact carries.refl _
  | seedPool c usdcAmount => exact carries.seed done
  | seedPoolFor c usdcAmount provider => exact carries.seed done
  | buyWithUSDC c buyYes usdcIn minOut =>
      simp only [MarketAMM.exec, bind_ok, pure_ok] at done
      rcases done with ⟨⟨out, m'⟩, done, rfl⟩
      exact carries.buyWithUSDC done
  | sellToUSDC c sellYes tokenAmount minUsdc =>
      simp only [MarketAMM.exec, bind_ok, pure_ok] at done
      rcases done with ⟨⟨out, m'⟩, done, rfl⟩
      exact carries.sellToUSDC done
  | addLiquidity c usdcAmount minLpOut =>
      simp only [MarketAMM.exec, bind_ok, pure_ok] at done
      rcases done with ⟨⟨minted, m'⟩, done, rfl⟩
      exact carries.addLiquidity done
  | removeLiquidity c lpAmount =>
      simp only [MarketAMM.exec, bind_ok, pure_ok] at done
      rcases done with ⟨⟨out, m'⟩, done, rfl⟩
      exact carries.removeLiquidity done

/-- Calls to the token contracts, one after the other. -/
abbrev Calls (site : AmmSite) : Tokens → Tokens → Prop :=
  Relation.ReflTransGen (Tokens.Step site.ctf)

/-- Each external call is a call of the token contracts by the pool contract. -/
theorem calls_carries (site : AmmSite) (sender : Address) : Carries site sender (Calls site) where
  refl _ := .refl
  trans first second := first.trans second
  pullUsdc {_ _ amount} done :=
    .single ⟨site.self, .usdc (.transferFrom sender site.self amount), site.apart, done⟩
  sendUsdc {_ _ recipient amount} done :=
    .single ⟨site.self, .usdc (.transfer recipient amount), site.apart, done⟩
  sendTokens {_ _ recipient c yes amount} done :=
    .single ⟨site.self, .ctf (.safeTransferFrom site.self recipient (pid site c yes) amount),
      site.apart, done⟩
  pullTokens {_ _ c yes amount} done :=
    .single ⟨site.self, .ctf (.safeTransferFrom sender site.self (pid site c yes) amount),
      site.apart, done⟩
  splitPosition {_ _ c amount} done :=
    .single ⟨site.self, .ctf (.splitPosition c amount), site.apart, done⟩
  mergePositions {_ _ c amount} done :=
    .single ⟨site.self, .ctf (.mergePositions c amount), site.apart, done⟩

/-- A call of the pool contract leaves every condition as it is. -/
theorem conditions_carries (site : AmmSite) (sender : Address) :
    Carries site sender fun t u =>
      ConditionalTokens.SameConditions t.ctf u.ctf where
  refl _ := ⟨rfl, rfl, rfl, rfl⟩
  trans first second :=
    ⟨second.outcomeSlots.trans first.outcomeSlots, second.oracles.trans first.oracles,
      second.payoutDenominator.trans first.payoutDenominator,
      second.payoutNumerators.trans first.payoutNumerators⟩
  pullUsdc done := by
    simp only [pullUsdc, bind_ok, pure_ok] at done
    rcases done with ⟨usdc, -, rfl⟩
    exact ⟨rfl, rfl, rfl, rfl⟩
  sendUsdc done := by
    simp only [sendUsdc, bind_ok, pure_ok] at done
    rcases done with ⟨usdc, -, rfl⟩
    exact ⟨rfl, rfl, rfl, rfl⟩
  sendTokens done := by
    simp only [sendTokens, bind_ok, pure_ok] at done
    rcases done with ⟨ctf, done, rfl⟩
    exact .of_balances (ConditionalTokens.safeTransferFrom_spec done).2.2
  pullTokens done := by
    simp only [pullTokens, bind_ok, pure_ok] at done
    rcases done with ⟨ctf, done, rfl⟩
    exact .of_balances (ConditionalTokens.safeTransferFrom_spec done).2.2
  splitPosition done := .of_balances (ConditionalTokens.splitPosition_spec done).2.2.2.2
  mergePositions done := .of_balances (ConditionalTokens.mergePositions_spec done).2.2.2

/-- A resolution is final. -/
theorem calls_stay_resolved (called : Calls site tokens after)
    (resolved : tokens.ctf.isResolved c = true) : after.ctf.isResolved c = true := by
  induction called with
  | refl => exact resolved
  | tail _ taken ih =>
      rcases taken with ⟨sender, tx, -, done⟩
      cases tx with
      | usdc tx =>
          simp only [Tokens.exec, bind_ok, pure_ok] at done
          rcases done with ⟨usdc, -, rfl⟩
          exact ih
      | ctf tx =>
          simp only [ConditionalTokens.isResolved, decide_eq_true_eq] at ih ⊢
          rw [(ConditionalTokens.exec_keeps_payouts (Nat.ne_of_gt ih) done).1]
          exact ih

theorem perform_calls {action : Market.Action} (outsider : action.External site)
    (done : Market.perform site m action = .ok next) : Calls site m.tokens next.tokens := by
  cases action with
  | amm msg tx => exact (calls_carries site msg.sender).exec done
  | tokens sender tx =>
      simp only [Market.perform, bind_ok, pure_ok] at done
      rcases done with ⟨tokens, done, rfl⟩
      exact .single ⟨sender, tx, outsider.2, done⟩

end OverUnder.Contracts.MarketAMM
