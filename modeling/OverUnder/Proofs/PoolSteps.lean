/-
Module: OverUnder.Proofs.PoolSteps
Purpose: What one call to the pool contract can do to its storage: nothing to the
  pools, seed one, trade in one, add to one or take from one.
Trusted boundary: none
Main exports: SameBooks, Seeds, Trades, Deposits, Withdraws, exec_cases, step_cases
-/
import OverUnder.Proofs.PoolQuotes

namespace OverUnder.Contracts.MarketAMM

open OverUnder.Vyper
open NormalMath (wad)

variable {site : AmmSite} {m next : Market} {msg : Msg} {c : Bytes32}

/-- Pools, shares and locks stay. -/
structure SameBooks (m next : Market) : Prop where
  pools : next.amm.pools = m.amm.pools
  lpBalance : next.amm.lpBalance = m.amm.lpBalance
  seedLocked : next.amm.seedLocked = m.amm.seedLocked

/-- `_seed`: the pool is new and all its shares go to the provider. -/
structure Seeds (m next : Market) (c : Bytes32) (provider : Address) (amount : Nat) :
    Prop where
  absent : (m.amm.pools c).exists = false
  enough : minLp ≤ amount
  pools : ∃ closeTime, next.amm.pools = Function.update m.amm.pools c {
    yesReserve := amount
    noReserve := amount
    lpSupply := amount
    «exists» := true
    liquidity := amount * wad / phi0
    lpFees := 0
    closeTime }
  lpBalance : next.amm.lpBalance = Function.update m.amm.lpBalance (c, provider) amount
  seedLocked : next.amm.seedLocked = Function.update m.amm.seedLocked (c, provider) amount

/-- `buyWithUSDC` or `sellToUSDC`: no share moves and no reserve is used up. -/
structure Trades (m next : Market) (c : Bytes32) : Prop where
  live : (m.amm.pools c).exists = true
  pools : ∃ yesReserve noReserve lpFees, next.amm.pools = Function.update m.amm.pools c
      { m.amm.pools c with yesReserve, noReserve, lpFees } ∧
    (0 < (m.amm.pools c).yesReserve → 0 < (m.amm.pools c).noReserve →
      0 < yesReserve ∧ 0 < noReserve)
  lpBalance : next.amm.lpBalance = m.amm.lpBalance
  seedLocked : next.amm.seedLocked = m.amm.seedLocked

/-- `addLiquidity`. -/
structure Deposits (m next : Market) (c : Bytes32) (account : Address)
    (usdcAmount minLpOut : Nat) : Prop where
  live : (m.amm.pools c).exists = true
  change : ∃ d, deposit (m.amm.pools c) usdcAmount minLpOut = .ok d ∧
    next.amm.pools = Function.update m.amm.pools c d.pool ∧
    next.amm.lpBalance = Function.update m.amm.lpBalance (c, account)
      (m.amm.lpBalance (c, account) + d.minted)
  seedLocked : next.amm.seedLocked = m.amm.seedLocked

/-- `removeLiquidity`: the lock of the account and the minimum supply are left over. -/
structure Withdraws (m next : Market) (c : Bytes32) (account : Address)
    (timestamp lpAmount : Nat) : Prop where
  live : (m.amm.pools c).exists = true
  covered : lpAmount ≤ m.amm.lpBalance (c, account)
  unlocked : lpLocked m c account timestamp (m.amm.pools c).closeTime ≤
    m.amm.lpBalance (c, account) - lpAmount
  minimum : lpAmount ≤ (m.amm.pools c).lpSupply ∧ minLp ≤ (m.amm.pools c).lpSupply - lpAmount
  change : ∃ d, withdrawal (m.amm.pools c) lpAmount = .ok d ∧
    next.amm.pools = Function.update m.amm.pools c d.pool
  lpBalance : next.amm.lpBalance = Function.update m.amm.lpBalance (c, account)
    (m.amm.lpBalance (c, account) - lpAmount)
  seedLocked : next.amm.seedLocked = m.amm.seedLocked

theorem seed_spec {provider : Address} {amount : Nat}
    (done : seed site m msg c amount provider = .ok next) : Seeds m next c provider amount := by
  simp only [seed, bind_ok, require_ok, mulDiv_ok, pure_ok, exists_const] at done
  rcases done with ⟨-, enough, -, absent, -, oracle, -, close, -, -, paid, -, split, -,
    liquidity, ⟨-, -, rfl⟩, rfl⟩
  exact ⟨Bool.eq_false_of_not_eq_true absent, enough, ⟨close, rfl⟩, rfl, rfl⟩

theorem buyWithUSDC_spec {buyYes : Bool} {usdcIn minOut out : Nat}
    (done : buyWithUSDC site m msg c buyYes usdcIn minOut = .ok (out, next)) :
    Trades m next c := by
  simp only [buyWithUSDC, bind_ok, require_ok, uadd_ok, usub_ok, pure_ok, Prod.mk.injEq,
    exists_const] at done
  rcases done with ⟨-, -, _, -, q, quoted, -, _, ⟨-, rfl⟩, _, ⟨-, rfl⟩, _, ⟨-, rfl⟩, t1, -, t2,
    -, t3, -, t4, -, rfl, rfl⟩
  rcases buyQuote_spec quoted with ⟨live, -, -, -, moved, positive, -⟩
  rcases buyReserves_spec moved with ⟨-, upper, -⟩
  refine ⟨live, ⟨_, _, _, rfl, fun yes no => ?_⟩, rfl, rfl⟩
  cases buyYes <;> simp [Pool.reserve, BuyQuote.reserve] at upper positive ⊢ <;> omega

theorem sellToUSDC_spec {sellYes : Bool} {tokenAmount minUsdc out : Nat}
    (done : sellToUSDC site m msg c sellYes tokenAmount minUsdc = .ok (out, next)) :
    Trades m next c := by
  simp only [sellToUSDC, bind_ok, require_ok, uadd_ok, pure_ok, Prod.mk.injEq,
    exists_const] at done
  rcases done with ⟨-, -, _, -, q, quoted, -, _, ⟨-, rfl⟩, t1, -, t2, -, t3, -, t4, -, rfl, rfl⟩
  rcases sellQuote_spec quoted with ⟨live, moved, -⟩
  rcases sellReserves_spec moved with
    ⟨-, _, _, _, sp, _, gw, _, -, -, -, -, -, -, room, sets, other, same⟩
  refine ⟨live, ⟨_, _, _, rfl, fun yes no => ?_⟩, rfl, rfl⟩
  -- the sets merged are at most the tokens sold and leave one unit above the curve
  cases sellYes <;> simp [Pool.reserve, SellQuote.reserve] at room sets other same ⊢ <;> omega

theorem addLiquidity_spec {usdcAmount minLpOut minted : Nat}
    (done : addLiquidity site m msg c usdcAmount minLpOut = .ok (minted, next)) :
    Deposits m next c msg.sender usdcAmount minLpOut := by
  simp only [addLiquidity, bind_ok, require_ok, credit_ok, pure_ok, Prod.mk.injEq,
    exists_const] at done
  rcases done with ⟨⟨live, -⟩, -, -, _, -, d, planned, _, ⟨-, rfl⟩, t1, -, t2, -, t3, -, t4, -,
    rfl, rfl⟩
  exact ⟨live, ⟨d, planned, rfl, rfl⟩, rfl⟩

theorem removeLiquidity_spec {lpAmount out : Nat}
    (done : removeLiquidity site m msg c lpAmount = .ok (out, next)) :
    Withdraws m next c msg.sender msg.timestamp lpAmount := by
  simp only [removeLiquidity, bind_ok, require_ok, uadd_ok, usub_ok, debit_ok, pure_ok,
    Prod.mk.injEq, exists_const] at done
  rcases done with ⟨live, ⟨-, covered⟩, _, ⟨-, rfl⟩, unlocked, _, ⟨burned, rfl⟩, minimum, d,
    planned, _, ⟨-, rfl⟩, t1, -, _, -, _, -, _, -, t2, -, t3, -, t4, -, rfl, rfl⟩
  exact ⟨live, covered, unlocked, ⟨burned, minimum⟩, ⟨d, planned, rfl⟩, rfl, rfl⟩

/-- The five things one call to the pool contract can do to its books. -/
theorem exec_cases {tx : Tx} (done : exec site m msg tx = .ok next) :
    SameBooks m next ∨ (∃ c provider amount, Seeds m next c provider amount) ∨
      (∃ c, Trades m next c) ∨
      (∃ c usdcAmount minLpOut, Deposits m next c msg.sender usdcAmount minLpOut) ∨
      ∃ c lpAmount, Withdraws m next c msg.sender msg.timestamp lpAmount := by
  cases tx with
  | setFactory factory =>
      simp only [exec, setFactory, bind_ok, require_ok, pure_ok, exists_const] at done
      rcases done with ⟨amm, ⟨-, rfl⟩, rfl⟩
      exact .inl ⟨rfl, rfl, rfl⟩
  | setCloseGate enabled =>
      simp only [exec, setCloseGate, bind_ok, require_ok, pure_ok, exists_const] at done
      rcases done with ⟨amm, ⟨-, rfl⟩, rfl⟩
      exact .inl ⟨rfl, rfl, rfl⟩
  | seedPool c usdcAmount => exact .inr (.inl ⟨c, _, _, seed_spec done⟩)
  | seedPoolFor c usdcAmount provider => exact .inr (.inl ⟨c, _, _, seed_spec done⟩)
  | buyWithUSDC c buyYes usdcIn minOut =>
      simp only [exec, bind_ok, pure_ok] at done
      rcases done with ⟨⟨out, m'⟩, done, rfl⟩
      exact .inr (.inr (.inl ⟨c, buyWithUSDC_spec done⟩))
  | sellToUSDC c sellYes tokenAmount minUsdc =>
      simp only [exec, bind_ok, pure_ok] at done
      rcases done with ⟨⟨out, m'⟩, done, rfl⟩
      exact .inr (.inr (.inl ⟨c, sellToUSDC_spec done⟩))
  | addLiquidity c usdcAmount minLpOut =>
      simp only [exec, bind_ok, pure_ok] at done
      rcases done with ⟨⟨minted, m'⟩, done, rfl⟩
      exact .inr (.inr (.inr (.inl ⟨c, usdcAmount, minLpOut, addLiquidity_spec done⟩)))
  | removeLiquidity c lpAmount =>
      simp only [exec, bind_ok, pure_ok] at done
      rcases done with ⟨⟨out, m'⟩, done, rfl⟩
      exact .inr (.inr (.inr (.inr ⟨c, lpAmount, removeLiquidity_spec done⟩)))

/-- The same for any call, a call to the tokens leaving the books alone. -/
theorem perform_cases {action : Market.Action} (done : Market.perform site m action = .ok next) :
    SameBooks m next ∨ (∃ c provider amount, Seeds m next c provider amount) ∨
      (∃ c, Trades m next c) ∨
      (∃ c usdcAmount minLpOut, Deposits m next c action.sender usdcAmount minLpOut) ∨
      ∃ msg tx c lpAmount, action = .amm msg tx ∧
        Withdraws m next c msg.sender msg.timestamp lpAmount := by
  cases action with
  | tokens sender tx =>
      simp only [Market.perform, bind_ok, pure_ok] at done
      rcases done with ⟨tokens, -, rfl⟩
      exact .inl ⟨rfl, rfl, rfl⟩
  | amm msg tx =>
      rcases exec_cases done with same | seeds | trades | deposits | ⟨c, lpAmount, withdraws⟩
      · exact .inl same
      · exact .inr (.inl seeds)
      · exact .inr (.inr (.inl trades))
      · exact .inr (.inr (.inr (.inl deposits)))
      · exact .inr (.inr (.inr (.inr ⟨msg, tx, c, lpAmount, rfl, withdraws⟩)))

end OverUnder.Contracts.MarketAMM
