/-
Module: OverUnder.Proofs.CloseTimes
Purpose: The closing time of a market is the same in the factory's row, in the oracle and in
  the pool, never changes, and ends trading before the first attestation.
Trusted boundary: none
Main exports: PoolsClosed, Listed, Platform.OneOracle, Platform.Action.creates, Closing,
  close_times_agree
-/
import OverUnder.Library.Reachable
import OverUnder.Proofs.FactoryRows
import OverUnder.Proofs.MarketCreation

namespace OverUnder.Contracts

open OverUnder.Vyper
open OverUnder.Library

namespace MarketAMM

variable {site : AmmSite} {m next : Market} {msg : Msg} {c : Bytes32}

/-- A pool that is there stays with its closing time. -/
structure SameClock (p q : Pool) : Prop where
  stays : q.exists = p.exists
  closeTime : q.closeTime = p.closeTime

/-- A pool opens with the closing time the factory's oracle answers. -/
structure Opens (m next : Market) (msg : Msg) (c : Bytes32) : Prop where
  clock : ∃ oracle close, m.amm.factory ≠ zeroAddress ∧
    msg.factoryOracle m.amm.factory = .ok oracle ∧ msg.oracleCloseTime oracle c = .ok close ∧
    0 < close ∧ (next.amm.pools c).closeTime = close

theorem seed_opens {c' : Bytes32} {amount : Nat} {provider : Address}
    (done : seed site m msg c' amount provider = .ok next) (c : Bytes32) :
    SameClock (m.amm.pools c) (next.amm.pools c) ∨
      (m.amm.pools c).exists = false ∧ Opens m next msg c := by
  simp only [seed, bind_ok, require_ok, pure_ok, exists_const] at done
  rcases done with ⟨-, -, -, absent, named, oracle, answered, close, closes, positive, _, -, _, -,
    _, -, rfl⟩
  by_cases here : c = c'
  · subst here
    refine .inr ⟨Bool.eq_false_of_not_eq_true absent, ⟨oracle, close, named, answered, closes,
      positive, ?_⟩⟩
    simp only [setPool, Function.update_self]
  · have same := Function.update_of_ne (f := m.amm.pools) here
    exact .inl ⟨congrArg Pool.exists (same _), congrArg Pool.closeTime (same _)⟩

/-- What one call does to the closing time of a pool. -/
theorem exec_clocks {tx : Tx} (done : exec site m msg tx = .ok next) (c : Bytes32) :
    SameClock (m.amm.pools c) (next.amm.pools c) ∨
      (m.amm.pools c).exists = false ∧ Opens m next msg c := by
  have updated : ∀ c' p, next.amm.pools = Function.update m.amm.pools c' p →
      SameClock (m.amm.pools c') p → SameClock (m.amm.pools c) (next.amm.pools c) := by
    intro c' p pools same
    rw [pools]
    by_cases here : c = c'
    · rw [here, Function.update_self]
      exact same
    · rw [Function.update_of_ne here]
      exact ⟨rfl, rfl⟩
  have traded : ∀ c', Trades m next c' → SameClock (m.amm.pools c) (next.amm.pools c) := by
    intro c' trades
    rcases trades.pools with ⟨yes, no, fees, pools, -⟩
    exact updated c' _ pools ⟨rfl, rfl⟩
  cases tx with
  | setFactory factory =>
      simp only [exec, setFactory, bind_ok, require_ok, pure_ok, exists_const] at done
      rcases done with ⟨amm, ⟨-, rfl⟩, rfl⟩
      exact .inl ⟨rfl, rfl⟩
  | setCloseGate enabled =>
      simp only [exec, setCloseGate, bind_ok, require_ok, pure_ok, exists_const] at done
      rcases done with ⟨amm, ⟨-, rfl⟩, rfl⟩
      exact .inl ⟨rfl, rfl⟩
  | seedPool c' usdcAmount => exact seed_opens done c
  | seedPoolFor c' usdcAmount provider => exact seed_opens done c
  | buyWithUSDC c' buyYes usdcIn minOut =>
      simp only [exec, bind_ok, pure_ok] at done
      rcases done with ⟨⟨out, m'⟩, done, rfl⟩
      exact .inl (traded c' (buyWithUSDC_spec done))
  | sellToUSDC c' sellYes tokenAmount minUsdc =>
      simp only [exec, bind_ok, pure_ok] at done
      rcases done with ⟨⟨out, m'⟩, done, rfl⟩
      exact .inl (traded c' (sellToUSDC_spec done))
  | addLiquidity c' usdcAmount minLpOut =>
      simp only [exec, bind_ok, pure_ok] at done
      rcases done with ⟨⟨minted, m'⟩, done, rfl⟩
      rcases (addLiquidity_spec done).change with ⟨d, planned, pools, -⟩
      rcases deposit_spec planned with ⟨denom, -, -, -, -, -, -, -, -, -, pool⟩
      exact .inl (updated c' _ pools (by rw [pool]; exact ⟨rfl, rfl⟩))
  | removeLiquidity c' lpAmount =>
      simp only [exec, bind_ok, pure_ok] at done
      rcases done with ⟨⟨out, m'⟩, done, rfl⟩
      rcases (removeLiquidity_spec done).change with ⟨d, planned, pools⟩
      rcases withdrawal_spec planned with ⟨-, -, -, -, -, -, -, -, pool⟩
      exact .inl (updated c' _ pools (by rw [pool]; exact ⟨rfl, rfl⟩))

theorem exec_factory {tx : Tx} (done : exec site m msg tx = .ok next) :
    next.amm.factory = m.amm.factory ∨ tx = .setFactory next.amm.factory := by
  cases tx with
  | setFactory factory =>
      simp only [exec, setFactory, bind_ok, require_ok, pure_ok, exists_const] at done
      rcases done with ⟨amm, ⟨-, rfl⟩, rfl⟩
      exact .inr rfl
  | setCloseGate enabled =>
      simp only [exec, setCloseGate, bind_ok, require_ok, pure_ok, exists_const] at done
      rcases done with ⟨amm, ⟨-, rfl⟩, rfl⟩
      exact .inl rfl
  | seedPool c usdcAmount =>
      simp only [exec, seedPool, seed, bind_ok, require_ok, pure_ok, exists_const] at done
      rcases done with ⟨-, -, -, -, -, _, -, _, -, -, _, -, _, -, _, -, rfl⟩
      exact .inl rfl
  | seedPoolFor c usdcAmount provider =>
      simp only [exec, seedPoolFor, seed, bind_ok, require_ok, pure_ok, exists_const] at done
      rcases done with ⟨-, -, -, -, -, _, -, _, -, -, _, -, _, -, _, -, rfl⟩
      exact .inl rfl
  | buyWithUSDC c buyYes usdcIn minOut =>
      simp only [exec, buyWithUSDC, bind_ok, require_ok, pure_ok, exists_const] at done
      rcases done with ⟨_, ⟨-, -, _, -, _, -, -, _, -, _, -, _, -, _, -, _, -, _, -, _, -, rfl⟩,
        rfl⟩
      exact .inl rfl
  | sellToUSDC c sellYes tokenAmount minUsdc =>
      simp only [exec, sellToUSDC, bind_ok, require_ok, pure_ok, exists_const] at done
      rcases done with ⟨_, ⟨-, -, _, -, _, -, -, _, -, _, -, _, -, _, -, _, -, rfl⟩, rfl⟩
      exact .inl rfl
  | addLiquidity c usdcAmount minLpOut =>
      simp only [exec, addLiquidity, bind_ok, require_ok, pure_ok, exists_const] at done
      rcases done with ⟨_, ⟨-, -, -, _, -, _, -, _, -, _, -, _, -, _, -, _, -, rfl⟩, rfl⟩
      exact .inl rfl
  | removeLiquidity c lpAmount =>
      simp only [exec, removeLiquidity, bind_ok, require_ok, pure_ok, exists_const] at done
      rcases done with ⟨_, ⟨-, -, _, -, -, _, -, -, _, -, _, -, _, -, _, -, _, -, _, -, _, -,
        _, -, _, -, rfl⟩, rfl⟩
      exact .inl rfl

/-- The condition a call trades on or deposits in. -/
def Tx.trades : Tx → Option Bytes32
  | .buyWithUSDC c _ _ _ => some c
  | .sellToUSDC c _ _ _ => some c
  | .addLiquidity c _ _ => some c
  | _ => none

/-- An open market is before its closing time. -/
theorem assertOpen_before {amm : MarketAMM} {timestamp closeTime : Nat} {u : Unit}
    (gated : amm.closeGate = true) (positive : 0 < closeTime)
    (done : assertOpen amm timestamp closeTime = .ok u) : timestamp < closeTime := by
  unfold assertOpen at done
  rw [if_pos ⟨gated, Nat.ne_of_gt positive⟩, require_ok] at done
  exact done

/-- A trade or a deposit that goes through is on a pool that is still open. -/
theorem exec_trades {tx : Tx} (trades : tx.trades = some c)
    (done : exec site m msg tx = .ok next) :
    (m.amm.pools c).exists = true ∧
      ∃ u, assertOpen m.amm msg.timestamp (m.amm.pools c).closeTime = .ok u := by
  cases tx with
  | buyWithUSDC c' buyYes usdcIn minOut =>
      simp only [Tx.trades, Option.some.injEq] at trades
      subst trades
      simp only [exec, bind_ok, pure_ok] at done
      rcases done with ⟨⟨out, m'⟩, done, rfl⟩
      have live := (buyWithUSDC_spec done).live
      simp only [buyWithUSDC, bind_ok, require_ok, exists_const] at done
      rcases done with ⟨-, -, u, opened, -⟩
      exact ⟨live, u, opened⟩
  | sellToUSDC c' sellYes tokenAmount minUsdc =>
      simp only [Tx.trades, Option.some.injEq] at trades
      subst trades
      simp only [exec, bind_ok, pure_ok] at done
      rcases done with ⟨⟨out, m'⟩, done, rfl⟩
      have live := (sellToUSDC_spec done).live
      simp only [sellToUSDC, bind_ok, require_ok, exists_const] at done
      rcases done with ⟨-, -, u, opened, -⟩
      exact ⟨live, u, opened⟩
  | addLiquidity c' usdcAmount minLpOut =>
      simp only [Tx.trades, Option.some.injEq] at trades
      subst trades
      simp only [exec, bind_ok, pure_ok] at done
      rcases done with ⟨⟨minted, m'⟩, done, rfl⟩
      have live := (addLiquidity_spec done).live
      simp only [addLiquidity, bind_ok, require_ok, exists_const] at done
      rcases done with ⟨-, -, -, u, opened, -⟩
      exact ⟨live, u, opened⟩
  | _ => cases trades

end MarketAMM

namespace ConsensusOracle

variable {site : OracleSite} {w next : Court} {sender : Address} {timestamp : Nat}

/-- A registered closing time stays. -/
theorem exec_keeps_closeTime {tx : Tx} (done : exec site w sender timestamp tx = .ok next)
    {c : Bytes32} (registered : w.oracle.closeTime c ≠ 0) :
    next.oracle.closeTime c = w.oracle.closeTime c := by
  cases tx with
  | setFactory factory =>
      simp only [exec, setFactory, bind_ok, require_ok, pure_ok, exists_const] at done
      rcases done with ⟨oracle, ⟨-, rfl⟩, rfl⟩
      rfl
  | registerMarket c' closeTime =>
      simp only [exec, registerMarket, bind_ok, require_ok, pure_ok, exists_const] at done
      rcases done with ⟨oracle, ⟨-, -, unregistered, rfl⟩, rfl⟩
      have other : c ≠ c' := by
        rintro rfl
        exact registered unregistered
      exact Function.update_of_ne other _ _
  | submitAttestation c' outcome evidenceHash deadline sig =>
      simp only [exec, submitAttestation, bind_ok, require_ok, pure_ok, exists_const] at done
      rcases done with ⟨oracle, ⟨-, -, agent, -, recorded⟩, rfl⟩
      exact congrFun (record_registry recorded).closeTime c
  | submitConsensus c' outcome evidenceHash deadline sigs =>
      simp only [exec, submitConsensus, bind_ok, require_ok, exists_const] at done
      rcases done with ⟨-, -, -, oracle, recorded, resolved⟩
      exact congrFun ((recordAll_registry recorded).trans (resolve_registry resolved)).closeTime c
  | castVote c' outcome =>
      simp only [exec, castVote, bind_ok, require_ok, pure_ok, exists_const] at done
      rcases done with ⟨-, -, -, -, -, _, -, -, weights, -, rfl⟩
      rfl
  | resolveFallback c' =>
      simp only [exec, resolveFallback, bind_ok, require_ok, exists_const] at done
      rcases done with ⟨-, _, -, -, done⟩
      split at done
      · cases done
      · simp only [bind_ok] at done
        rcases done with ⟨_, -, resolved⟩
        exact congrFun (resolve_registry resolved).closeTime c
  | resolveArbitrated c' outcome =>
      simp only [exec, resolveArbitrated, bind_ok, require_ok, exists_const] at done
      rcases done with ⟨-, -, -, _, -, -, resolved⟩
      exact congrFun (resolve_registry resolved).closeTime c

/-- The condition a call attests. -/
def Tx.attests : Tx → Option Bytes32
  | .submitAttestation c _ _ _ _ => some c
  | .submitConsensus c _ _ _ _ => some c
  | _ => none

/-- An attestation is accepted from the closing time on. -/
theorem exec_attests_after {tx : Tx} {c : Bytes32} (attests : tx.attests = some c)
    (done : exec site w sender timestamp tx = .ok next) : w.oracle.closeTime c ≤ timestamp := by
  cases tx with
  | submitAttestation c' outcome evidenceHash deadline sig =>
      simp only [Tx.attests, Option.some.injEq] at attests
      subst attests
      simp only [exec, submitAttestation, bind_ok, require_ok, exists_const] at done
      rcases done with ⟨oracle, ⟨closed, -⟩, -⟩
      exact closed
  | submitConsensus c' outcome evidenceHash deadline sigs =>
      simp only [Tx.attests, Option.some.injEq] at attests
      subst attests
      simp only [exec, submitConsensus, bind_ok, require_ok, exists_const] at done
      exact done.1
  | _ => cases attests

end ConsensusOracle

/-! ### The platform's clocks -/

open MarketFactory (Lists RowsChange Frame Created Fund perform_rows importRows_row)

variable {site : PlatformSite} {w w' next : Platform} {action : Platform.Action}
variable {sender : Address} {timestamp : Nat} {c cid : Bytes32}

/-- Every pool closes when the oracle says, and its factory is one of that oracle. -/
structure PoolsClosed (site : PlatformSite) (w : Platform) : Prop where
  factory : w.amm.factory = zeroAddress ∨ w.amm.factory = site.factory ∨
    site.foreignFactory w.amm.factory = .ok site.oracle.self
  pools : ∀ c, (w.amm.pools c).exists = true →
    (w.amm.pools c).closeTime = w.oracle.closeTime c ∧ 0 < w.oracle.closeTime c

/-- A closing time, once there, stays; and so does a pool with its closing time. -/
structure SameClocks (w next : Platform) : Prop where
  oracle : ∀ c, w.oracle.closeTime c ≠ 0 → next.oracle.closeTime c = w.oracle.closeTime c
  pools : ∀ c, (w.amm.pools c).exists = true →
    (next.amm.pools c).exists = true ∧ (next.amm.pools c).closeTime = (w.amm.pools c).closeTime

theorem SameClocks.refl (w : Platform) : SameClocks w w :=
  ⟨fun _ _ => rfl, fun _ present => ⟨present, rfl⟩⟩

theorem SameClocks.trans {w1 w2 w3 : Platform} (first : SameClocks w1 w2)
    (second : SameClocks w2 w3) : SameClocks w1 w3 := by
  refine ⟨fun c registered => ?_, fun c present => ?_⟩
  · have same := first.oracle c registered
    exact (second.oracle c (same ▸ registered)).trans same
  · rcases first.pools c present with ⟨still, same⟩
    rcases second.pools c still with ⟨stays, again⟩
    exact ⟨stays, again.trans same⟩

/-- A call of the pool contract from a state where all is closed as the oracle says. -/
theorem PoolsClosed.amm {tx : MarketAMM.Tx} {m : Market} {usdc : MockUSDC}
    (inv : PoolsClosed site w)
    (chosen : ∀ a, tx = .setFactory a → a = site.factory ∨
      site.foreignFactory a = .ok site.oracle.self)
    (done : MarketAMM.exec site.ammSite ⟨{ w.tokens with usdc }, w.amm⟩
      (site.msg w sender timestamp) tx = .ok m) :
    PoolsClosed site { w with tokens := m.tokens, amm := m.amm } ∧
      SameClocks w { w with tokens := m.tokens, amm := m.amm } := by
  have clocks := MarketAMM.exec_clocks done
  refine ⟨⟨?_, fun c present => ?_⟩, fun _ _ => rfl, fun c present => ?_⟩
  · rcases MarketAMM.exec_factory done with same | set
    · rw [same]
      exact inv.factory
    · exact .inr (chosen _ set)
  · rcases clocks c with same | ⟨-, oracle, close, named, answered, closes, positive, equal⟩
    · rcases inv.pools c (same.stays.symm.trans present) with ⟨agree, positive⟩
      exact ⟨same.closeTime.trans agree, positive⟩
    · -- The oracle asked is this one, whichever factory is set.
      have here : oracle = site.oracle.self := by
        rcases inv.factory with none | own | foreign
        · exact absurd none named
        · simp only [PlatformSite.msg, own, if_true, Except.ok.injEq] at answered
          exact answered.symm
        · simp only [PlatformSite.msg] at answered
          split at answered
          · exact (Except.ok.inj answered).symm
          · rw [foreign] at answered
            exact (Except.ok.inj answered).symm
      rw [here] at closes
      simp only [PlatformSite.msg, if_true, Except.ok.injEq] at closes
      rw [closes]
      exact ⟨equal, positive⟩
  · rcases clocks c with same | ⟨absent, -⟩
    · exact ⟨same.stays.trans present, same.closeTime⟩
    · rw [absent] at present
      cases present

/-- Neither the tokens nor the books of the factory matter. -/
theorem PoolsClosed.of_same (inv : PoolsClosed site w) (amm : next.amm = w.amm)
    (oracle : next.oracle = w.oracle) : PoolsClosed site next ∧ SameClocks w next := by
  refine ⟨⟨?_, fun c present => ?_⟩, fun c _ => ?_, fun c present => ?_⟩
  · rw [amm]
    exact inv.factory
  · rw [amm] at present ⊢
    rw [oracle]
    exact inv.pools c present
  · rw [oracle]
  · rw [amm]
    exact ⟨present, rfl⟩

/-- The oracle may register further markets. -/
theorem PoolsClosed.of_oracle (inv : PoolsClosed site w) (amm : next.amm = w.amm)
    (kept : ∀ c, w.oracle.closeTime c ≠ 0 → next.oracle.closeTime c = w.oracle.closeTime c) :
    PoolsClosed site next ∧ SameClocks w next := by
  refine ⟨⟨?_, fun c present => ?_⟩, kept, fun c present => ?_⟩
  · rw [amm]
    exact inv.factory
  · rw [amm] at present ⊢
    rcases inv.pools c present with ⟨agree, positive⟩
    rw [kept c (Nat.ne_of_gt positive)]
    exact ⟨agree, positive⟩
  · rw [amm]
    exact ⟨present, rfl⟩

theorem PoolsClosed.fund (inv : PoolsClosed site w) (funded : Fund site sender timestamp cid w next) :
    PoolsClosed site next ∧ SameClocks w next := by
  cases funded with
  | books same => exact inv.of_same rfl rfl
  | pull done =>
      simp only [MarketFactory.pull, bind_ok, pure_ok] at done
      rcases done with ⟨usdc, -, rfl⟩
      exact inv.of_same rfl rfl
  | payFee done =>
      unfold MarketFactory.payFee at done
      split at done
      · simp only [bind_ok, pure_ok] at done
        rcases done with ⟨usdc, -, rfl⟩
        exact inv.of_same rfl rfl
      · rw [pure_ok] at done
        rw [done]
        exact inv.of_same rfl rfl
  | @seed _ amount done =>
      rcases MarketFactory.seed_parts done with ⟨m, seeded, rfl⟩
      have call : MarketAMM.exec site.ammSite
          ⟨{ w.tokens with usdc := w.tokens.usdc.approve site.factory site.amm amount }, w.amm⟩
          (site.msg w site.factory timestamp) (.seedPoolFor cid amount sender) = .ok m := seeded
      exact inv.amm (by rintro _ ⟨⟩) call

/-- The calls that set a factory of the pools name one of this oracle. -/
def Platform.OneOracle (site : PlatformSite) (action : Platform.Action) : Prop :=
  ∀ a, action.tx = .amm (.setFactory a) → a = site.factory ∨
    site.foreignFactory a = .ok site.oracle.self

theorem PoolsClosed.step (inv : PoolsClosed site w) (one : Platform.OneOracle site action)
    (done : Platform.perform site w action = .ok next) :
    PoolsClosed site next ∧ SameClocks w next := by
  rcases action with ⟨sender, timestamp, tx⟩
  cases tx with
  | tokens tx =>
      simp only [Platform.perform, bind_ok, pure_ok] at done
      rcases done with ⟨tokens, -, rfl⟩
      exact inv.of_same rfl rfl
  | amm tx =>
      simp only [Platform.perform, bind_ok, pure_ok] at done
      rcases done with ⟨m, done, rfl⟩
      exact inv.amm (fun a set => one a (congrArg Platform.Tx.amm set)) done
  | oracle tx =>
      simp only [Platform.perform, bind_ok, pure_ok] at done
      rcases done with ⟨court, done, rfl⟩
      exact inv.of_oracle rfl fun c registered =>
        ConsensusOracle.exec_keeps_closeTime done registered
  | factory tx =>
      rcases MarketFactory.exec_launches done with
        ⟨questionId, -, launched⟩ | ⟨-, -, factory, rfl, -⟩
      · rcases launched.parts with ⟨factory, closeTime, w1, -, -, created, funded⟩
        have start : PoolsClosed site w1 ∧ SameClocks w w1 := by
          refine inv.of_oracle created.amm fun c registered => ?_
          have other : c ≠ site.ctf.hashes.conditionId site.oracle.self questionId := by
            rintro rfl
            exact registered created.unregistered
          rw [created.oracle]
          exact Function.update_of_ne other _ _
        clear launched done
        induction funded with
        | refl => exact start
        | tail _ step ih =>
            rcases ih.1.fund step with ⟨closed, same⟩
            exact ⟨closed, ih.2.trans same⟩
      · exact inv.of_same rfl rfl

/-! ### Listed conditions -/

/-- The condition a call to the factory creates a market for. -/
def Platform.Action.creates (site : PlatformSite) (action : Platform.Action) : Option Bytes32 :=
  match action.tx with
  | .factory tx =>
      (tx.questionId site action.sender).map (site.ctf.hashes.conditionId site.oracle.self)
  | _ => none

/-- The factory has a row that closes when the oracle says. -/
structure Listed (w : Platform) (c : Bytes32) : Prop where
  present : w.factory.marketExists c = true
  prepared : w.tokens.ctf.outcomeSlots c ≠ 0
  agree : (w.factory.markets c).closeTime = w.oracle.closeTime c
  positive : 0 < w.oracle.closeTime c

/-- A call that creates the market lists it. -/
theorem listed_of_creates (creates : action.creates site = some c)
    (done : Platform.perform site w action = .ok next) : Listed next c := by
  rcases action with ⟨sender, timestamp, tx⟩
  cases tx with
  | factory tx =>
      simp only [Platform.Action.creates, Option.map_eq_some_iff] at creates
      rcases creates with ⟨questionId, asked, rfl⟩
      cases MarketFactory.exec_rows done with
      | @lists questionId' row asked' listed parent type =>
          rw [asked, Option.some.injEq] at asked'
          subst asked'
          refine ⟨?_, ?_, ?_, ?_⟩
          · rw [listed.marketExists, Function.update_self]
          · rw [listed.prepared]
            decide
          · rw [listed.markets, listed.registered, Function.update_self, Function.update_self]
          · rw [listed.registered, Function.update_self]
            exact Nat.zero_lt_of_lt listed.later
      | settings unasked books rows =>
          rw [asked] at unasked
          cases unasked
      | imports call books rows =>
          subst call
          cases asked
      | pauses call books =>
          subst call
          cases asked
  | _ => cases creates

/-- Nothing changes the closing time of a listed condition. -/
theorem Listed.step (inv : Listed w c) (closed : PoolsClosed site w)
    (one : Platform.OneOracle site action) (step : Platform.Step site w action next) :
    Listed next c ∧ (next.factory.markets c).closeTime = (w.factory.markets c).closeTime := by
  have slots : next.tokens.ctf.outcomeSlots c ≠ 0 := by
    rw [step_slots step c]
    split
    · decide
    · exact inv.prepared
  rcases closed.step one step.done with ⟨-, same⟩
  have oracle := same.oracle c (Nat.ne_of_gt inv.positive)
  have rows : next.factory.marketExists c = true ∧
      (next.factory.markets c).closeTime = (w.factory.markets c).closeTime := by
    rcases perform_rows step.done with same | ⟨tx, -, change⟩
    · rw [same]
      exact ⟨inv.present, rfl⟩
    cases change with
    | @lists questionId row asked listed parent type =>
        have other : c ≠ site.ctf.hashes.conditionId site.oracle.self questionId := by
          rintro rfl
          exact inv.prepared listed.fresh
        rw [listed.marketExists, listed.markets, Function.update_of_ne other,
          Function.update_of_ne other]
        exact ⟨inv.present, rfl⟩
    | settings unasked books rows =>
        rw [books, rows.marketExists, rows.markets]
        exact ⟨inv.present, rfl⟩
    | imports call books rows =>
        rcases (importRows_row rows c).1 inv.present with ⟨still, same⟩
        rw [books, same]
        exact ⟨still, rfl⟩
    | @pauses conditionId paused call books =>
        rw [books]
        refine ⟨inv.present, ?_⟩
        simp only [MarketFactory.flag]
        by_cases here : c = conditionId
        · rw [here, Function.update_self]
        · rw [Function.update_of_ne here]
  refine ⟨⟨rows.1, slots, ?_, ?_⟩, rows.2⟩
  · rw [rows.2, oracle]
    exact inv.agree
  · rw [oracle]
    exact inv.positive

/-! ### Closing times over a run -/

/-- A call that does not revert, with what other factories and oracles answer in it, where
every factory of the pools is one of this oracle. -/
structure Platform.Clocked (addresses : PlatformSite) (w : Platform)
    (label : PlatformSite × Platform.Action) (next : Platform) : Prop where
  same : label.1.oracle = addresses.oracle ∧ label.1.amm = addresses.amm ∧
    label.1.factory = addresses.factory ∧ label.1.userQuestionId = addresses.userQuestionId ∧
    label.1.foreignFactory = addresses.foreignFactory
  one : Platform.OneOracle addresses label.2
  step : Platform.Step label.1 w label.2 next

variable {addresses : PlatformSite} {label : PlatformSite × Platform.Action}
variable {calls more : List (PlatformSite × Platform.Action)}

theorem Platform.Clocked.closed (inv : PoolsClosed addresses w)
    (taken : Platform.Clocked addresses w label next) :
    PoolsClosed addresses next ∧ SameClocks w next := by
  rcases label with ⟨site, action⟩
  rcases taken with ⟨⟨oracle, -, factory, -, foreign⟩, one, step⟩
  dsimp only at oracle factory foreign one step
  have here : PoolsClosed site w := by
    refine ⟨?_, inv.pools⟩
    rw [factory, foreign, oracle]
    exact inv.factory
  have chosen : Platform.OneOracle site action := by
    intro a set
    rw [factory, foreign, oracle]
    exact one a set
  rcases here.step chosen step.done with ⟨after, same⟩
  refine ⟨⟨?_, after.pools⟩, same⟩
  have still := after.factory
  rw [factory, foreign, oracle] at still
  exact still

theorem Platform.Clocked.listed (closed : PoolsClosed addresses w)
    (taken : Platform.Clocked addresses w label next) :
    (label.2.creates addresses = some c → Listed next c) ∧
      (Listed w c → Listed next c ∧
        (next.factory.markets c).closeTime = (w.factory.markets c).closeTime) := by
  rcases label with ⟨site, action⟩
  rcases taken with ⟨⟨oracle, -, factory, question, foreign⟩, one, step⟩
  dsimp only at oracle factory question foreign one step
  constructor
  · intro creates
    have here : action.creates site = some c := by
      rw [← creates]
      unfold Platform.Action.creates
      cases action.tx with
      | factory tx =>
          cases tx <;>
            simp only [MarketFactory.Tx.questionId, PlatformSite.ctf, oracle, question]
      | _ => rfl
    exact listed_of_creates here step.done
  · intro listed
    have unchanged : PoolsClosed site w := by
      refine ⟨?_, closed.pools⟩
      rw [factory, foreign, oracle]
      exact closed.factory
    refine listed.step unchanged ?_ step
    · intro a set
      rw [factory, foreign, oracle]
      exact one a set

/-- A market closes at one time for the factory, the oracle and the pool, and no trade is
accepted once an attestation can be. -/
structure Closing (addresses : PlatformSite) (w : Platform) (c : Bytes32) : Prop where
  present : w.factory.marketExists c = true
  row : (w.factory.markets c).closeTime = w.oracle.closeTime c
  positive : 0 < w.oracle.closeTime c
  pool : (w.amm.pools c).exists = true → (w.amm.pools c).closeTime = w.oracle.closeTime c
  trading : ∀ site sender timestamp tx next, w.amm.closeGate = true → tx.trades = some c →
    Platform.perform site w ⟨sender, timestamp, .amm tx⟩ = .ok next →
    timestamp < w.oracle.closeTime c
  attesting : ∀ site sender timestamp tx next, tx.attests = some c →
    Platform.perform site w ⟨sender, timestamp, .oracle tx⟩ = .ok next →
    w.oracle.closeTime c ≤ timestamp

theorem Closing.of_listed (closed : PoolsClosed addresses w) (listed : Listed w c) :
    Closing addresses w c := by
  refine ⟨listed.present, listed.agree, listed.positive, fun present => (closed.pools c present).1,
    ?_, ?_⟩
  · intro site sender timestamp tx next gated trades done
    simp only [Platform.perform, bind_ok, pure_ok] at done
    rcases done with ⟨m, done, rfl⟩
    rcases MarketAMM.exec_trades trades done with ⟨present, u, opened⟩
    rcases closed.pools c present with ⟨agree, positive⟩
    rw [agree] at opened
    exact MarketAMM.assertOpen_before gated positive opened
  · intro site sender timestamp tx next attests done
    simp only [Platform.perform, bind_ok, pure_ok] at done
    rcases done with ⟨court, done, rfl⟩
    exact ConsensusOracle.exec_attests_after attests done

/-- What a run leaves of the closing times it started with. -/
theorem clocks_of_run (inv : PoolsClosed addresses w) (listed : Listed w c)
    (path : Run (Platform.Clocked addresses) w more w') :
    PoolsClosed addresses w' ∧ SameClocks w w' ∧ Listed w' c ∧
      (w'.factory.markets c).closeTime = (w.factory.markets c).closeTime := by
  refine path.invariant (I := fun w' => PoolsClosed addresses w' ∧ SameClocks w w' ∧ Listed w' c ∧
    (w'.factory.markets c).closeTime = (w.factory.markets c).closeTime)
    ⟨inv, .refl w, listed, rfl⟩ ?_
  rintro a label b ⟨closed, same, listed, row⟩ taken
  rcases taken.closed closed with ⟨after, step⟩
  rcases (taken.listed closed).2 listed with ⟨still, kept⟩
  exact ⟨after, same.trans step, still, kept.trans row⟩

/-- Once a call has created a market, the factory, the oracle and the pool close it at one
time, which no later call changes. -/
theorem close_times_agree {first : Platform}
    (deployed : first.amm.factory = zeroAddress ∧ ∀ c, (first.amm.pools c).exists = false)
    (path : Run (Platform.Clocked addresses) first calls w)
    (created : ∃ call ∈ calls, call.2.creates addresses = some c)
    (later : Run (Platform.Clocked addresses) w more w') :
    Closing addresses w c ∧ Closing addresses w' c ∧
      (w'.factory.markets c).closeTime = (w.factory.markets c).closeTime ∧
      w'.oracle.closeTime c = w.oracle.closeTime c ∧
      ((w.amm.pools c).exists = true → (w'.amm.pools c).exists = true ∧
        (w'.amm.pools c).closeTime = (w.amm.pools c).closeTime) := by
  have start : PoolsClosed addresses first := by
    refine ⟨.inl deployed.1, fun c present => ?_⟩
    rw [deployed.2 c] at present
    cases present
  have reached : PoolsClosed addresses w ∧
      ((∃ call ∈ calls, call.2.creates addresses = some c) → Listed w c) := by
    refine path.measure (I := fun calls w => PoolsClosed addresses w ∧
      ((∃ call ∈ calls, call.2.creates addresses = some c) → Listed w c))
      ⟨start, fun ⟨_, made, _⟩ => nomatch made⟩ ?_
    rintro calls a label b ⟨closed, listed⟩ taken
    refine ⟨(taken.closed closed).1, ?_⟩
    rintro ⟨call, made, creates⟩
    rcases List.mem_append.mp made with before | now
    · exact ((taken.listed closed).2 (listed ⟨call, before, creates⟩)).1
    · rw [List.mem_singleton] at now
      exact (taken.listed closed).1 (now ▸ creates)
  have listed := reached.2 created
  rcases clocks_of_run reached.1 listed later with ⟨closed', same, listed', row⟩
  exact ⟨.of_listed reached.1 listed, .of_listed closed' listed', row,
    same.oracle c (Nat.ne_of_gt listed.positive), same.pools c⟩

/-- The operator sets the factory of the pools and opens a market closing at 1000. -/
def Platform.sampleMarket : List (PlatformSite × Platform.Action) :=
  [⟨5, 0, .amm (.setFactory 21)⟩, ⟨5, 0, .oracle (.setFactory 21)⟩,
    ⟨5, 0, .tokens (.usdc (.faucet 10000))⟩, ⟨5, 0, .tokens (.usdc (.approve 21 10000))⟩,
    ⟨5, 0, .factory (.createPrimaryMarket 7 1000 .empty 10000)⟩].map (.sample, ·)

/-- Later it sets the gate and pauses the market. -/
def Platform.sampleEvening : List (PlatformSite × Platform.Action) :=
  [⟨5, 900, .amm (.setCloseGate true)⟩, ⟨5, 950, .factory (.setPaused 7 true)⟩].map (.sample, ·)

/-- The platform when the market is open, and later. -/
def Platform.sampleDay : Call (Platform × Platform) := do
  let w ← Platform.sampleMarket.foldlM (fun w label => Platform.perform label.1 w label.2) .sample
  let w' ← Platform.sampleEvening.foldlM (fun w label => Platform.perform label.1 w label.2) w
  return (w, w')

theorem Platform.sampleDay_clocked :
    ∀ label ∈ Platform.sampleMarket ++ Platform.sampleEvening, label.1 = .sample ∧
      Platform.OneOracle .sample label.2 ∧ PlatformSite.sample.External label.2.sender := by
  have operator : PlatformSite.sample.External 5 := by decide
  have chosen : Platform.OneOracle .sample ⟨5, 0, .amm (.setFactory 21)⟩ := by
    rintro a set
    cases set
    exact .inl rfl
  intro label made
  simp only [Platform.sampleMarket, Platform.sampleEvening, List.map_cons, List.map_nil,
    List.cons_append, List.nil_append, List.mem_cons, List.not_mem_nil, or_false] at made
  rcases made with rfl | rfl | rfl | rfl | rfl | rfl | rfl
  · exact ⟨rfl, chosen, operator⟩
  all_goals exact ⟨rfl, nofun, operator⟩

/-- The theorem over a day of the sample market. -/
theorem close_times_agree_over_day : ∃ w w' : Platform,
    Closing .sample w 7 ∧ Closing .sample w' 7 ∧
    (w'.factory.markets 7).closeTime = (w.factory.markets 7).closeTime ∧
    w'.oracle.closeTime 7 = w.oracle.closeTime 7 ∧
    ((w.amm.pools 7).exists = true → (w'.amm.pools 7).exists = true ∧
      (w'.amm.pools 7).closeTime = (w.amm.pools 7).closeTime) := by
  obtain ⟨⟨w, w'⟩, done⟩ := ok_of_isOk (x := Platform.sampleDay) (by decide +kernel)
  simp only [Platform.sampleDay, bind_ok, pure_ok, Prod.mk.injEq] at done
  rcases done with ⟨_, opened, _, evening, rfl, rfl⟩
  have steps : ∀ (w : Platform) (label : PlatformSite × Platform.Action) (next : Platform),
      label.1 = .sample ∧ Platform.OneOracle .sample label.2 ∧
        PlatformSite.sample.External label.2.sender →
      Platform.perform label.1 w label.2 = .ok next → Platform.Clocked .sample w label next := by
    rintro w ⟨site, action⟩ next ⟨rfl, one, external⟩ done
    exact ⟨⟨rfl, rfl, rfl, rfl, rfl⟩, one, ⟨external, done⟩⟩
  have admitted := Platform.sampleDay_clocked
  refine ⟨_, _, close_times_agree ⟨rfl, fun _ => rfl⟩
    (Run.execute steps (fun label made => admitted label (List.mem_append_left _ made)) opened)
    ⟨(.sample, ⟨5, 0, .factory (.createPrimaryMarket 7 1000 .empty 10000)⟩), ?_, rfl⟩
    (Run.execute steps (fun label made => admitted label (List.mem_append_right _ made)) evening)⟩
  simp only [Platform.sampleMarket, List.map_cons, List.mem_cons, true_or, or_true]

end OverUnder.Contracts
