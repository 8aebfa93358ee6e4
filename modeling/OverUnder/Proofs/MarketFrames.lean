/-
Module: OverUnder.Proofs.MarketFrames
Purpose: What one call to any of the contracts a market is made of leaves alone: the
  collateral of others, the registry, the pools, the conditions it does not prepare.
Trusted boundary: none
Main exports: Stocked, Spares, Created, Fund, Launches, exec_launches, Sound,
  Platform.Action.prepares, Undisturbed
-/
import OverUnder.Contracts.MarketFactory
import OverUnder.Proofs.FullCollateral
import OverUnder.Proofs.OracleSteps
import OverUnder.Proofs.PoolCalls
import OverUnder.Proofs.PoolSteps

namespace OverUnder.Contracts

open OverUnder.Vyper
open OverUnder.Library

/-! ### Collateral of one account -/

namespace MockUSDC

variable {x y z : MockUSDC} {a sender owner recipient spender : Address} {amount : Nat}

/-- The collateral of an account and its allowances are left to it. -/
structure Spares (a : Address) (x y : MockUSDC) : Prop where
  balance : x.balanceOf a ≤ y.balanceOf a
  allowances : ∀ s, y.allowance (a, s) = x.allowance (a, s)

theorem Spares.refl (a : Address) (x : MockUSDC) : Spares a x x := ⟨Nat.le_refl _, fun _ => rfl⟩

theorem Spares.trans (first : Spares a x y) (second : Spares a y z) : Spares a x z :=
  ⟨first.balance.trans second.balance,
    fun s => (second.allowances s).trans (first.allowances s)⟩

theorem spares_of_moves (moved : Moves x.balanceOf y.balanceOf owner recipient amount)
    (other : a ≠ owner) : x.balanceOf a ≤ y.balanceOf a := by
  have entry := moved.entry a
  rw [if_neg other] at entry
  omega

theorem transferFrom_spares (other : a ≠ owner)
    (done : x.transferFrom spender owner recipient amount = .ok y) : Spares a x y := by
  rcases transferFrom_spec done with ⟨moved, -, others, -⟩
  exact ⟨spares_of_moves moved other, fun s => others _ fun pair => other (congrArg Prod.fst pair)⟩

theorem transfer_spares (other : a ≠ sender) (done : x.transfer sender recipient amount = .ok y) :
    Spares a x y := by
  rcases transfer_spec done with ⟨moved, -, same⟩
  exact ⟨spares_of_moves moved other, fun s => by rw [same]⟩

theorem approve_spares (other : a ≠ sender) : Spares a x (x.approve sender spender amount) :=
  ⟨Nat.le_refl _, fun _ => Function.update_of_ne (fun pair => other (congrArg Prod.fst pair)) _ _⟩

/-- An unlimited allowance is not used up. -/
theorem transferFrom_keeps_unlimited {pair : Address × Address}
    (unlimited : x.allowance pair = maxAllowance)
    (done : x.transferFrom spender owner recipient amount = .ok y) :
    y.allowance pair = maxAllowance := by
  rcases transferFrom_spec done with ⟨-, -, others, drawn⟩
  by_cases same : pair = (owner, spender)
  · subst same
    rw [spend_unlimited unlimited, Except.ok.injEq] at drawn
    rw [← drawn]
    exact unlimited
  · rw [others pair same]
    exact unlimited

/-- What a transfer on somebody's behalf takes. -/
theorem transferFrom_succeeds (backed : x.Backed)
    (allowed : x.allowance (owner, spender) = maxAllowance ∨ amount ≤ x.allowance (owner, spender))
    (covered : amount ≤ x.balanceOf owner) :
    ∃ y, x.transferFrom spender owner recipient amount = .ok y := by
  obtain ⟨paid, moved⟩ : ∃ paid, x.transfer owner recipient amount = .ok paid :=
    transfer_succeeds backed covered
  obtain ⟨allowance, drawn⟩ : ∃ allowance, x.spend owner spender amount = .ok allowance := by
    unfold spend
    split
    · next limited =>
      have enough := allowed.resolve_left limited
      exact ⟨_, debit_ok.mpr ⟨enough, rfl⟩⟩
    · exact ⟨_, rfl⟩
  simp only [transfer, bind_ok] at moved
  rcases moved with ⟨taken, debited, given, credited, -⟩
  simp only [transferFrom, bind_ok, pure_ok]
  exact ⟨_, allowance, drawn, taken, debited, given, credited, rfl⟩

theorem transferFrom_allowed (done : x.transferFrom spender owner recipient amount = .ok y) :
    x.allowance (owner, spender) = maxAllowance ∨ amount ≤ x.allowance (owner, spender) := by
  rcases transferFrom_spec done with ⟨-, -, -, drawn⟩
  unfold spend at drawn
  split at drawn
  · exact .inr (debit_ok.mp drawn).1
  · next unlimited => exact .inl (not_not.mp unlimited)

end MockUSDC

/-- The collateral a call of the outcome-token contract moves. -/
theorem ConditionalTokens.exec_usdc {site : CtfSite} {w after : Tokens} {sender : Address}
    {tx : ConditionalTokens.Tx} (done : exec site w sender tx = .ok after) :
    after.usdc = w.usdc ∨
      (∃ amount, w.usdc.transferFrom site.self sender site.self amount = .ok after.usdc) ∨
      ∃ amount, w.usdc.transfer site.self sender amount = .ok after.usdc := by
  cases tx with
  | prepareCondition oracle questionId =>
      simp only [exec, bind_ok, pure_ok] at done
      rcases done with ⟨⟨cid, w'⟩, done, rfl⟩
      rcases prepareCondition_spec done with ⟨-, -, -, rfl⟩
      exact .inl rfl
  | splitPosition c amount => exact .inr (.inl ⟨amount, (splitPosition_spec done).2.2.1⟩)
  | mergePositions c amount => exact .inr (.inr ⟨amount, (mergePositions_spec done).2.1⟩)
  | redeemPositions c outcome amount =>
      rcases redeemPositions_spec done with ⟨-, -, -, paid, -⟩
      unfold payOut at paid
      split at paid
      · exact .inr (.inr ⟨_, paid⟩)
      · rw [pure_ok] at paid
        exact .inl paid
  | reportPayouts c payouts =>
      simp only [exec, bind_ok, pure_ok] at done
      rcases done with ⟨ctf, -, rfl⟩
      exact .inl rfl
  | setApprovalForAll operator approved =>
      cases done
      exact .inl rfl
  | safeTransferFrom owner receiver id amount =>
      simp only [exec, bind_ok, pure_ok] at done
      rcases done with ⟨ctf, -, rfl⟩
      exact .inl rfl

/-- Only a preparation adds a condition. -/
theorem ConditionalTokens.exec_keeps_slots {site : CtfSite} {w after : Tokens} {sender : Address}
    {tx : ConditionalTokens.Tx}
    (other : ∀ oracle questionId, tx ≠ .prepareCondition oracle questionId)
    (done : exec site w sender tx = .ok after) : after.ctf.outcomeSlots = w.ctf.outcomeSlots := by
  rcases exec_conditions done with same | ⟨oracle, questionId, cid, prepares, -⟩ |
    ⟨c, payouts, reported⟩
  · exact same.outcomeSlots
  · exact absurd prepares (other oracle questionId)
  · rw [(reportPayouts_spec reported).2.2.2]

namespace MarketAMM

variable {site : AmmSite} {m next : Market} {msg : Msg}

/-- Only the operator changes the factory of the pools, and nobody the operator. -/
theorem exec_admin {tx : Tx} (done : exec site m msg tx = .ok next) :
    next.amm.operator = m.amm.operator ∧
      (next.amm.factory = m.amm.factory ∨ msg.sender = m.amm.operator) := by
  cases tx with
  | setFactory factory =>
      simp only [exec, setFactory, bind_ok, require_ok, pure_ok, exists_const] at done
      rcases done with ⟨amm, ⟨mine, rfl⟩, rfl⟩
      exact ⟨rfl, .inr mine⟩
  | setCloseGate enabled =>
      simp only [exec, setCloseGate, bind_ok, require_ok, pure_ok, exists_const] at done
      rcases done with ⟨amm, ⟨mine, rfl⟩, rfl⟩
      exact ⟨rfl, .inl rfl⟩
  | seedPool c usdcAmount =>
      simp only [exec, seedPool, seed, bind_ok, require_ok, pure_ok, exists_const] at done
      rcases done with ⟨-, -, -, -, -, _, -, _, -, -, _, -, _, -, _, -, rfl⟩
      exact ⟨rfl, .inl rfl⟩
  | seedPoolFor c usdcAmount provider =>
      simp only [exec, seedPoolFor, seed, bind_ok, require_ok, pure_ok, exists_const] at done
      rcases done with ⟨-, -, -, -, -, _, -, _, -, -, _, -, _, -, _, -, rfl⟩
      exact ⟨rfl, .inl rfl⟩
  | buyWithUSDC c buyYes usdcIn minOut =>
      simp only [exec, buyWithUSDC, bind_ok, require_ok, pure_ok, exists_const] at done
      rcases done with ⟨_, ⟨-, -, _, -, _, -, -, _, -, _, -, _, -, _, -, _, -, _, -, _, -, rfl⟩,
        rfl⟩
      exact ⟨rfl, .inl rfl⟩
  | sellToUSDC c sellYes tokenAmount minUsdc =>
      simp only [exec, sellToUSDC, bind_ok, require_ok, pure_ok, exists_const] at done
      rcases done with ⟨_, ⟨-, -, _, -, _, -, -, _, -, _, -, _, -, _, -, _, -, rfl⟩, rfl⟩
      exact ⟨rfl, .inl rfl⟩
  | addLiquidity c usdcAmount minLpOut =>
      simp only [exec, addLiquidity, bind_ok, require_ok, pure_ok, exists_const] at done
      rcases done with ⟨_, ⟨-, -, -, _, -, _, -, _, -, _, -, _, -, _, -, _, -, rfl⟩, rfl⟩
      exact ⟨rfl, .inl rfl⟩
  | removeLiquidity c lpAmount =>
      simp only [exec, removeLiquidity, bind_ok, require_ok, pure_ok, exists_const] at done
      rcases done with ⟨_, ⟨-, -, _, -, -, _, -, -, _, -, _, -, _, -, _, -, _, -, _, -, _, -,
        _, -, _, -, rfl⟩, rfl⟩
      exact ⟨rfl, .inl rfl⟩

/-- Whoever is neither the factory nor the operator opens no pool. -/
theorem exec_opens_nothing {tx : Tx}
    (outsider : msg.sender ≠ m.amm.factory ∧ msg.sender ≠ m.amm.operator)
    (done : exec site m msg tx = .ok next) (c : Bytes32) :
    (next.amm.pools c).exists = (m.amm.pools c).exists := by
  have unseeded : ∀ c amount provider, seed site m msg c amount provider ≠ .ok next := by
    intro c amount provider done
    simp only [seed, bind_ok, require_ok, exists_const] at done
    exact done.1.elim outsider.1 outsider.2
  have updated : ∀ c' p, next.amm.pools = Function.update m.amm.pools c' p →
      p.exists = (m.amm.pools c').exists →
      (next.amm.pools c).exists = (m.amm.pools c).exists := by
    intro c' p pools stays
    rw [pools]
    by_cases same : c = c'
    · rw [same, Function.update_self, stays]
    · rw [Function.update_of_ne same]
  have traded : ∀ c', Trades m next c' → (next.amm.pools c).exists = (m.amm.pools c).exists := by
    intro c' trades
    rcases trades.pools with ⟨yes, no, fees, pools, -⟩
    exact updated c' _ pools rfl
  cases tx with
  | setFactory factory =>
      simp only [exec, setFactory, bind_ok, require_ok, pure_ok, exists_const] at done
      rcases done with ⟨amm, ⟨mine, -⟩, -⟩
      exact absurd mine outsider.2
  | setCloseGate enabled =>
      simp only [exec, setCloseGate, bind_ok, require_ok, pure_ok, exists_const] at done
      rcases done with ⟨amm, ⟨mine, -⟩, -⟩
      exact absurd mine outsider.2
  | seedPool c usdcAmount => exact absurd done (unseeded _ _ _)
  | seedPoolFor c usdcAmount provider => exact absurd done (unseeded _ _ _)
  | buyWithUSDC c' buyYes usdcIn minOut =>
      simp only [exec, bind_ok, pure_ok] at done
      rcases done with ⟨⟨out, m'⟩, done, rfl⟩
      exact traded c' (buyWithUSDC_spec done)
  | sellToUSDC c' sellYes tokenAmount minUsdc =>
      simp only [exec, bind_ok, pure_ok] at done
      rcases done with ⟨⟨out, m'⟩, done, rfl⟩
      exact traded c' (sellToUSDC_spec done)
  | addLiquidity c' usdcAmount minLpOut =>
      simp only [exec, bind_ok, pure_ok] at done
      rcases done with ⟨⟨minted, m'⟩, done, rfl⟩
      rcases (addLiquidity_spec done).change with ⟨d, planned, pools, -⟩
      rcases deposit_spec planned with ⟨denom, -, -, -, -, -, -, -, -, -, pool⟩
      exact updated c' _ pools (by rw [pool])
  | removeLiquidity c' lpAmount =>
      simp only [exec, bind_ok, pure_ok] at done
      rcases done with ⟨⟨out, m'⟩, done, rfl⟩
      rcases (removeLiquidity_spec done).change with ⟨d, planned, pools⟩
      rcases withdrawal_spec planned with ⟨-, -, -, -, -, -, -, -, pool⟩
      exact updated c' _ pools (by rw [pool])

end MarketAMM

namespace ConsensusOracle

variable {site : OracleSite} {w next : Court} {x x' : ConsensusOracle}
variable {sender : Address} {timestamp : Nat} {c : Bytes32} {outcome : Nat}

/-- Who may register markets, and which are registered. -/
structure SameRegistry (x x' : ConsensusOracle) : Prop where
  operator : x'.operator = x.operator
  factory : x'.factory = x.factory
  closeTime : x'.closeTime = x.closeTime

theorem SameRegistry.trans {x'' : ConsensusOracle} (first : SameRegistry x x')
    (second : SameRegistry x' x'') : SameRegistry x x'' :=
  ⟨second.operator.trans first.operator, second.factory.trans first.factory,
    second.closeTime.trans first.closeTime⟩

theorem record_registry {agent : Address} (done : record x c agent outcome = .ok x') :
    SameRegistry x x' := by
  simp only [record, bind_ok, require_ok, pure_ok, exists_const] at done
  rcases done with ⟨-, -, -, -, rfl⟩
  exact ⟨rfl, rfl, rfl⟩

theorem recordAll_registry {digest : Nat} {seen : List Address} {sigs : List Signature}
    (done : recordAll site digest c outcome x seen sigs = .ok x') : SameRegistry x x' := by
  induction sigs generalizing x seen with
  | nil =>
      cases done
      exact ⟨rfl, rfl, rfl⟩
  | cons sig sigs ih =>
      simp only [recordAll, bind_ok, require_ok, exists_const] at done
      rcases done with ⟨agent, -, -, done⟩
      split at done
      · simp only [bind_ok] at done
        rcases done with ⟨middle, recorded, rest⟩
        exact (record_registry recorded).trans (ih rest)
      · simp only [bind_ok, require_ok, exists_const] at done
        exact ih done.2

theorem resolve_registry (done : resolve site w c outcome = .ok next) :
    SameRegistry w.oracle next.oracle := by
  simp only [resolve, bind_ok, require_ok, pure_ok, exists_const] at done
  rcases done with ⟨-, ctf, -, rfl⟩
  exact ⟨rfl, rfl, rfl⟩

/-- Only the operator and the factory change the registry, and nobody the operator. -/
theorem exec_registry {tx : Tx} (done : exec site w sender timestamp tx = .ok next) :
    next.oracle.operator = w.oracle.operator ∧
      (SameRegistry w.oracle next.oracle ∨ sender = w.oracle.operator ∨
        sender = w.oracle.factory) := by
  have kept : SameRegistry w.oracle next.oracle → next.oracle.operator = w.oracle.operator ∧
      (SameRegistry w.oracle next.oracle ∨ sender = w.oracle.operator ∨
        sender = w.oracle.factory) := fun same => ⟨same.operator, .inl same⟩
  cases tx with
  | setFactory factory =>
      simp only [exec, setFactory, bind_ok, require_ok, pure_ok, exists_const] at done
      rcases done with ⟨oracle, ⟨mine, rfl⟩, rfl⟩
      exact ⟨rfl, .inr (.inl mine)⟩
  | registerMarket c closeTime =>
      simp only [exec, registerMarket, bind_ok, require_ok, pure_ok, exists_const] at done
      rcases done with ⟨oracle, ⟨mine, -, -, rfl⟩, rfl⟩
      exact ⟨rfl, .inr mine.symm⟩
  | submitAttestation c outcome evidenceHash deadline sig =>
      simp only [exec, submitAttestation, bind_ok, require_ok, pure_ok, exists_const] at done
      rcases done with ⟨oracle, ⟨-, -, agent, -, recorded⟩, rfl⟩
      exact kept (record_registry recorded)
  | submitConsensus c outcome evidenceHash deadline sigs =>
      simp only [exec, submitConsensus, bind_ok, require_ok, exists_const] at done
      rcases done with ⟨-, -, -, oracle, recorded, resolved⟩
      exact kept ((recordAll_registry recorded).trans (resolve_registry resolved))
  | castVote c outcome =>
      simp only [exec, castVote, bind_ok, require_ok, pure_ok, exists_const] at done
      rcases done with ⟨-, -, -, -, -, _, -, -, weights, -, rfl⟩
      exact kept ⟨rfl, rfl, rfl⟩
  | resolveFallback c =>
      simp only [exec, resolveFallback, bind_ok, require_ok, exists_const] at done
      rcases done with ⟨-, _, -, -, done⟩
      split at done
      · cases done
      · simp only [bind_ok] at done
        rcases done with ⟨_, -, resolved⟩
        exact kept (resolve_registry resolved)
  | resolveArbitrated c outcome =>
      simp only [exec, resolveArbitrated, bind_ok, require_ok, exists_const] at done
      rcases done with ⟨-, -, -, _, -, -, resolved⟩
      exact kept (resolve_registry resolved)

/-- Seen from the tokens, a call to the oracle is no call or the oracle's report. -/
theorem exec_reports {tx : Tx} (done : exec site w sender timestamp tx = .ok next) :
    next.tokens = w.tokens ∨
      ∃ c outcome, ConditionalTokens.exec site.ctf w.tokens site.self
        (.reportPayouts c (payouts outcome)) = .ok next.tokens := by
  rcases exec_cases done with ⟨same, -⟩ | ⟨c, -, -, votes⟩ |
    ⟨c, delay, outcome, -, -, resolves⟩
  · exact .inl same
  · exact .inl votes.tokens
  · right
    refine ⟨c, outcome, ?_⟩
    simp only [ConditionalTokens.exec, bind_ok, pure_ok]
    refine ⟨_, resolves.reported, ?_⟩
    cases tokens : next.tokens
    rw [← resolves.usdc, tokens]

end ConsensusOracle

namespace MarketFactory

open ConditionalTokens (supply SameConditions)
open MockUSDC (Spares)

variable {site : PlatformSite} {w next : Platform} {t u : Tokens}
variable {creator sender operator : Address} {timestamp : Nat} {c : Bytes32}

/-! ### What the tokens keep -/

/-- The collateral is backed, the pool contract's approval stands, and a condition nobody
prepared has no positions and no payouts. -/
structure Stocked (site : PlatformSite) (t : Tokens) : Prop where
  backed : t.usdc.Backed
  unlimited : t.usdc.allowance (site.amm, site.ctf.self) = MockUSDC.maxAllowance
  unprepared : ∀ c, t.ctf.outcomeSlots c = 0 → t.ctf.oracles c = zeroAddress ∧
    t.ctf.payoutDenominator c = 0 ∧ ∀ o, o < 2 → supply site.ctf t.ctf c o = 0

theorem Stocked.usdc {usdc : MockUSDC} (inv : Stocked site t) (sender : Address)
    (tx : MockUSDC.Tx)
    (approves : ∀ s v, tx = .approve s v → sender ≠ site.amm)
    (done : t.usdc.exec sender tx = .ok usdc) : Stocked site { t with usdc } := by
  refine ⟨MockUSDC.exec_backed inv.backed done, ?_, inv.unprepared⟩
  cases tx with
  | faucet amount =>
      rw [(MockUSDC.mint_spec done).2.2.2]
      exact inv.unlimited
  | mint recipient amount =>
      rw [(MockUSDC.mint_spec done).2.2.2]
      exact inv.unlimited
  | transfer recipient amount =>
      rw [(MockUSDC.transfer_spec done).2.2]
      exact inv.unlimited
  | approve spender amount =>
      cases done
      have other := approves spender amount rfl
      exact (Function.update_of_ne (fun pair => other (congrArg Prod.fst pair).symm) _ _).trans
        inv.unlimited
  | transferFrom owner recipient amount =>
      exact MockUSDC.transferFrom_keeps_unlimited inv.unlimited done

theorem Stocked.ctf (inv : Stocked site t) (sender : Address) (tx : ConditionalTokens.Tx)
    (named : sender ≠ zeroAddress)
    (done : ConditionalTokens.exec site.ctf t sender tx = .ok u) : Stocked site u := by
  have money : Stocked site { t with usdc := u.usdc } := by
    rcases ConditionalTokens.exec_usdc done with same | ⟨amount, drawn⟩ | ⟨amount, paid⟩
    · rw [same]
      exact inv
    · exact inv.usdc site.ctf.self (.transferFrom _ _ _) nofun drawn
    · exact inv.usdc site.ctf.self (.transfer _ _) nofun paid
  refine ⟨money.backed, money.unlimited, fun c fresh => ?_⟩
  have before : t.ctf.outcomeSlots c = 0 ∧ u.ctf.oracles c = t.ctf.oracles c ∧
      u.ctf.payoutDenominator c = t.ctf.payoutDenominator c := by
    rcases ConditionalTokens.exec_conditions done with
      same | ⟨oracle, questionId, cid, -, prepared⟩ | ⟨c', payouts, reported⟩
    · rw [same.outcomeSlots] at fresh
      rw [same.oracles, same.payoutDenominator]
      exact ⟨fresh, rfl, rfl⟩
    · rcases ConditionalTokens.prepareCondition_spec prepared with ⟨-, -, -, rfl⟩
      have other : c ≠ cid := by
        rintro rfl
        simp only [Function.update_self] at fresh
        cases fresh
      simp only [Function.update_of_ne other] at fresh ⊢
      exact ⟨fresh, trivial, trivial⟩
    · rcases ConditionalTokens.reportPayouts_spec reported with ⟨mine, -, -, same⟩
      rw [same] at fresh ⊢
      have other : c ≠ c' := by
        rintro rfl
        exact named (mine.trans (inv.unprepared c fresh).1)
      exact ⟨fresh, rfl, Function.update_of_ne other _ _⟩
  rcases inv.unprepared c before.1 with ⟨nobody, unpaid, none⟩
  rw [before.2.1, before.2.2]
  refine ⟨nobody, unpaid, fun o binary => ?_⟩
  have less := ConditionalTokens.exec_supply_le (.inl (by rw [before.1]; decide)) done binary
  rw [none o binary] at less
  exact Nat.le_zero.mp less

theorem Stocked.exec {tx : Tokens.Tx} (inv : Stocked site t) (named : sender ≠ zeroAddress)
    (other : sender ≠ site.amm) (done : Tokens.exec site.ctf t sender tx = .ok u) :
    Stocked site u := by
  cases tx with
  | ctf tx => exact inv.ctf sender tx named done
  | usdc tx =>
      simp only [Tokens.exec, bind_ok, pure_ok] at done
      rcases done with ⟨usdc, done, rfl⟩
      exact inv.usdc sender tx (fun _ _ _ => other) done

/-- The contracts have addresses of their own. -/
structure Named (site : PlatformSite) : Prop where
  oracle : site.oracle.self ≠ zeroAddress
  amm : site.amm ≠ zeroAddress
  factory : site.factory ≠ zeroAddress

theorem stocked_carries (named : Named site) (sender : Address) :
    MarketAMM.Carries site.ammSite sender fun t u => Stocked site t → Stocked site u where
  refl _ := id
  trans first second inv := second (first inv)
  pullUsdc done inv := by
    simp only [MarketAMM.pullUsdc, bind_ok, pure_ok] at done
    rcases done with ⟨usdc, done, rfl⟩
    exact inv.usdc site.amm (.transferFrom _ _ _) (by rintro _ _ ⟨⟩) done
  sendUsdc done inv := by
    simp only [MarketAMM.sendUsdc, bind_ok, pure_ok] at done
    rcases done with ⟨usdc, done, rfl⟩
    exact inv.usdc site.amm (.transfer _ _) (by rintro _ _ ⟨⟩) done
  sendTokens {_ _ recipient c yes amount} done inv :=
    inv.ctf site.amm (.safeTransferFrom site.amm recipient (MarketAMM.pid site.ammSite c yes) amount)
      named.amm done
  pullTokens {_ _ c yes amount} done inv :=
    inv.ctf site.amm (.safeTransferFrom sender site.amm (MarketAMM.pid site.ammSite c yes) amount)
      named.amm done
  splitPosition {_ _ c amount} done inv := inv.ctf site.amm (.splitPosition c amount) named.amm done
  mergePositions {_ _ c amount} done inv :=
    inv.ctf site.amm (.mergePositions c amount) named.amm done

/-- Somebody else's call of the pool contract leaves an account its collateral. -/
theorem spares_carries (external : site.External creator) (other : creator ≠ sender) :
    MarketAMM.Carries site.ammSite sender fun t u => Spares creator t.usdc u.usdc where
  refl _ := .refl _ _
  trans := .trans
  pullUsdc done := by
    simp only [MarketAMM.pullUsdc, bind_ok, pure_ok] at done
    rcases done with ⟨usdc, done, rfl⟩
    exact MockUSDC.transferFrom_spares other done
  sendUsdc done := by
    simp only [MarketAMM.sendUsdc, bind_ok, pure_ok] at done
    rcases done with ⟨usdc, done, rfl⟩
    exact MockUSDC.transfer_spares external.2.2.2.1 done
  sendTokens done := by
    simp only [MarketAMM.sendTokens, bind_ok, pure_ok] at done
    rcases done with ⟨ctf, -, rfl⟩
    exact .refl _ _
  pullTokens done := by
    simp only [MarketAMM.pullTokens, bind_ok, pure_ok] at done
    rcases done with ⟨ctf, -, rfl⟩
    exact .refl _ _
  splitPosition done :=
    MockUSDC.transferFrom_spares external.2.2.2.1 (ConditionalTokens.splitPosition_spec done).2.2.1
  mergePositions done :=
    MockUSDC.transfer_spares external.2.1 (ConditionalTokens.mergePositions_spec done).2.1

/-! ### The parts of a creation -/

/-- What an account's listing depends on in the factory. -/
def terms (x : MarketFactory) (a : Address) :
    Address × Bool × Bool × Nat × Nat × Nat × Nat × Nat × Nat :=
  (x.operator, x.permissionless, x.listerAllowed a, x.minSeedUsdc, x.listingFeeUsdc,
    x.minLeadTime, x.maxHorizon, x.listingCooldown, x.lastListedAt a)

/-- The question of the market a call creates. -/
def Tx.questionId (site : PlatformSite) (sender : Address) : Tx → Option Bytes32
  | .createPrimaryMarket questionId .. => some questionId
  | .createWildcardMarket questionId .. => some questionId
  | .createPermissionlessMarket salt .. => some (site.userQuestionId sender salt)
  | _ => none

/-- `_create`: a fresh condition is prepared and registered. -/
structure Created (site : PlatformSite) (w next : Platform) (timestamp closeTime : Nat)
    (cid : Bytes32) : Prop where
  later : timestamp < closeTime
  named : site.oracle.self ≠ zeroAddress
  fresh : w.tokens.ctf.outcomeSlots cid = 0
  registrar : site.factory = w.oracle.factory ∨ site.factory = w.oracle.operator
  unregistered : w.oracle.closeTime cid = 0
  usdc : next.tokens.usdc = w.tokens.usdc
  ctf : next.tokens.ctf = { w.tokens.ctf with
    outcomeSlots := Function.update w.tokens.ctf.outcomeSlots cid 2
    oracles := Function.update w.tokens.ctf.oracles cid site.oracle.self }
  oracle : next.oracle = { w.oracle with
    closeTime := Function.update w.oracle.closeTime cid closeTime }
  amm : next.amm = w.amm
  terms : ∀ a, terms next.factory a = MarketFactory.terms w.factory a

theorem create_spec {questionId parent cid : Bytes32} {closeTime marketType : Nat}
    {question : Question}
    (done : create site w timestamp questionId parent closeTime marketType question =
      .ok (cid, next)) :
    cid = site.ctf.hashes.conditionId site.oracle.self questionId ∧
      Created site w next timestamp closeTime cid := by
  simp only [create, bind_ok, require_ok, pure_ok, Prod.mk.injEq, exists_const] at done
  rcases done with ⟨later, _, -, ⟨cid', tokens⟩, prepared, oracle, registered, rfl, rfl⟩
  simp only [ConsensusOracle.registerMarket, bind_ok, require_ok, pure_ok, exists_const]
    at registered
  rcases registered with ⟨registrar, -, unregistered, rfl⟩
  rcases ConditionalTokens.prepareCondition_spec prepared with ⟨rfl, named, fresh, rfl⟩
  exact ⟨rfl, later, named, fresh, registrar, unregistered, rfl, rfl, rfl, rfl, fun _ => rfl⟩

/-- What follows `_create` for the condition `cid`. -/
inductive Fund (site : PlatformSite) (sender : Address) (timestamp : Nat) (cid : Bytes32) :
    Platform → Platform → Prop where
  | books {w : Platform} {factory : MarketFactory}
      (same : ∀ a, terms factory a = terms w.factory a) :
      Fund site sender timestamp cid w { w with factory }
  | pull {w next : Platform} {amount : Nat} (done : pull site w sender amount = .ok next) :
      Fund site sender timestamp cid w next
  | payFee {w next : Platform} {fee : Nat} (done : payFee site w fee = .ok next) :
      Fund site sender timestamp cid w next
  | seed {w next : Platform} {amount : Nat}
      (done : seed site w sender timestamp cid amount = .ok next) :
      Fund site sender timestamp cid w next

/-- A market is created: the time of the listing is noted, the condition is created, the
money follows. -/
structure Launches (site : PlatformSite) (w next : Platform) (sender : Address) (timestamp : Nat)
    (questionId : Bytes32) : Prop where
  parts : ∃ factory closeTime w1,
    (∀ a, a ≠ sender → terms factory a = terms w.factory a) ∧
      factory.operator = w.factory.operator ∧
      Created site { w with factory } w1 timestamp closeTime
        (site.ctf.hashes.conditionId site.oracle.self questionId) ∧
      Relation.ReflTransGen (Fund site sender timestamp
        (site.ctf.hashes.conditionId site.oracle.self questionId)) w1 next

theorem importRows_operator {legacyFactory : Address} {x x' : MarketFactory} {rows : List Bytes32}
    (done : importRows site legacyFactory x rows = .ok x') : x'.operator = x.operator := by
  induction rows generalizing x with
  | nil =>
      cases done
      rfl
  | cons cid rest ih =>
      unfold importRows at done
      split at done
      · exact ih done
      · simp only [bind_ok, require_ok, exists_const] at done
        rcases done with ⟨_, -, -, _, -, done⟩
        exact (ih done).trans rfl

/-- A call to the factory creates a market or is one of the operator's settings. -/
theorem exec_launches {tx : Tx} (done : exec site w sender timestamp tx = .ok next) :
    (∃ questionId, tx.questionId site sender = some questionId ∧
      Launches site w next sender timestamp questionId) ∨
    tx.questionId site sender = none ∧ sender = w.factory.operator ∧
      ∃ factory, next = { w with factory } ∧ factory.operator = w.factory.operator := by
  cases tx with
  | setWildcardGenerator account =>
      simp only [exec, configure, setWildcardGenerator, bind_ok, require_ok, pure_ok,
        exists_const] at done
      rcases done with ⟨factory, ⟨mine, rfl⟩, rfl⟩
      exact .inr ⟨rfl, mine, _, rfl, rfl⟩
  | setListingConfig minSeedUsdc listingFeeUsdc feeRecipient minLeadTime maxHorizon cooldown =>
      simp only [exec, configure, setListingConfig, bind_ok, require_ok, pure_ok,
        exists_const] at done
      rcases done with ⟨factory, ⟨mine, -, -, -, -, rfl⟩, rfl⟩
      exact .inr ⟨rfl, mine, _, rfl, rfl⟩
  | setPermissionless enabled =>
      simp only [exec, configure, setPermissionless, bind_ok, require_ok, pure_ok,
        exists_const] at done
      rcases done with ⟨factory, ⟨mine, rfl⟩, rfl⟩
      exact .inr ⟨rfl, mine, _, rfl, rfl⟩
  | setLister account allowed =>
      simp only [exec, configure, setLister, bind_ok, require_ok, pure_ok, exists_const] at done
      rcases done with ⟨factory, ⟨mine, -, rfl⟩, rfl⟩
      exact .inr ⟨rfl, mine, _, rfl, rfl⟩
  | setPaused conditionId paused =>
      simp only [exec, configure, setPaused, bind_ok, require_ok, pure_ok, exists_const] at done
      rcases done with ⟨factory, ⟨mine, -, rfl⟩, rfl⟩
      exact .inr ⟨rfl, mine, _, rfl, rfl⟩
  | importLegacyMarkets legacyFactory conditionIds =>
      simp only [exec, configure, importLegacyMarkets, bind_ok, require_ok, pure_ok,
        exists_const] at done
      rcases done with ⟨factory, ⟨-, mine, -, rows⟩, rfl⟩
      exact .inr ⟨rfl, mine, factory, rfl, importRows_operator rows⟩
  | createPrimaryMarket questionId closeTime question seedUsdc =>
      simp only [exec, creating, createPrimaryMarket, bind_ok, require_ok, pure_ok,
        exists_const] at done
      rcases done with ⟨⟨cid, w'⟩, ⟨-, -, ⟨cid', w1⟩, created, w2, pulled, w3, seeded, same⟩, rfl⟩
      rcases Prod.mk.inj same with ⟨rfl, rfl⟩
      rcases create_spec created with ⟨rfl, created⟩
      exact .inl ⟨questionId, rfl, ⟨w.factory, closeTime, w1, fun _ _ => rfl, rfl, created,
        .head (.pull pulled) (.head (.seed seeded) .refl)⟩⟩
  | createWildcardMarket questionId parent closeTime question seedUsdc =>
      simp only [exec, creating, createWildcardMarket, seedWhen, bind_ok, require_ok, pure_ok,
        exists_const] at done
      rcases done with ⟨⟨cid, w'⟩, ⟨-, ⟨cid', w1⟩, created, w2, funded, same⟩, rfl⟩
      rcases Prod.mk.inj same with ⟨rfl, rfl⟩
      rcases create_spec created with ⟨rfl, created⟩
      refine .inl ⟨questionId, rfl, ⟨w.factory, closeTime, w1, fun _ _ => rfl, rfl, created, ?_⟩⟩
      split at funded
      · simp only [bind_ok] at funded
        rcases funded with ⟨w3, pulled, seeded⟩
        exact .head (.pull pulled) (.head (.seed seeded) .refl)
      · rw [pure_ok] at funded
        rw [funded]
  | createPermissionlessMarket salt closeTime question criteriaHash seedUsdc =>
      simp only [exec, creating, createPermissionlessMarket, bind_ok, pure_ok] at done
      rcases done with ⟨⟨cid, w'⟩, ⟨-, -, ⟨cid', w1⟩, created, owed, -, w2, pulled, w3, paid, w4,
        seeded, same⟩, rfl⟩
      rcases Prod.mk.inj same with ⟨rfl, rfl⟩
      rcases create_spec created with ⟨rfl, created⟩
      have booked : Fund site sender timestamp
          (site.ctf.hashes.conditionId site.oracle.self (site.userQuestionId sender salt)) w1
          { w1 with factory := { w1.factory with
          creatorOf := Function.update w1.factory.creatorOf
            (site.ctf.hashes.conditionId site.oracle.self (site.userQuestionId sender salt)) sender
          seedOf := Function.update w1.factory.seedOf
            (site.ctf.hashes.conditionId site.oracle.self (site.userQuestionId sender salt)) seedUsdc
          criteriaHashOf := Function.update w1.factory.criteriaHashOf
            (site.ctf.hashes.conditionId site.oracle.self (site.userQuestionId sender salt))
            criteriaHash } } := .books fun _ => rfl
      refine .inl ⟨site.userQuestionId sender salt, rfl, ⟨{ w.factory with
        lastListedAt := Function.update w.factory.lastListedAt sender timestamp }, closeTime, w1,
        fun a other => ?_, rfl, created, .head booked (.head (.pull pulled)
          (.head (.payFee paid) (.head (.seed seeded) .refl)))⟩⟩
      simp only [terms, Function.update_of_ne other]

/-! ### What follows a creation leaves alone -/

/-- The registry, the terms and every other pool are untouched, no condition is prepared. -/
structure Frame (cid : Bytes32) (w next : Platform) : Prop where
  oracle : next.oracle = w.oracle
  terms : ∀ a, terms next.factory a = MarketFactory.terms w.factory a
  operator : next.amm.operator = w.amm.operator
  factory : next.amm.factory = w.amm.factory
  pools : ∀ c, c ≠ cid → (next.amm.pools c).exists = (w.amm.pools c).exists
  slots : next.tokens.ctf.outcomeSlots = w.tokens.ctf.outcomeSlots

theorem Frame.refl (cid : Bytes32) (w : Platform) : Frame cid w w :=
  ⟨rfl, fun _ => rfl, rfl, rfl, fun _ _ => rfl, rfl⟩

theorem Frame.trans {cid : Bytes32} {w1 w2 w3 : Platform} (first : Frame cid w1 w2)
    (second : Frame cid w2 w3) : Frame cid w1 w3 :=
  ⟨second.oracle.trans first.oracle, fun a => (second.terms a).trans (first.terms a),
    second.operator.trans first.operator, second.factory.trans first.factory,
    fun c other => (second.pools c other).trans (first.pools c other),
    second.slots.trans first.slots⟩

theorem Frame.of_usdc {cid : Bytes32} {usdc : MockUSDC} :
    Frame cid w { w with tokens := { w.tokens with usdc } } :=
  ⟨rfl, fun _ => rfl, rfl, rfl, fun _ _ => rfl, rfl⟩

variable {cid : Bytes32} {amount : Nat}

/-- `_seed` is an approval and a call of the pool contract. -/
theorem seed_parts (done : seed site w sender timestamp cid amount = .ok next) :
    ∃ m, MarketAMM.seed site.ammSite
        ⟨{ w.tokens with usdc := w.tokens.usdc.approve site.factory site.amm amount }, w.amm⟩
        (site.msg w site.factory timestamp) cid amount sender = .ok m ∧
      next = { w with tokens := m.tokens, amm := m.amm } := by
  simp only [seed, MarketAMM.seedPoolFor, bind_ok, pure_ok] at done
  exact done

theorem seed_frame (done : seed site w sender timestamp cid amount = .ok next) :
    Frame cid w next := by
  rcases seed_parts done with ⟨m, seeded, rfl⟩
  have carries : MarketAMM.Carries site.ammSite (site.msg w site.factory timestamp).sender
      fun t u => SameConditions t.ctf u.ctf := MarketAMM.conditions_carries site.ammSite site.factory
  have conditions := carries.seed seeded
  simp only [MarketAMM.seed, bind_ok, require_ok, pure_ok, exists_const] at seeded
  rcases seeded with ⟨-, -, -, -, -, _, -, _, -, -, _, -, _, -, _, -, rfl⟩
  refine ⟨rfl, fun _ => rfl, rfl, rfl, fun c other => ?_, conditions.outcomeSlots⟩
  exact congrArg Pool.exists (Function.update_of_ne other _ _)

theorem Fund.frame (funded : Fund site sender timestamp cid w next) : Frame cid w next := by
  cases funded with
  | books same => exact ⟨rfl, same, rfl, rfl, fun _ _ => rfl, rfl⟩
  | pull done =>
      simp only [MarketFactory.pull, bind_ok, pure_ok] at done
      rcases done with ⟨usdc, -, rfl⟩
      exact .of_usdc
  | payFee done =>
      unfold MarketFactory.payFee at done
      split at done
      · simp only [bind_ok, pure_ok] at done
        rcases done with ⟨usdc, -, rfl⟩
        exact .of_usdc
      · rw [pure_ok] at done
        rw [done]
        exact .refl _ _
  | seed done => exact seed_frame done

theorem Fund.stocked (named : Named site) (funded : Fund site sender timestamp cid w next)
    (inv : Stocked site w.tokens) : Stocked site next.tokens := by
  cases funded with
  | books same => exact inv
  | pull done =>
      simp only [MarketFactory.pull, bind_ok, pure_ok] at done
      rcases done with ⟨usdc, done, rfl⟩
      exact inv.usdc site.factory (.transferFrom _ _ _) (by rintro _ _ ⟨⟩) done
  | payFee done =>
      unfold MarketFactory.payFee at done
      split at done
      · simp only [bind_ok, pure_ok] at done
        rcases done with ⟨usdc, done, rfl⟩
        exact inv.usdc site.factory (.transfer _ _) (by rintro _ _ ⟨⟩) done
      · rw [pure_ok] at done
        rw [done]
        exact inv
  | @seed _ amount done =>
      rcases seed_parts done with ⟨m, seeded, rfl⟩
      have approved := inv.usdc site.factory (.approve site.amm amount)
        (fun _ _ _ => site.factoryApart.2) rfl
      have carries : MarketAMM.Carries site.ammSite (site.msg w site.factory timestamp).sender
          fun t u => Stocked site t → Stocked site u := stocked_carries named site.factory
      exact carries.seed seeded approved

theorem Fund.spares (external : site.External creator) (other : creator ≠ sender)
    (funded : Fund site sender timestamp cid w next) :
    Spares creator w.tokens.usdc next.tokens.usdc := by
  have apart : creator ≠ site.factory := external.2.2.2.2
  cases funded with
  | books same => exact .refl _ _
  | pull done =>
      simp only [MarketFactory.pull, bind_ok, pure_ok] at done
      rcases done with ⟨usdc, done, rfl⟩
      exact MockUSDC.transferFrom_spares other done
  | payFee done =>
      unfold MarketFactory.payFee at done
      split at done
      · simp only [bind_ok, pure_ok] at done
        rcases done with ⟨usdc, done, rfl⟩
        exact MockUSDC.transfer_spares apart done
      · rw [pure_ok] at done
        rw [done]
        exact .refl _ _
  | seed done =>
      rcases seed_parts done with ⟨m, seeded, rfl⟩
      have carries : MarketAMM.Carries site.ammSite (site.msg w site.factory timestamp).sender
          fun t u => Spares creator t.usdc u.usdc := spares_carries external apart
      exact (MockUSDC.approve_spares apart).trans (carries.seed seeded)

variable {questionId : Bytes32}

theorem Launches.frame (launched : Launches site w next sender timestamp questionId) :
    ∃ w1, Frame (site.ctf.hashes.conditionId site.oracle.self questionId) w1 next ∧
      w1.tokens.usdc = w.tokens.usdc ∧ w1.amm = w.amm ∧
      w1.tokens.ctf.outcomeSlots = Function.update w.tokens.ctf.outcomeSlots
        (site.ctf.hashes.conditionId site.oracle.self questionId) 2 ∧
      w1.oracle.operator = w.oracle.operator ∧ w1.oracle.factory = w.oracle.factory ∧
      (∀ c, c ≠ site.ctf.hashes.conditionId site.oracle.self questionId →
        w1.oracle.closeTime c = w.oracle.closeTime c) ∧
      w1.factory.operator = w.factory.operator ∧
      ∀ a, a ≠ sender → terms w1.factory a = terms w.factory a := by
  rcases launched.parts with ⟨factory, closeTime, w1, others, operator, created, funded⟩
  have frame : Frame (site.ctf.hashes.conditionId site.oracle.self questionId) w1 next := by
    clear launched
    induction funded with
    | refl => exact .refl _ _
    | tail _ step ih => exact ih.trans step.frame
  refine ⟨w1, frame, created.usdc, created.amm, ?_, ?_, ?_, fun c other => ?_, ?_,
    fun a other => ?_⟩
  · rw [created.ctf]
  · rw [created.oracle]
  · rw [created.oracle]
  · rw [created.oracle]
    exact Function.update_of_ne other _ _
  · exact (congrArg Prod.fst (created.terms zeroAddress)).trans operator
  · exact (created.terms a).trans (others a other)

/-- A new condition has no positions and no payouts before it is paid for. -/
theorem Created.stocked {closeTime : Nat} (created : Created site w next timestamp closeTime cid)
    (inv : Stocked site w.tokens) : Stocked site next.tokens := by
  refine ⟨?_, ?_, fun c fresh => ?_⟩
  · rw [created.usdc]
    exact inv.backed
  · rw [created.usdc]
    exact inv.unlimited
  · have other : c ≠ cid := by
      rintro rfl
      have prepared : next.tokens.ctf.outcomeSlots c = 2 := by
        rw [created.ctf]
        exact Function.update_self _ _ _
      rw [prepared] at fresh
      cases fresh
    have before : w.tokens.ctf.outcomeSlots c = 0 := by
      rw [created.ctf] at fresh
      exact (Function.update_of_ne other _ _).symm.trans fresh
    rcases inv.unprepared c before with ⟨nobody, unpaid, none⟩
    refine ⟨?_, ?_, fun o binary => ?_⟩
    · rw [created.ctf]
      exact (Function.update_of_ne other _ _).trans nobody
    · rw [created.ctf]
      exact unpaid
    · rw [← none o binary]
      exact ConditionalTokens.supply_congr (by rw [created.ctf]) c o

theorem Launches.stocked (named : Named site)
    (launched : Launches site w next sender timestamp questionId) (inv : Stocked site w.tokens) :
    Stocked site next.tokens := by
  rcases launched.parts with ⟨factory, closeTime, w1, -, -, created, funded⟩
  clear launched
  induction funded with
  | refl => exact created.stocked inv
  | tail _ step ih => exact step.stocked named ih

theorem Launches.spares (external : site.External creator) (other : creator ≠ sender)
    (launched : Launches site w next sender timestamp questionId) :
    Spares creator w.tokens.usdc next.tokens.usdc := by
  rcases launched.parts with ⟨factory, closeTime, w1, -, -, created, funded⟩
  clear launched
  induction funded with
  | refl =>
      rw [created.usdc]
      exact .refl _ _
  | tail _ step ih => exact ih.trans (step.spares external other)

end MarketFactory

/-! ### One call to any of the contracts -/

open MarketFactory (Stocked Named terms spares_carries stocked_carries)
open MockUSDC (Spares)
open ConditionalTokens (SameConditions)

variable {site : PlatformSite} {w next : Platform} {action : Platform.Action}
variable {creator operator : Address} {c : Bytes32}

/-- The condition a call prepares, if any. -/
def Platform.Action.prepares (site : PlatformSite) (action : Platform.Action) : Option Bytes32 :=
  match action.tx with
  | .tokens (.ctf (.prepareCondition oracle questionId)) =>
      some (site.ctf.hashes.conditionId oracle questionId)
  | .factory tx =>
      (tx.questionId site action.sender).map (site.ctf.hashes.conditionId site.oracle.self)
  | _ => none

/-- The tokens are stocked and the contracts have one operator. -/
structure Sound (site : PlatformSite) (operator : Address) (w : Platform) : Prop where
  tokens : Stocked site w.tokens
  amm : w.amm.operator = operator
  oracle : w.oracle.operator = operator
  factory : w.factory.operator = operator

theorem Sound.step (named : Named site) (inv : Sound site operator w)
    (step : Platform.Step site w action next) : Sound site operator next := by
  rcases action with ⟨sender, timestamp, tx⟩
  rcases step with ⟨⟨nonzero, -, -, notAmm, -⟩, done⟩
  cases tx with
  | tokens tx =>
      simp only [Platform.perform, bind_ok, pure_ok] at done
      rcases done with ⟨tokens, done, rfl⟩
      exact ⟨inv.tokens.exec nonzero notAmm done, inv.amm, inv.oracle, inv.factory⟩
  | amm tx =>
      simp only [Platform.perform, bind_ok, pure_ok] at done
      rcases done with ⟨m, done, rfl⟩
      have carries : MarketAMM.Carries site.ammSite (site.msg w sender timestamp).sender
          fun t u => Stocked site t → Stocked site u := stocked_carries named sender
      exact ⟨carries.exec done inv.tokens, (MarketAMM.exec_admin done).1.trans inv.amm,
        inv.oracle, inv.factory⟩
  | oracle tx =>
      simp only [Platform.perform, bind_ok, pure_ok] at done
      rcases done with ⟨court, done, rfl⟩
      refine ⟨?_, inv.amm, (ConsensusOracle.exec_registry done).1.trans inv.oracle, inv.factory⟩
      rcases ConsensusOracle.exec_reports done with same | ⟨c, outcome, reported⟩
      · rw [same]
        exact inv.tokens
      · exact inv.tokens.ctf site.oracle.self _ named.oracle reported
  | factory tx =>
      rcases MarketFactory.exec_launches done with
        ⟨questionId, -, launched⟩ | ⟨-, -, factory, rfl, same⟩
      · rcases launched.frame with ⟨w1, frame, -, amm, -, court, -, -, listed, -⟩
        refine ⟨launched.stocked named inv.tokens, ?_, ?_, ?_⟩
        · rw [frame.operator, amm, inv.amm]
        · rw [frame.oracle, court, inv.oracle]
        · exact (congrArg Prod.fst (frame.terms zeroAddress)).trans (listed.trans inv.factory)
      · exact ⟨inv.tokens, inv.amm, inv.oracle, same.trans inv.factory⟩

/-- A call prepares the condition it says and no other. -/
theorem step_slots (step : Platform.Step site w action next) (c : Bytes32) :
    next.tokens.ctf.outcomeSlots c =
      if action.prepares site = some c then 2 else w.tokens.ctf.outcomeSlots c := by
  rcases action with ⟨sender, timestamp, tx⟩
  rcases step with ⟨-, done⟩
  have updated : ∀ (cid : Bytes32) (slots : Bytes32 → Nat), Function.update slots cid 2 c =
      if some cid = some c then 2 else slots c := by
    intro cid slots
    rw [Function.update_apply]
    simp only [Option.some.injEq, eq_comm]
  cases tx with
  | tokens tx =>
      simp only [Platform.perform, bind_ok, pure_ok] at done
      rcases done with ⟨tokens, done, rfl⟩
      cases tx with
      | usdc tx =>
          simp only [Tokens.exec, bind_ok, pure_ok] at done
          rcases done with ⟨usdc, -, rfl⟩
          rfl
      | ctf tx =>
          cases tx with
          | prepareCondition oracle questionId =>
              simp only [Tokens.exec, ConditionalTokens.exec, bind_ok, pure_ok] at done
              rcases done with ⟨⟨cid, tokens⟩, prepared, rfl⟩
              rcases ConditionalTokens.prepareCondition_spec prepared with ⟨rfl, -, -, rfl⟩
              exact updated _ _
          | _ =>
              simp only [Tokens.exec] at done
              exact congrFun (ConditionalTokens.exec_keeps_slots (by rintro _ _ ⟨⟩) done) c
  | amm tx =>
      simp only [Platform.perform, bind_ok, pure_ok] at done
      rcases done with ⟨m, done, rfl⟩
      have carries : MarketAMM.Carries site.ammSite (site.msg w sender timestamp).sender
          fun t u => SameConditions t.ctf u.ctf := MarketAMM.conditions_carries site.ammSite sender
      exact congrFun (carries.exec done).outcomeSlots c
  | oracle tx =>
      simp only [Platform.perform, bind_ok, pure_ok] at done
      rcases done with ⟨court, done, rfl⟩
      rcases ConsensusOracle.exec_reports done with same | ⟨c', outcome, reported⟩
      · exact congrFun (congrArg (fun t : Tokens => t.ctf.outcomeSlots) same) c
      · exact congrFun (ConditionalTokens.exec_keeps_slots (by rintro _ _ ⟨⟩) reported) c
  | factory tx =>
      rcases MarketFactory.exec_launches done with
        ⟨questionId, asked, launched⟩ | ⟨unasked, -, factory, rfl, -⟩
      · rcases launched.frame with ⟨w1, frame, -, -, slots, -⟩
        rw [frame.slots, slots, updated]
        simp only [Platform.Action.prepares, asked, Option.map_some]
      · simp only [Platform.Action.prepares, unasked, Option.map_none, reduceCtorEq, if_false]

/-! ### Calls of outsiders -/

/-- What a listing of `creator` under the condition `c` depends on stays as it is. -/
structure Undisturbed (creator : Address) (c : Bytes32) (w next : Platform) : Prop where
  spares : Spares creator w.tokens.usdc next.tokens.usdc
  slots : next.tokens.ctf.outcomeSlots c = w.tokens.ctf.outcomeSlots c
  pool : (next.amm.pools c).exists = (w.amm.pools c).exists
  opener : next.amm.factory = w.amm.factory
  registrar : next.oracle.factory = w.oracle.factory
  closeTime : next.oracle.closeTime c = w.oracle.closeTime c
  terms : terms next.factory creator = MarketFactory.terms w.factory creator

theorem Undisturbed.refl (creator : Address) (c : Bytes32) (w : Platform) :
    Undisturbed creator c w w :=
  ⟨.refl _ _, rfl, rfl, rfl, rfl, rfl, rfl⟩

theorem Undisturbed.trans {w1 w2 w3 : Platform} (first : Undisturbed creator c w1 w2)
    (second : Undisturbed creator c w2 w3) : Undisturbed creator c w1 w3 :=
  ⟨first.spares.trans second.spares, second.slots.trans first.slots,
    second.pool.trans first.pool, second.opener.trans first.opener,
    second.registrar.trans first.registrar, second.closeTime.trans first.closeTime,
    second.terms.trans first.terms⟩

/-- A call by neither the creator nor the operator, and not of the collateral token. -/
structure Platform.Action.Outsider (creator operator : Address) (action : Platform.Action) :
    Prop where
  other : action.sender ≠ creator
  unprivileged : action.sender ≠ operator
  contracts : ∀ tx, action.tx ≠ .tokens (.usdc tx)

/-- A step of an outsider that prepares another condition or none disturbs nothing. -/
theorem outsider_step (external : site.External creator) (inv : Sound site operator w)
    (opener : w.amm.factory = site.factory) (registrar : w.oracle.factory = site.factory)
    (outsider : action.Outsider creator operator)
    (step : Platform.Step site w action next) (elsewhere : action.prepares site ≠ some c) :
    Undisturbed creator c w next := by
  have slots : next.tokens.ctf.outcomeSlots c = w.tokens.ctf.outcomeSlots c := by
    rw [step_slots step c, if_neg elsewhere]
  rcases action with ⟨sender, timestamp, tx⟩
  rcases step with ⟨⟨-, -, -, -, notFactory⟩, done⟩
  have other : creator ≠ sender := outsider.other.symm
  have unprivileged : sender ≠ operator := outsider.unprivileged
  cases tx with
  | tokens tx =>
      simp only [Platform.perform, bind_ok, pure_ok] at done
      rcases done with ⟨tokens, done, rfl⟩
      refine ⟨?_, slots, rfl, rfl, rfl, rfl, rfl⟩
      cases tx with
      | usdc tx => exact absurd rfl (outsider.contracts tx)
      | ctf tx =>
          rcases ConditionalTokens.exec_usdc done with same | ⟨amount, drawn⟩ | ⟨amount, paid⟩
          · rw [same]
            exact .refl _ _
          · exact MockUSDC.transferFrom_spares other drawn
          · exact MockUSDC.transfer_spares external.2.1 paid
  | amm tx =>
      simp only [Platform.perform, bind_ok, pure_ok] at done
      rcases done with ⟨m, done, rfl⟩
      have powerless : sender ≠ w.amm.factory ∧ sender ≠ w.amm.operator := by
        rw [opener, inv.amm]
        exact ⟨notFactory, unprivileged⟩
      have carries : MarketAMM.Carries site.ammSite (site.msg w sender timestamp).sender
          fun t u => Spares creator t.usdc u.usdc := spares_carries external other
      refine ⟨carries.exec done, slots, MarketAMM.exec_opens_nothing powerless done c, ?_,
        rfl, rfl, rfl⟩
      exact (MarketAMM.exec_admin done).2.resolve_right powerless.2
  | oracle tx =>
      simp only [Platform.perform, bind_ok, pure_ok] at done
      rcases done with ⟨court, done, rfl⟩
      have same : ConsensusOracle.SameRegistry w.oracle court.oracle := by
        refine (ConsensusOracle.exec_registry done).2.resolve_right (not_or.mpr ⟨?_, ?_⟩)
        · exact inv.oracle ▸ unprivileged
        · exact registrar ▸ notFactory
      refine ⟨?_, slots, rfl, rfl, same.factory, congrFun same.closeTime c, rfl⟩
      rcases ConsensusOracle.exec_reports done with same | ⟨c', outcome, reported⟩
      · rw [same]
        exact .refl _ _
      · simp only [ConditionalTokens.exec, bind_ok, pure_ok] at reported
        rcases reported with ⟨ctf, -, same⟩
        rw [same]
        exact .refl _ _
  | factory tx =>
      rcases MarketFactory.exec_launches done with
        ⟨questionId, asked, launched⟩ | ⟨-, mine, -⟩
      · have apart : c ≠ site.ctf.hashes.conditionId site.oracle.self questionId := by
          rintro rfl
          exact elsewhere (by simp only [Platform.Action.prepares, asked, Option.map_some])
        rcases launched.frame with ⟨w1, frame, -, amm, -, -, listed, closes, -, kept⟩
        refine ⟨launched.spares external other, slots, ?_, ?_, ?_, ?_, ?_⟩
        · rw [frame.pools c apart, amm]
        · rw [frame.factory, amm]
        · rw [frame.oracle, listed]
        · rw [frame.oracle, closes c apart]
        · rw [frame.terms, kept creator other]
      · exact absurd (mine.trans inv.factory) unprivileged

end OverUnder.Contracts
