/-
Module: OverUnder.Proofs.MarketCreation
Purpose: What accounts other than the creator and the operator can do to a market
  creation that would succeed: nothing, unless one of their calls prepares its condition.
Trusted boundary: none
Main exports: Creation, Creation.Succeeds, Ready, succeeds_iff, Platform.Deployed,
  creation_survives_iff
-/
import OverUnder.Library.Reachable
import OverUnder.Proofs.MarketFrames

namespace OverUnder.Contracts

open OverUnder.Vyper
open OverUnder.Library
open MarketFactory (Stocked Named Created terms)
open ConditionalTokens (supply)
open NormalMath (wad)

variable {site : PlatformSite} {w w' next : Platform}
variable {creator operator : Address} {timestamp : Nat}

/-- The calls that create a market nobody is the parent of. -/
inductive Creation where
  | primary (questionId : Bytes32) (closeTime : Nat) (question : Question) (seedUsdc : Nat)
  | permissionless (salt : Bytes32) (closeTime : Nat) (question : Question)
      (criteriaHash : Bytes32) (seedUsdc : Nat)

namespace Creation

/-- The call to the factory. -/
def tx : Creation → MarketFactory.Tx
  | primary questionId closeTime question seedUsdc =>
      .createPrimaryMarket questionId closeTime question seedUsdc
  | permissionless salt closeTime question criteriaHash seedUsdc =>
      .createPermissionlessMarket salt closeTime question criteriaHash seedUsdc

def questionId (site : PlatformSite) (creator : Address) : Creation → Bytes32
  | primary questionId .. => questionId
  | permissionless salt .. => site.userQuestionId creator salt

/-- The condition of the new market. -/
def conditionId (site : PlatformSite) (creator : Address) (creation : Creation) : Bytes32 :=
  site.ctf.hashes.conditionId site.oracle.self (creation.questionId site creator)

def closeTime : Creation → Nat
  | primary _ closeTime .. => closeTime
  | permissionless _ closeTime .. => closeTime

def seedUsdc : Creation → Nat
  | primary _ _ _ seedUsdc => seedUsdc
  | permissionless _ _ _ _ seedUsdc => seedUsdc

/-- The listing fee. -/
def fee (x : MarketFactory) : Creation → Nat
  | primary .. => 0
  | permissionless .. => x.listingFeeUsdc

/-- What the factory checks of the caller and of the arguments. -/
def Allowed (x : MarketFactory) (creator : Address) (timestamp : Nat) : Creation → Prop
  | primary _ _ _ seedUsdc => creator = x.operator ∧ seedUsdc > 0
  | permissionless _ closeTime question criteriaHash seedUsdc =>
      MarketFactory.checkListing x creator timestamp closeTime question criteriaHash seedUsdc =
          .ok () ∧
        seedUsdc + x.listingFeeUsdc < wordSize

/-- The call would not revert. -/
def Succeeds (site : PlatformSite) (w : Platform) (creator : Address) (timestamp : Nat)
    (creation : Creation) : Prop :=
  ∃ next, MarketFactory.exec site w creator timestamp creation.tx = .ok next

end Creation

/-- What the other contracts have to agree to. -/
structure Ready (site : PlatformSite) (w : Platform) (creator : Address)
    (timestamp closeTime : Nat) (c : Bytes32) (seedUsdc fee : Nat) : Prop where
  later : timestamp < closeTime
  registrar : w.oracle.factory = site.factory
  unregistered : w.oracle.closeTime c = 0
  opener : w.amm.factory = site.factory
  absent : (w.amm.pools c).exists = false
  enough : MarketAMM.minLp ≤ seedUsdc
  small : seedUsdc * wad < wordSize
  allowed : w.tokens.usdc.allowance (creator, site.factory) = MockUSDC.maxAllowance ∨
    seedUsdc + fee ≤ w.tokens.usdc.allowance (creator, site.factory)
  covered : seedUsdc + fee ≤ w.tokens.usdc.balanceOf creator

theorem Ready.undisturbed {closeTime seedUsdc fee : Nat} {c : Bytes32}
    (ready : Ready site w creator timestamp closeTime c seedUsdc fee)
    (same : Undisturbed creator c w w') :
    Ready site w' creator timestamp closeTime c seedUsdc fee where
  later := ready.later
  registrar := same.registrar.trans ready.registrar
  unregistered := same.closeTime.trans ready.unregistered
  opener := same.opener.trans ready.opener
  absent := same.pool.trans ready.absent
  enough := ready.enough
  small := ready.small
  allowed := by
    rw [same.spares.allowances]
    exact ready.allowed
  covered := ready.covered.trans same.spares.balance

/-- The terms of a listing decide what the factory checks. -/
theorem Creation.allowed_congr {x x' : MarketFactory} {creation : Creation}
    (same : terms x' creator = terms x creator) :
    creation.Allowed x' creator timestamp ↔ creation.Allowed x creator timestamp := by
  simp only [MarketFactory.terms, Prod.mk.injEq] at same
  rcases same with ⟨operator, permissionless, lister, minSeed, fee, lead, horizon, cooldown, last⟩
  cases creation with
  | primary => simp only [Creation.Allowed, operator]
  | permissionless =>
      simp only [Creation.Allowed, MarketFactory.checkListing, permissionless, lister, minSeed, fee,
        lead, horizon, cooldown, last]

theorem Creation.fee_congr {x x' : MarketFactory} {creation : Creation}
    (same : terms x' creator = terms x creator) : creation.fee x' = creation.fee x := by
  simp only [MarketFactory.terms, Prod.mk.injEq] at same
  cases creation with
  | primary => rfl
  | permissionless => exact same.2.2.2.2.1

/-! ### What a creation needs -/

namespace MarketFactory

variable {c cid : Bytes32} {amount seedUsdc fee closeTime marketType : Nat} {question : Question}

/-- A prepared and registered condition without positions whose creator can pay for it. -/
structure Fundable (site : PlatformSite) (w : Platform) (creator : Address) (c : Bytes32)
    (seedUsdc fee : Nat) : Prop where
  backed : w.tokens.usdc.Backed
  unlimited : w.tokens.usdc.allowance (site.amm, site.ctf.self) = MockUSDC.maxAllowance
  prepared : w.tokens.ctf.outcomeSlots c = 2
  unresolved : w.tokens.ctf.payoutDenominator c = 0
  none : ∀ o, o < 2 → supply site.ctf w.tokens.ctf c o = 0
  opener : w.amm.factory = site.factory
  absent : (w.amm.pools c).exists = false
  registered : w.oracle.closeTime c ≠ 0
  enough : MarketAMM.minLp ≤ seedUsdc
  small : seedUsdc * wad < wordSize
  allowed : w.tokens.usdc.allowance (creator, site.factory) = MockUSDC.maxAllowance ∨
    seedUsdc + fee ≤ w.tokens.usdc.allowance (creator, site.factory)
  covered : seedUsdc + fee ≤ w.tokens.usdc.balanceOf creator

/-- The books of the factory do not matter to the money. -/
theorem Fundable.books (ready : Fundable site w creator c seedUsdc fee) (factory : MarketFactory) :
    Fundable site { w with factory } creator c seedUsdc fee :=
  ⟨ready.backed, ready.unlimited, ready.prepared, ready.unresolved, ready.none, ready.opener,
    ready.absent, ready.registered, ready.enough, ready.small, ready.allowed, ready.covered⟩

/-- `_create` needs a fresh condition and the factory as the registrar. -/
theorem create_succeeds (w : Platform) {questionId : Bytes32} (marketType : Nat)
    (question : Question) (named : Named site)
    (later : timestamp < closeTime) (registrar : w.oracle.factory = site.factory)
    (unregistered : w.oracle.closeTime
      (site.ctf.hashes.conditionId site.oracle.self questionId) = 0)
    (fresh : w.tokens.ctf.outcomeSlots
      (site.ctf.hashes.conditionId site.oracle.self questionId) = 0) :
    ∃ next, create site w timestamp questionId 0 closeTime marketType question =
      .ok (site.ctf.hashes.conditionId site.oracle.self questionId, next) := by
  have positive : closeTime > 0 := Nat.zero_lt_of_lt later
  simp only [create, checkParent, ConditionalTokens.prepareCondition,
    ConsensusOracle.registerMarket, bind_ok, require_ok, pure_ok, exists_const, ne_eq,
    not_true_eq_false, if_false, Prod.mk.injEq]
  exact ⟨_, later, trivial, _, ⟨named.oracle, fresh, rfl⟩, _,
    ⟨.inl registrar.symm, positive, unregistered, rfl⟩, rfl, rfl⟩

/-- Nobody holds a position of which there are none. -/
theorem unheld {ctf : ConditionalTokens} {o : Nat} (a : Address)
    (none : supply site.ctf ctf c o = 0) :
    ctf.balanceOf (a, ConditionalTokens.pid site.ctf c o) = 0 :=
  Nat.le_zero.mp (none ▸ le_columnTotal _ _ _)

theorem split_succeeds {t : Tokens} (backed : t.usdc.Backed)
    (unlimited : t.usdc.allowance (site.amm, site.ctf.self) = MockUSDC.maxAllowance)
    (prepared : t.ctf.outcomeSlots c = 2) (unresolved : t.ctf.payoutDenominator c = 0)
    (none : ∀ o, o < 2 → supply site.ctf t.ctf c o = 0)
    (covered : amount ≤ t.usdc.balanceOf site.amm) (small : amount < wordSize) :
    ∃ u, ConditionalTokens.splitPosition site.ctf t site.amm c amount = .ok u := by
  obtain ⟨usdc, paid⟩ : ∃ usdc,
      t.usdc.transferFrom site.ctf.self site.amm site.ctf.self amount = .ok usdc :=
    MockUSDC.transferFrom_succeeds backed (.inl unlimited) covered
  have apart : (site.amm, ConditionalTokens.pid site.ctf c 1) ≠
      (site.amm, ConditionalTokens.pid site.ctf c 0) := fun pair =>
    ConditionalTokens.pid_ne site.ctf (.inr (by decide)) (congrArg Prod.snd pair)
  have yes := unheld site.amm (none 0 (by decide))
  have no := unheld site.amm (none 1 (by decide))
  simp only [ConditionalTokens.splitPosition, bind_ok, require_ok, credit_ok, pure_ok,
    exists_const]
  refine ⟨_, prepared, unresolved, usdc, paid, _, ⟨?_, rfl⟩, _, ⟨?_, rfl⟩, rfl⟩
  · rw [yes, Nat.zero_add]
    exact small
  · rw [Function.update_of_ne apart, no, Nat.zero_add]
    exact small

/-- `_seed` once the factory has the money. -/
theorem seed_succeeds (timestamp : Nat) (named : Named site) (external : site.External creator)
    (ready : Fundable site w creator c seedUsdc fee) {usdc : MockUSDC} (backed : usdc.Backed)
    (unlimited : usdc.allowance (site.amm, site.ctf.self) = MockUSDC.maxAllowance)
    (covered : seedUsdc ≤ usdc.balanceOf site.factory) :
    ∃ next, seed site { w with tokens := { w.tokens with usdc } } creator timestamp c seedUsdc =
      .ok next := by
  have apart : (site.amm, site.ctf.self) ≠ (site.factory, site.amm) := fun pair =>
    site.factoryApart.2 (congrArg Prod.fst pair).symm
  have allowance : (usdc.approve site.factory site.amm seedUsdc).allowance
      (site.factory, site.amm) = seedUsdc := Function.update_self _ _ _
  obtain ⟨pulled, paid⟩ : ∃ pulled, (usdc.approve site.factory site.amm seedUsdc).transferFrom
      site.amm site.factory site.amm seedUsdc = .ok pulled :=
    MockUSDC.transferFrom_succeeds ⟨backed.supply_eq, backed.fits⟩
      (.inr allowance.ge) covered
  have approved : (usdc.approve site.factory site.amm seedUsdc).allowance
      (site.amm, site.ctf.self) = MockUSDC.maxAllowance :=
    (Function.update_of_ne apart _ _).trans unlimited
  have received : seedUsdc ≤ pulled.balanceOf site.amm := by
    have entry := (MockUSDC.transferFrom_spec paid).1.entry site.amm
    rw [if_neg site.factoryApart.2.symm, if_pos rfl] at entry
    omega
  have narrow : seedUsdc < wordSize :=
    (Nat.le_mul_of_pos_right _ (by decide)).trans_lt ready.small
  have backed' : (usdc.approve site.factory site.amm seedUsdc).Backed :=
    ⟨backed.supply_eq, backed.fits⟩
  have moved : (usdc.approve site.factory site.amm seedUsdc).exec site.amm
      (.transferFrom site.factory site.amm seedUsdc) = .ok pulled := paid
  obtain ⟨tokens, split⟩ : ∃ tokens, ConditionalTokens.splitPosition site.ctf
      { w.tokens with usdc := pulled } site.amm c seedUsdc = .ok tokens :=
    split_succeeds (MockUSDC.exec_backed backed' moved)
      (MockUSDC.transferFrom_keeps_unlimited approved paid) ready.prepared ready.unresolved
      ready.none received narrow
  have registered : w.oracle.closeTime c > 0 := Nat.pos_of_ne_zero ready.registered
  have close : (site.msg w site.factory timestamp).oracleCloseTime site.oracle.self c =
      .ok (w.oracle.closeTime c) := if_pos rfl
  have oracle : (site.msg w site.factory timestamp).factoryOracle w.amm.factory =
      .ok site.oracle.self := if_pos ready.opener
  have absent : ¬(w.amm.pools c).exists = true := ready.absent ▸ Bool.false_ne_true
  have listed : w.amm.factory ≠ zeroAddress := ready.opener ▸ named.factory
  simp only [seed, MarketAMM.seedPoolFor, MarketAMM.seed, MarketAMM.pullUsdc,
    MarketAMM.splitPosition, MarketAMM.mulDiv, bind_ok, require_ok, umul_ok, udiv_ok, pure_ok,
    exists_const]
  exact ⟨_, _, ⟨.inl ready.opener.symm, ready.enough, external.1, absent, listed, _, oracle, _,
    close, registered, _, ⟨_, paid, rfl⟩, _, split, _, ⟨_, ⟨ready.small, rfl⟩, by decide, rfl⟩,
    rfl⟩, rfl⟩

/-- The money of a creation moves when the creator has it. -/
theorem fund_succeeds (timestamp : Nat) (named : Named site) (external : site.External creator)
    (ready : Fundable site w creator c seedUsdc fee) :
    ∃ w2 w3 w4, pull site w creator (seedUsdc + fee) = .ok w2 ∧ payFee site w2 fee = .ok w3 ∧
      seed site w3 creator timestamp c seedUsdc = .ok w4 := by
  obtain ⟨drawn, pulled⟩ : ∃ drawn, w.tokens.usdc.transferFrom site.factory creator site.factory
      (seedUsdc + fee) = .ok drawn :=
    MockUSDC.transferFrom_succeeds ready.backed ready.allowed ready.covered
  have taken : w.tokens.usdc.exec site.factory (.transferFrom creator site.factory
      (seedUsdc + fee)) = .ok drawn := pulled
  have backed : drawn.Backed := MockUSDC.exec_backed ready.backed taken
  have unlimited := MockUSDC.transferFrom_keeps_unlimited ready.unlimited pulled
  have received : seedUsdc + fee ≤ drawn.balanceOf site.factory := by
    have entry := (MockUSDC.transferFrom_spec pulled).1.entry site.factory
    rw [if_neg external.2.2.2.2.symm, if_pos rfl] at entry
    omega
  have pull : pull site w creator (seedUsdc + fee) =
      .ok { w with tokens := { w.tokens with usdc := drawn } } := by
    simp only [MarketFactory.pull, bind_ok, pure_ok]
    exact ⟨drawn, pulled, rfl⟩
  by_cases free : fee > 0
  · obtain ⟨paid, sent⟩ : ∃ paid, drawn.transfer site.factory w.factory.feeRecipient fee =
        .ok paid := MockUSDC.transfer_succeeds backed (by omega)
    rcases MockUSDC.transfer_spec sent with ⟨moved, -, allowance⟩
    have left : seedUsdc ≤ paid.balanceOf site.factory := by
      have entry := moved.entry site.factory
      rw [if_pos rfl] at entry
      omega
    have given : drawn.exec site.factory (.transfer w.factory.feeRecipient fee) = .ok paid := sent
    obtain ⟨w4, seeded⟩ := seed_succeeds timestamp named external ready
      (MockUSDC.exec_backed backed given) (by rw [allowance, unlimited]) left
    refine ⟨_, _, w4, pull, ?_, seeded⟩
    simp only [payFee, if_pos free, bind_ok, pure_ok]
    exact ⟨paid, sent, rfl⟩
  · obtain ⟨w4, seeded⟩ := seed_succeeds timestamp named external ready backed
      unlimited (by omega)
    refine ⟨_, _, w4, pull, ?_, seeded⟩
    simp only [payFee, if_neg free, pure_ok]

/-- What the pull and the seed of a creation say about the state before them. -/
structure Funded (site : PlatformSite) (w : Platform) (creator : Address) (c : Bytes32)
    (seedUsdc owed : Nat) : Prop where
  opener : w.amm.factory = site.factory ∨ site.factory = w.amm.operator
  absent : (w.amm.pools c).exists = false
  enough : MarketAMM.minLp ≤ seedUsdc
  small : seedUsdc * wad < wordSize
  allowed : w.tokens.usdc.allowance (creator, site.factory) = MockUSDC.maxAllowance ∨
    owed ≤ w.tokens.usdc.allowance (creator, site.factory)
  covered : owed ≤ w.tokens.usdc.balanceOf creator

theorem funded {w2 w3 : Platform} {owed : Nat} (pulled : pull site w creator owed = .ok w2)
    (paid : payFee site w2 fee = .ok w3)
    (seeded : seed site w3 creator timestamp c seedUsdc = .ok next) :
    Funded site w creator c seedUsdc owed := by
  have amm : w3.amm = w.amm := by
    simp only [pull, bind_ok, pure_ok] at pulled
    rcases pulled with ⟨usdc, -, rfl⟩
    unfold payFee at paid
    split at paid
    · simp only [bind_ok, pure_ok] at paid
      rcases paid with ⟨usdc, -, rfl⟩
      rfl
    · rw [pure_ok] at paid
      rw [paid]
  simp only [pull, bind_ok, pure_ok] at pulled
  rcases pulled with ⟨usdc, drawn, rfl⟩
  simp only [seed, MarketAMM.seedPoolFor, MarketAMM.seed, MarketAMM.mulDiv, bind_ok, require_ok,
    umul_ok, udiv_ok, pure_ok, exists_const, amm] at seeded
  rcases seeded with ⟨m, ⟨opener, enough, -, absent, -, oracle, -, close, -, -, tokens, -, split, -,
    liquidity, ⟨product, ⟨small, -⟩, -⟩, -⟩, -⟩
  exact ⟨opener.imp Eq.symm id, Bool.eq_false_of_not_eq_true absent, enough, small,
    MockUSDC.transferFrom_allowed drawn, (MockUSDC.transferFrom_spec drawn).1.covered⟩

end MarketFactory

open MarketFactory (Fundable Funded create_succeeds create_spec fund_succeeds funded)

namespace Creation

variable {creation : Creation}

/-- `_create` leaves the listing fee as it is. -/
theorem listingFee {w1 : Platform} {closeTime : Nat} {c : Bytes32}
    (created : Created site w w1 timestamp closeTime c) :
    w1.factory.listingFeeUsdc = w.factory.listingFeeUsdc := by
  have same := created.terms zeroAddress
  simp only [terms, Prod.mk.injEq] at same
  exact same.2.2.2.2.1

/-- After `_create` the condition is prepared, registered and without positions. -/
theorem fundable (inv : Sound site operator w) {w1 : Platform} (factory : MarketFactory)
    {closeTime seedUsdc fee : Nat} {c : Bytes32}
    (ready : Ready site w creator timestamp closeTime c seedUsdc fee)
    (fresh : w.tokens.ctf.outcomeSlots c = 0)
    (created : Created site { w with factory } w1 timestamp closeTime c) :
    Fundable site w1 creator c seedUsdc fee := by
  rcases inv.tokens.unprepared c fresh with ⟨-, unpaid, none⟩
  refine ⟨?_, ?_, ?_, ?_, fun o binary => ?_, ?_, ?_, ?_, ready.enough, ready.small, ?_, ?_⟩
  · rw [created.usdc]
    exact inv.tokens.backed
  · rw [created.usdc]
    exact inv.tokens.unlimited
  · rw [created.ctf]
    exact Function.update_self _ _ _
  · rw [created.ctf]
    exact unpaid
  · rw [← none o binary]
    exact ConditionalTokens.supply_congr (by rw [created.ctf]) c o
  · rw [created.amm]
    exact ready.opener
  · rw [created.amm]
    exact ready.absent
  · rw [created.oracle]
    exact (Function.update_self _ _ _).trans_ne (Nat.ne_zero_of_lt ready.later)
  · rw [created.usdc]
    exact ready.allowed
  · rw [created.usdc]
    exact ready.covered

/-- What a creation that went through says about the state it started from. -/
theorem ready_of_funded (inv : Sound site operator w) (external : site.External operator)
    {w1 : Platform} (factory : MarketFactory) {closeTime seedUsdc : Nat} (fee : Nat) {c : Bytes32}
    (created : Created site { w with factory } w1 timestamp closeTime c)
    (funded : Funded site w1 creator c seedUsdc (seedUsdc + fee)) :
    Ready site w creator timestamp closeTime c seedUsdc fee := by
  have apart : site.factory ≠ operator := external.2.2.2.2.symm
  rcases funded with ⟨opener, absent, enough, small, allowed, covered⟩
  rw [created.amm] at opener absent
  rw [created.usdc] at allowed covered
  refine ⟨created.later, ?_, created.unregistered, ?_, absent, enough, small, allowed, covered⟩
  · exact (created.registrar.resolve_right fun mine => apart (mine.trans inv.oracle)).symm
  · exact opener.resolve_right fun mine => apart (mine.trans inv.amm)

/-- A creation succeeds when the factory and the other contracts agree to it and nobody
prepared its condition. -/
theorem succeeds_iff (named : Named site) (inv : Sound site operator w)
    (operated : site.External operator) (external : site.External creator) :
    creation.Succeeds site w creator timestamp ↔
      creation.Allowed w.factory creator timestamp ∧
        Ready site w creator timestamp creation.closeTime (creation.conditionId site creator)
          creation.seedUsdc (creation.fee w.factory) ∧
        w.tokens.ctf.outcomeSlots (creation.conditionId site creator) = 0 := by
  cases creation with
  | primary questionId closeTime question seedUsdc =>
      constructor
      · rintro ⟨next, done⟩
        simp only [tx, MarketFactory.exec, MarketFactory.creating,
          MarketFactory.createPrimaryMarket, bind_ok, require_ok, pure_ok, exists_const] at done
        rcases done with ⟨_, ⟨mine, positive, ⟨cid, w1⟩, created, w2, pulled, w3, seeded, -⟩, -⟩
        rcases create_spec created with ⟨rfl, created⟩
        have paid : MarketFactory.payFee site w2 0 = .ok w2 := rfl
        exact ⟨⟨mine, positive⟩, ready_of_funded inv operated w.factory 0
          created (funded pulled paid seeded), created.fresh⟩
      · rintro ⟨⟨mine, positive⟩, ready, fresh⟩
        obtain ⟨w1, created⟩ := create_succeeds w 0 question named
          ready.later ready.registrar ready.unregistered fresh
        obtain ⟨w2, w3, w4, pulled, paid, seeded⟩ := fund_succeeds timestamp named
          external (fundable inv w.factory ready fresh (create_spec created).2)
        cases paid
        simp only [Succeeds, tx, MarketFactory.exec, MarketFactory.creating,
          MarketFactory.createPrimaryMarket, bind_ok, require_ok, pure_ok, exists_const]
        exact ⟨w4, _, ⟨mine, positive, _, created, w2, pulled, w4, seeded, rfl⟩, rfl⟩
  | permissionless salt closeTime question criteriaHash seedUsdc =>
      constructor
      · rintro ⟨next, done⟩
        simp only [tx, MarketFactory.exec, MarketFactory.creating,
          MarketFactory.createPermissionlessMarket, bind_ok, uadd_ok, pure_ok] at done
        rcases done with ⟨_, ⟨_, checked, ⟨cid, w1⟩, created, owed, ⟨fits, rfl⟩, w2, pulled, w3,
          paid, w4, seeded, -⟩, -⟩
        rcases create_spec created with ⟨rfl, created⟩
        have fee : w1.factory.listingFeeUsdc = w.factory.listingFeeUsdc :=
          (listingFee created :)
        rw [fee] at fits pulled paid
        rcases funded pulled paid seeded with ⟨opener, absent, enough, small, allowed, covered⟩
        exact ⟨⟨checked, fits⟩, ready_of_funded inv operated _ _ created
          ⟨opener, absent, enough, small, allowed, covered⟩, created.fresh⟩
      · rintro ⟨⟨checked, fits⟩, ready, fresh⟩
        obtain ⟨w1, created⟩ := create_succeeds { w with factory := { w.factory with
            lastListedAt := Function.update w.factory.lastListedAt creator timestamp } }
          MarketFactory.marketTypeUser question named
          ready.later ready.registrar ready.unregistered fresh
        have spec := (create_spec created).2
        have fee : w1.factory.listingFeeUsdc = w.factory.listingFeeUsdc := (listingFee spec :)
        obtain ⟨w2, w3, w4, pulled, paid, seeded⟩ := fund_succeeds timestamp named
          external ((fundable inv _ ready fresh spec).books { w1.factory with
            creatorOf := Function.update w1.factory.creatorOf
              (site.ctf.hashes.conditionId site.oracle.self (site.userQuestionId creator salt)) creator
            seedOf := Function.update w1.factory.seedOf
              (site.ctf.hashes.conditionId site.oracle.self (site.userQuestionId creator salt)) seedUsdc
            criteriaHashOf := Function.update w1.factory.criteriaHashOf
              (site.ctf.hashes.conditionId site.oracle.self (site.userQuestionId creator salt))
              criteriaHash })
        have charged : Creation.fee w.factory (.permissionless salt closeTime question criteriaHash
            seedUsdc) = w1.factory.listingFeeUsdc := fee.symm
        rw [charged] at pulled paid
        rw [← fee] at fits
        simp only [Succeeds, tx, MarketFactory.exec, MarketFactory.creating,
          MarketFactory.createPermissionlessMarket, bind_ok, uadd_ok, pure_ok]
        exact ⟨w4, _, ⟨(), checked, _, created, _, ⟨fits, rfl⟩, w2, pulled, w3, paid, w4, seeded,
          rfl⟩, rfl⟩

end Creation

/-! ### Runs -/

/-- The contracts as one operator deploys them, over fresh outcome tokens and any backed
collateral. -/
structure Platform.Deployed (site : PlatformSite) (operator : Address) (first : Platform) :
    Prop where
  named : Named site
  operated : site.External operator
  tokens : ∃ tokens feeVault, Tokens.Initial site.ctf tokens ∧
    MarketAMM.deploy site.ammSite tokens feeVault operator = .ok ⟨first.tokens, first.amm⟩
  oracle : ∃ agents, first.oracle = .deployed operator agents
  factory : ∃ wildcardGenerator, first.factory = .deployed operator wildcardGenerator

/-- Any call to any of the contracts. -/
def Platform.Called (site : PlatformSite) (w next : Platform) : Prop :=
  ∃ action, Platform.Step site w action next

/-- A call of somebody who neither creates the market nor operates the platform. -/
structure Platform.Meddles (site : PlatformSite) (creator operator : Address) (w : Platform)
    (action : Platform.Action) (next : Platform) : Prop where
  outsider : action.Outsider creator operator
  step : Platform.Step site w action next

theorem Platform.Deployed.sound {first : Platform}
    (deployed : Platform.Deployed site operator first) :
    Sound site operator first := by
  rcases deployed with
    ⟨named, operated, ⟨tokens, feeVault, initial, launched⟩, ⟨agents, court⟩, ⟨generator, books⟩⟩
  simp only [MarketAMM.deploy, bind_ok, require_ok, pure_ok, Market.mk.injEq, exists_const]
    at launched
  rcases launched with ⟨-, tokens, amm⟩
  refine ⟨?_, by rw [amm], by rw [court]; rfl, by rw [books]; rfl⟩
  rw [tokens]
  refine ⟨⟨initial.backed.supply_eq, initial.backed.fits⟩, Function.update_self _ _ _,
    fun c fresh => ?_⟩
  simp only [initial.fresh]
  exact ⟨rfl, rfl, fun o _ => ConditionalTokens.supply_deployed c o⟩

theorem reachable_sound
    (reached : Reachable (Platform.Deployed site operator) (Platform.Called site) w) :
    Named site ∧ site.External operator ∧ Sound site operator w := by
  refine reached.invariant (I := fun w => Named site ∧ site.External operator ∧
    Sound site operator w) (fun first deployed => ⟨deployed.named, deployed.operated,
      deployed.sound⟩) ?_
  rintro w next ⟨named, operated, inv⟩ ⟨action, step⟩
  exact ⟨named, operated, inv.step named step⟩

/-- Where a run of outsiders leads: nothing is disturbed, or the condition is prepared. -/
structure Meddled (site : PlatformSite) (creator operator : Address) (c : Bytes32) (w : Platform)
    (calls : List Platform.Action) (w' : Platform) : Prop where
  sound : Sound site operator w'
  undisturbed : (∀ call ∈ calls, call.prepares site ≠ some c) → Undisturbed creator c w w'
  prepared : (∃ call ∈ calls, call.prepares site = some c) → w'.tokens.ctf.outcomeSlots c = 2

theorem Meddled.step {c : Bytes32} {calls : List Platform.Action} {action : Platform.Action}
    (named : Named site) (external : site.External creator)
    (opener : w.amm.factory = site.factory) (registrar : w.oracle.factory = site.factory)
    (inv : Meddled site creator operator c w calls w')
    (taken : Platform.Meddles site creator operator w' action next) :
    Meddled site creator operator c w (calls ++ [action]) next := by
  have slots := step_slots taken.step c
  refine ⟨inv.sound.step named taken.step, fun elsewhere => ?_, ?_⟩
  · have before : Undisturbed creator c w w' :=
      inv.undisturbed fun call made => elsewhere call (List.mem_append_left _ made)
    exact before.trans (outsider_step external inv.sound (before.opener.trans opener)
      (before.registrar.trans registrar) taken.outsider taken.step
      (elsewhere action (List.mem_append_right _ (.head _))))
  · rintro ⟨call, made, prepares⟩
    by_cases now : action.prepares site = some c
    · rw [slots, if_pos now]
    · rw [slots, if_neg now]
      rcases List.mem_append.mp made with earlier | last
      · exact inv.prepared ⟨call, earlier, prepares⟩
      · rw [List.mem_singleton.mp last] at prepares
        exact absurd prepares now

/-- A market creation that would succeed still does after any calls of outsiders, exactly
when none of them prepares its condition. -/
theorem creation_survives_iff {creation : Creation} {calls : List Platform.Action}
    (reached : Reachable (Platform.Deployed site operator) (Platform.Called site) w)
    (external : site.External creator) (succeeds : creation.Succeeds site w creator timestamp)
    (path : Run (Platform.Meddles site creator operator) w calls w') :
    creation.Succeeds site w' creator timestamp ↔
      ∀ call ∈ calls, call.prepares site ≠ some (creation.conditionId site creator) := by
  rcases reachable_sound reached with ⟨named, operated, inv⟩
  rcases (Creation.succeeds_iff named inv operated external).mp succeeds with
    ⟨allowed, ready, fresh⟩
  have meddled : Meddled site creator operator (creation.conditionId site creator) w calls w' :=
    path.measure ⟨inv, fun _ => .refl _ _ _, fun ⟨_, made, _⟩ => nomatch made⟩
      fun _ _ _ _ inv => inv.step named external ready.opener ready.registrar
  rw [Creation.succeeds_iff named meddled.sound operated external]
  constructor
  · rintro ⟨-, -, unprepared⟩ call made prepares
    rw [meddled.prepared ⟨call, made, prepares⟩] at unprepared
    cases unprepared
  · intro elsewhere
    have same := meddled.undisturbed elsewhere
    refine ⟨(Creation.allowed_congr same.terms).mpr allowed, ?_, same.slots.trans fresh⟩
    rw [Creation.fee_congr same.terms]
    exact ready.undisturbed same

/-! ### A sample listing -/

/-- The pools live at 20 and the factory at 21; a user's question is the user and the end of
the salt. -/
def PlatformSite.sample : PlatformSite where
  oracle := .sample
  amm := 20
  factory := 21
  ammApart := by decide
  factoryApart := by decide
  userQuestionId := fun creator salt => creator ++ salt.setWidth 96
  foreignFactory := fun _ => .error .assertion
  foreignOracle := fun _ _ => .error .assertion
  legacyExists := fun _ _ => .error .assertion
  legacyMarkets := fun _ _ => .error .assertion

/-- Operated by account 5. -/
def Platform.sample : Platform where
  tokens := {
    usdc := MockUSDC.deployed.approve 20 9 MockUSDC.maxAllowance
    ctf := .deployed }
  amm := {
    feeVault := 4
    operator := 5
    factory := zeroAddress
    pools := fun _ => Pool.empty
    lpBalance := fun _ => 0
    closeGate := true
    seedLocked := fun _ => 0 }
  oracle := .deployed 5 fun i => if i = 0 then 11 else if i = 1 then 12 else 13
  factory := .deployed 5 5

theorem Platform.sample_deployed : Platform.Deployed .sample 5 .sample where
  named := ⟨by decide, by decide, by decide⟩
  operated := by decide
  tokens := ⟨⟨.deployed, .deployed⟩, 4, ⟨rfl, MockUSDC.deployed_backed, fun _ => rfl⟩, rfl⟩
  oracle := ⟨_, rfl⟩
  factory := ⟨5, rfl⟩

/-- The operator opens listings and account 6 gets ten units of collateral. -/
def Platform.sampleOpening : List Platform.Action :=
  [⟨5, 0, .amm (.setFactory 21)⟩, ⟨5, 0, .oracle (.setFactory 21)⟩,
    ⟨5, 0, .factory (.setPermissionless true)⟩, ⟨6, 0, .tokens (.usdc (.faucet 10000000))⟩,
    ⟨6, 0, .tokens (.usdc (.approve 21 10000000))⟩]

/-- Account 6 lists a question at time 4000. -/
def Creation.sample : Creation :=
  .permissionless 1 8000 ⟨List.replicate 10 120, by decide⟩ 1 10000000

/-- Account 7 prepares the condition of a question. -/
def Platform.samplePreparation (questionId : Bytes32) : Platform.Action :=
  ⟨7, 3000, .tokens (.ctf (.prepareCondition 8 questionId))⟩

/-- The platform before and after account 7 prepares a question. -/
def Platform.samplePrepared (questionId : Bytes32) : Call (Platform × Platform) := do
  let w ← Platform.sampleOpening.foldlM (Platform.perform .sample) .sample
  let w' ← Platform.perform .sample w (Platform.samplePreparation questionId)
  return (w, w')

theorem Platform.samplePrepared_run {questionId : Bytes32}
    (done : Platform.samplePrepared questionId = .ok (w, w')) :
    Reachable (Platform.Deployed .sample 5) (Platform.Called .sample) w ∧
      Run (Platform.Meddles .sample 6 5) w [Platform.samplePreparation questionId] w' := by
  simp only [Platform.samplePrepared, bind_ok, pure_ok, Prod.mk.injEq] at done
  rcases done with ⟨_, opened, _, prepared, rfl, rfl⟩
  have external : PlatformSite.sample.External 7 := by decide
  have steps : ∀ w action next, PlatformSite.sample.External action.sender →
      Platform.perform .sample w action = .ok next → Platform.Called .sample w next :=
    fun _ action _ external done => ⟨action, external, done⟩
  refine ⟨Reachable.execute steps (by decide) (.start sample_deployed) opened,
    .single ⟨⟨?_, ?_, by rintro _ ⟨⟩⟩, external, prepared⟩⟩
  · exact (by decide : (7 : Address) ≠ 6)
  · exact (by decide : (7 : Address) ≠ 5)

/-- The theorem after account 7 prepared another question. -/
theorem creation_survives_other_question :
    ∃ w w' : Platform, Creation.sample.Succeeds .sample w 6 4000 ∧
      Creation.sample.Succeeds .sample w' 6 4000 := by
  obtain ⟨⟨w, w'⟩, done⟩ := ok_of_isOk (x := Platform.samplePrepared 3) (by decide +kernel)
  have listed : ((Platform.samplePrepared 3).toOption.map fun states =>
      (MarketFactory.exec .sample states.1 6 4000 Creation.sample.tx).isOk) = some true := by
    decide +kernel
  rw [done] at listed
  have succeeds : Creation.sample.Succeeds .sample w 6 4000 := ok_of_isOk (Option.some.inj listed)
  rcases Platform.samplePrepared_run done with ⟨reached, path⟩
  refine ⟨w, w', succeeds, (creation_survives_iff reached (by decide) succeeds path).mpr ?_⟩
  intro call made
  rw [List.mem_singleton.mp made]
  decide

/-- Account 7 prepares the question account 6 is about to list, and the listing reverts. -/
theorem creation_blocked :
    ∃ w w' : Platform, Reachable (Platform.Deployed .sample 5) (Platform.Called .sample) w ∧
      PlatformSite.sample.External 6 ∧ Creation.sample.Succeeds .sample w 6 4000 ∧
      (∃ calls, Run (Platform.Meddles .sample 6 5) w calls w') ∧
      MarketFactory.exec .sample w' 6 4000 Creation.sample.tx =
        .error (.reason "already prepared") := by
  obtain ⟨⟨w, w'⟩, done⟩ := ok_of_isOk
    (x := Platform.samplePrepared (PlatformSite.sample.userQuestionId 6 1)) (by decide +kernel)
  have outcome : ((Platform.samplePrepared (PlatformSite.sample.userQuestionId 6 1)).toOption.map
      fun states => ((MarketFactory.exec .sample states.1 6 4000 Creation.sample.tx).isOk,
        match MarketFactory.exec .sample states.2 6 4000 Creation.sample.tx with
        | .ok _ => none
        | .error why => some why)) = some (true, some (.reason "already prepared")) := by
    decide +kernel
  rw [done] at outcome
  rcases Prod.mk.inj (Option.some.inj outcome) with ⟨listed, blocked⟩
  rcases Platform.samplePrepared_run done with ⟨reached, path⟩
  refine ⟨w, w', reached, by decide, ok_of_isOk listed, ⟨_, path⟩, ?_⟩
  split at blocked
  · cases blocked
  · next why failed =>
    rw [failed, Option.some.inj blocked]

end OverUnder.Contracts
