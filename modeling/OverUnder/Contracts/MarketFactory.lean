/-
Module: OverUnder.Contracts.MarketFactory
Purpose: The market factory of `contracts/src/MarketFactory.vy` over the three contracts
  it creates markets in. It never changes the addresses it was constructed with, so they
  are where the site says. Events and view getters are left out; what contracts elsewhere
  answer is a parameter of the site.
Trusted boundary: human-reviewed spec
Main exports: MarketFactory, Platform, PlatformSite, create, seed, createPrimaryMarket,
  createWildcardMarket, createPermissionlessMarket, Platform.Action, Platform.perform
-/
import OverUnder.Contracts.ConsensusOracle
import OverUnder.Contracts.MarketAMM

namespace OverUnder.Contracts

open OverUnder.Vyper

/-- A `String[256]`. -/
structure Question where
  bytes : List (BitVec 8)
  bounded : bytes.length ≤ 256

/-- The empty string. -/
def Question.empty : Question := ⟨[], by decide⟩

/-- `struct Market`. -/
structure MarketFactory.Market where
  conditionId : Bytes32
  parentConditionId : Bytes32
  closeTime : Nat
  marketType : Nat
  paused : Bool
  question : Question

/-- `empty(Market)`. -/
def MarketFactory.Market.empty : MarketFactory.Market := ⟨0, 0, 0, 0, false, .empty⟩

/-- Storage of MarketFactory.vy, but for the addresses of the other contracts. -/
structure MarketFactory where
  operator : Address
  wildcardGenerator : Address
  markets : Bytes32 → MarketFactory.Market
  marketExists : Bytes32 → Bool
  permissionless : Bool
  listerAllowed : Address → Bool
  minSeedUsdc : Nat
  listingFeeUsdc : Nat
  feeRecipient : Address
  minLeadTime : Nat
  maxHorizon : Nat
  listingCooldown : Nat
  lastListedAt : Address → Nat
  creatorOf : Bytes32 → Address
  seedOf : Bytes32 → Nat
  criteriaHashOf : Bytes32 → Bytes32

/-- The contracts a market is made of. -/
structure Platform where
  tokens : Tokens
  amm : MarketAMM
  oracle : ConsensusOracle
  factory : MarketFactory

/-- Where the contracts live. -/
structure PlatformSite where
  oracle : OracleSite
  amm : Address
  factory : Address
  ammApart : amm ≠ oracle.ctf.self
  factoryApart : factory ≠ oracle.ctf.self ∧ factory ≠ amm
  /-- `_user_question_id`. -/
  userQuestionId : Address → Bytes32 → Bytes32
  /-- What `oracle()` of any other factory answers, and `closeTime` of any other oracle. -/
  foreignFactory : Address → Call Address
  foreignOracle : Address → Bytes32 → Call Nat
  /-- `marketExists` and `markets` of a legacy factory. -/
  legacyExists : Address → Bytes32 → Call Bool
  legacyMarkets : Address → Bytes32 → Call MarketFactory.Market

namespace PlatformSite

variable (site : PlatformSite)

def ctf : CtfSite := site.oracle.ctf

def ammSite : AmmSite := ⟨site.amm, site.ctf, site.ammApart⟩

/-- A call to the pool contract with what the factory and the oracle answer in it. -/
def msg (w : Platform) (sender : Address) (timestamp : Nat) : Msg where
  sender := sender
  timestamp := timestamp
  factoryOracle a := if a = site.factory then .ok site.oracle.self else site.foreignFactory a
  oracleCloseTime a c :=
    if a = site.oracle.self then .ok (w.oracle.closeTime c) else site.foreignOracle a c

end PlatformSite

namespace MarketFactory

def marketTypeUser : Nat := 2
def minQuestionBytes : Nat := 10
def maxHorizonCap : Nat := 31622400
def minLeadFloor : Nat := 600

/-- The contract right after deployment. -/
def deployed (operator wildcardGenerator : Address) : MarketFactory where
  operator := operator
  wildcardGenerator := wildcardGenerator
  markets := fun _ => .empty
  marketExists := fun _ => false
  permissionless := false
  listerAllowed := fun _ => false
  minSeedUsdc := 10000000
  listingFeeUsdc := 0
  feeRecipient := zeroAddress
  minLeadTime := 3600
  maxHorizon := 7776000
  listingCooldown := 3600
  lastListedAt := fun _ => 0
  creatorOf := fun _ => zeroAddress
  seedOf := fun _ => 0
  criteriaHashOf := fun _ => 0

def setWildcardGenerator (x : MarketFactory) (sender account : Address) :
    Call MarketFactory := do
  require (sender = x.operator)
  return { x with wildcardGenerator := account }

def setListingConfig (x : MarketFactory) (sender : Address) (minSeedUsdc listingFeeUsdc : Nat)
    (feeRecipient : Address) (minLeadTime maxHorizon listingCooldown : Nat) :
    Call MarketFactory := do
  require (sender = x.operator) (.reason "not operator")
  require (minSeedUsdc > 0) (.reason "min seed")
  require (listingFeeUsdc = 0 ∨ feeRecipient ≠ zeroAddress) (.reason "fee recipient")
  require (minLeadTime ≥ minLeadFloor) (.reason "lead floor")
  require (maxHorizon > minLeadTime ∧ maxHorizon ≤ maxHorizonCap) (.reason "horizon")
  return { x with
    minSeedUsdc, listingFeeUsdc, feeRecipient, minLeadTime, maxHorizon, listingCooldown }

def setPermissionless (x : MarketFactory) (sender : Address) (enabled : Bool) :
    Call MarketFactory := do
  require (sender = x.operator) (.reason "not operator")
  return { x with permissionless := enabled }

def setLister (x : MarketFactory) (sender account : Address) (allowed : Bool) :
    Call MarketFactory := do
  require (sender = x.operator) (.reason "not operator")
  require (account ≠ zeroAddress) (.reason "zero account")
  return { x with listerAllowed := Function.update x.listerAllowed account allowed }

def setPaused (x : MarketFactory) (sender : Address) (conditionId : Bytes32) (paused : Bool) :
    Call MarketFactory := do
  require (sender = x.operator) (.reason "not operator")
  require (x.marketExists conditionId = true)
  return { x with markets :=
    Function.update x.markets conditionId { x.markets conditionId with paused } }

/-- The checks `_create` makes of a parent. -/
def checkParent (x : MarketFactory) (parent : Bytes32) (closeTime : Nat) : Call Unit :=
  if parent ≠ 0 then do
    require (x.marketExists parent = true) (.reason "parent missing")
    require (closeTime ≤ (x.markets parent).closeTime) (.reason "child after parent")
    require ((x.markets parent).paused = false)
  else return ()

variable (site : PlatformSite)

/-- The loop of `importLegacyMarkets`. -/
def importRows (legacyFactory : Address) : MarketFactory → List Bytes32 → Call MarketFactory
  | x, [] => return x
  | x, cid :: rest =>
      if x.marketExists cid = true then importRows legacyFactory x rest
      else do
        let listed ← site.legacyExists legacyFactory cid
        require (listed = true) (.reason "not in legacy")
        let m ← site.legacyMarkets legacyFactory cid
        importRows legacyFactory { x with
          markets := Function.update x.markets cid m
          marketExists := Function.update x.marketExists cid true } rest

def importLegacyMarkets (x : MarketFactory) (sender legacyFactory : Address)
    (conditionIds : List Bytes32) : Call MarketFactory := do
  require (conditionIds.length ≤ 50)
  require (sender = x.operator) (.reason "not operator")
  require (legacyFactory ≠ zeroAddress ∧ legacyFactory ≠ site.factory) (.reason "bad legacy")
  importRows site legacyFactory x conditionIds

/-- `_create`. -/
def create (w : Platform) (timestamp : Nat) (questionId parent : Bytes32)
    (closeTime marketType : Nat) (question : Question) : Call (Bytes32 × Platform) := do
  require (closeTime > timestamp) (.reason "close in past")
  checkParent w.factory parent closeTime
  let (cid, tokens) ← ConditionalTokens.prepareCondition site.ctf w.tokens site.oracle.self
    questionId
  let oracle ← ConsensusOracle.registerMarket w.oracle site.factory cid closeTime
  let factory := { w.factory with
    markets := Function.update w.factory.markets cid {
      conditionId := cid
      parentConditionId := parent
      closeTime
      marketType
      paused := false
      question }
    marketExists := Function.update w.factory.marketExists cid true }
  return (cid, { w with tokens, oracle, factory })

/-- `extcall IERC20(self.usdc).transferFrom(msg.sender, self, amount)`. -/
def pull (w : Platform) (sender : Address) (amount : Nat) : Call Platform := do
  let usdc ← w.tokens.usdc.transferFrom site.factory sender site.factory amount
  return { w with tokens := { w.tokens with usdc } }

/-- `_seed`. -/
def seed (w : Platform) (sender : Address) (timestamp : Nat) (conditionId : Bytes32)
    (seedUsdc : Nat) : Call Platform := do
  let usdc := w.tokens.usdc.approve site.factory site.amm seedUsdc
  let m ← MarketAMM.seedPoolFor site.ammSite ⟨{ w.tokens with usdc }, w.amm⟩
    (site.msg w site.factory timestamp) conditionId seedUsdc sender
  return { w with tokens := m.tokens, amm := m.amm }

def createPrimaryMarket (w : Platform) (sender : Address) (timestamp : Nat)
    (questionId : Bytes32) (closeTime : Nat) (question : Question) (seedUsdc : Nat) :
    Call (Bytes32 × Platform) := do
  require (sender = w.factory.operator) (.reason "not operator")
  require (seedUsdc > 0) (.reason "seed required")
  let (cid, w) ← create site w timestamp questionId 0 closeTime 0 question
  let w ← pull site w sender seedUsdc
  let w ← seed site w sender timestamp cid seedUsdc
  return (cid, w)

/-- The seed of a wildcard market, if any. -/
def seedWhen (w : Platform) (sender : Address) (timestamp : Nat) (conditionId : Bytes32)
    (seedUsdc : Nat) : Call Platform :=
  if seedUsdc > 0 then do
    let w ← pull site w sender seedUsdc
    seed site w sender timestamp conditionId seedUsdc
  else return w

def createWildcardMarket (w : Platform) (sender : Address) (timestamp : Nat)
    (questionId parentConditionId : Bytes32) (closeTime : Nat) (question : Question)
    (seedUsdc : Nat) : Call (Bytes32 × Platform) := do
  require (sender = w.factory.wildcardGenerator ∨ sender = w.factory.operator)
    (.reason "not generator")
  let (cid, w) ← create site w timestamp questionId parentConditionId closeTime 1 question
  let w ← seedWhen site w sender timestamp cid seedUsdc
  return (cid, w)

/-- `extcall IERC20(self.usdc).transfer(self.feeRecipient, fee)` when there is a fee. -/
def payFee (w : Platform) (fee : Nat) : Call Platform :=
  if fee > 0 then do
    let usdc ← w.tokens.usdc.transfer site.factory w.factory.feeRecipient fee
    return { w with tokens := { w.tokens with usdc } }
  else return w

/-- What `createPermissionlessMarket` checks before it records the listing. -/
def checkListing (x : MarketFactory) (sender : Address) (timestamp : Nat) (closeTime : Nat)
    (question : Question) (criteriaHash : Bytes32) (seedUsdc : Nat) : Call Unit := do
  require (x.permissionless = true ∨ x.listerAllowed sender = true) (.reason "listing closed")
  require (seedUsdc ≥ x.minSeedUsdc) (.reason "seed below min")
  let soonest ← uadd timestamp x.minLeadTime
  require (closeTime ≥ soonest) (.reason "close too soon")
  let latest ← uadd timestamp x.maxHorizon
  require (closeTime ≤ latest) (.reason "close too far")
  require (question.bytes.length ≥ minQuestionBytes) (.reason "question too short")
  require (criteriaHash ≠ 0) (.reason "criteria required")
  let next ← uadd (x.lastListedAt sender) x.listingCooldown
  require (timestamp ≥ next) (.reason "cooldown")

def createPermissionlessMarket (w : Platform) (sender : Address) (timestamp : Nat)
    (salt : Bytes32) (closeTime : Nat) (question : Question) (criteriaHash : Bytes32)
    (seedUsdc : Nat) : Call (Bytes32 × Platform) := do
  checkListing w.factory sender timestamp closeTime question criteriaHash seedUsdc
  let w := { w with factory := { w.factory with
    lastListedAt := Function.update w.factory.lastListedAt sender timestamp } }
  let questionId := site.userQuestionId sender salt
  let (cid, w) ← create site w timestamp questionId 0 closeTime marketTypeUser question
  let w := { w with factory := { w.factory with
    creatorOf := Function.update w.factory.creatorOf cid sender
    seedOf := Function.update w.factory.seedOf cid seedUsdc
    criteriaHashOf := Function.update w.factory.criteriaHashOf cid criteriaHash } }
  let fee := w.factory.listingFeeUsdc
  let owed ← uadd seedUsdc fee
  let w ← pull site w sender owed
  let w ← payFee site w fee
  let w ← seed site w sender timestamp cid seedUsdc
  return (cid, w)

/-- The state-changing entry points of the contract. -/
inductive Tx where
  | setWildcardGenerator (account : Address)
  | createPrimaryMarket (questionId : Bytes32) (closeTime : Nat) (question : Question)
      (seedUsdc : Nat)
  | createWildcardMarket (questionId parentConditionId : Bytes32) (closeTime : Nat)
      (question : Question) (seedUsdc : Nat)
  | createPermissionlessMarket (salt : Bytes32) (closeTime : Nat) (question : Question)
      (criteriaHash : Bytes32) (seedUsdc : Nat)
  | setListingConfig (minSeedUsdc listingFeeUsdc : Nat) (feeRecipient : Address)
      (minLeadTime maxHorizon listingCooldown : Nat)
  | setPermissionless (enabled : Bool)
  | setLister (account : Address) (allowed : Bool)
  | importLegacyMarkets (legacyFactory : Address) (conditionIds : List Bytes32)
  | setPaused (conditionId : Bytes32) (paused : Bool)

/-- An entry point that writes the storage of the factory only. -/
def configure (w : Platform) (change : Call MarketFactory) : Call Platform := do
  let factory ← change
  return { w with factory }

/-- An entry point that returns a condition id. -/
def creating (done : Call (Bytes32 × Platform)) : Call Platform := do
  let (_, w) ← done
  return w

/-- Run one entry point. -/
def exec (w : Platform) (sender : Address) (timestamp : Nat) : Tx → Call Platform
  | .setWildcardGenerator account => configure w (setWildcardGenerator w.factory sender account)
  | .createPrimaryMarket questionId closeTime question seedUsdc =>
      creating (createPrimaryMarket site w sender timestamp questionId closeTime question seedUsdc)
  | .createWildcardMarket questionId parentConditionId closeTime question seedUsdc =>
      creating (createWildcardMarket site w sender timestamp questionId parentConditionId closeTime
        question seedUsdc)
  | .createPermissionlessMarket salt closeTime question criteriaHash seedUsdc =>
      creating (createPermissionlessMarket site w sender timestamp salt closeTime question
        criteriaHash seedUsdc)
  | .setListingConfig minSeedUsdc listingFeeUsdc feeRecipient minLeadTime maxHorizon
      listingCooldown =>
      configure w (setListingConfig w.factory sender minSeedUsdc listingFeeUsdc feeRecipient
        minLeadTime maxHorizon listingCooldown)
  | .setPermissionless enabled => configure w (setPermissionless w.factory sender enabled)
  | .setLister account allowed => configure w (setLister w.factory sender account allowed)
  | .importLegacyMarkets legacyFactory conditionIds =>
      configure w (importLegacyMarkets site w.factory sender legacyFactory conditionIds)
  | .setPaused conditionId paused => configure w (setPaused w.factory sender conditionId paused)

end MarketFactory

/-! ### Runs of the five contracts -/

/-- A call to one of the contracts. -/
inductive Platform.Tx where
  | tokens (tx : Tokens.Tx)
  | amm (tx : MarketAMM.Tx)
  | oracle (tx : ConsensusOracle.Tx)
  | factory (tx : MarketFactory.Tx)

structure Platform.Action where
  sender : Address
  timestamp : Nat
  tx : Platform.Tx

/-- Run one call. -/
def Platform.perform (site : PlatformSite) (w : Platform) (action : Platform.Action) :
    Call Platform :=
  match action.tx with
  | .tokens tx => do
      let tokens ← Tokens.exec site.ctf w.tokens action.sender tx
      return { w with tokens }
  | .amm tx => do
      let m ← MarketAMM.exec site.ammSite ⟨w.tokens, w.amm⟩
        (site.msg w action.sender action.timestamp) tx
      return { w with tokens := m.tokens, amm := m.amm }
  | .oracle tx => do
      let court ← ConsensusOracle.exec site.oracle ⟨w.tokens, w.oracle⟩ action.sender
        action.timestamp tx
      return { w with tokens := court.tokens, oracle := court.oracle }
  | .factory tx => MarketFactory.exec site w action.sender action.timestamp tx

/-- Accounts of nobody's contract sign transactions. -/
def PlatformSite.External (site : PlatformSite) (account : Address) : Prop :=
  account ≠ zeroAddress ∧ account ≠ site.ctf.self ∧ account ≠ site.oracle.self ∧
    account ≠ site.amm ∧ account ≠ site.factory

instance PlatformSite.decidableExternal (site : PlatformSite) (account : Address) :
    Decidable (site.External account) :=
  inferInstanceAs (Decidable (_ ∧ _))

/-- One call that did not revert, labelled with the call. -/
structure Platform.Step (site : PlatformSite) (w : Platform) (action : Platform.Action)
    (next : Platform) : Prop where
  external : site.External action.sender
  done : Platform.perform site w action = .ok next

end OverUnder.Contracts
