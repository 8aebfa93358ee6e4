/-
Module: OverUnder.Backend.OperatorCreate
Purpose: `POST /markets` of `backend/app/markets/router.py` up to its answer: the checks of
  `create_market` and `_create_on_chain` with what it reads and the transactions it sends and
  waits for, over contracts that others call at any time; so the locks between requests are left
  out. The pending block is the state of the contracts; gas and reorganisations are left out, and
  a transaction may fail for any reason. The row that mirrors the answer is in
  `Backend/Listings.lean`.
Trusted boundary: human-reviewed spec
Main exports: Exc, MarketCreated, Receipt, OperatorTx, Op, Transacted, Answers, ChainRow, Body,
  hex32, lookUp, fund, approve, createOnChain, createMarket
-/
import OverUnder.Backend.Sponsored
import OverUnder.Contracts.MarketFactory
import OverUnder.Library.Interaction

namespace OverUnder.Backend.OperatorCreate

open OverUnder.Vyper OverUnder.Contracts OverUnder.Library
open Sponsored (fromHex)

/-! ### The chain -/

/-- An `HTTPException`, or any other exception by the name of its type. -/
inductive Exc where
  | http (e : HttpError)
  | raised (type : String)
deriving DecidableEq

/-- `type(e).__name__`. -/
def Exc.typeName : Exc → String
  | .http _ => "HTTPException"
  | .raised type => type

/-- `MarketCreated` of the factory, without the creator. -/
structure MarketCreated where
  conditionId : Bytes32
  parentConditionId : Bytes32
  closeTime : Nat
  marketType : Nat
  question : Question

/-- The status of a receipt and its `MarketCreated` logs. -/
structure Receipt where
  status : Nat
  created : List MarketCreated

/-- What the operator asks for; texts are their UTF-8 bytes. -/
inductive OperatorTx where
  | faucet (amount : Nat)
  /-- The factory is the spender. -/
  | approve (amount : Nat)
  | createPrimaryMarket (questionId : Bytes32) (closeTime : Nat) (question : List (BitVec 8))
      (seedUsdc : Nat)
  | createWildcardMarket (questionId parentConditionId : Bytes32) (closeTime : Nat)
      (question : List (BitVec 8)) (seedUsdc : Nat)

/-- The call as the contract decodes it; a text that is too long for it makes it revert. -/
def OperatorTx.call (site : PlatformSite) : OperatorTx → Option Platform.Tx
  | .faucet amount => some (.tokens (.usdc (.faucet amount)))
  | .approve amount => some (.tokens (.usdc (.approve site.factory amount)))
  | .createPrimaryMarket questionId closeTime question seedUsdc =>
      if bounded : question.length ≤ 256 then
        some (.factory (.createPrimaryMarket questionId closeTime ⟨question, bounded⟩ seedUsdc))
      else none
  | .createWildcardMarket questionId parent closeTime question seedUsdc =>
      if bounded : question.length ≤ 256 then
        some (.factory
          (.createWildcardMarket questionId parent closeTime ⟨question, bounded⟩ seedUsdc))
      else none

/-- What `_create` logs in a call of the operator's. -/
def created (site : PlatformSite) : Platform.Tx → List MarketCreated
  | .factory (.createPrimaryMarket questionId closeTime question _) =>
      [⟨site.ctf.hashes.conditionId site.oracle.self questionId, 0, closeTime, 0, question⟩]
  | .factory (.createWildcardMarket questionId parent closeTime question _) =>
      [⟨site.ctf.hashes.conditionId site.oracle.self questionId, parent, closeTime, 1, question⟩]
  | _ => []

inductive Op where
  /-- `load_factory_chain`. -/
  | load
  | oracle
  | marketExists (cid : Bytes32)
  | markets (cid : Bytes32)
  | outcomeSlots (cid : Bytes32)
  /-- `usdc.balanceOf` of the operator. -/
  | balance
  /-- `usdc.allowance` of the operator for the factory. -/
  | allowance
  /-- `_operator_tx`. -/
  | transact (tx : OperatorTx)

def Answer : Op → Type
  | .load => Unit
  | .oracle => Address
  | .marketExists _ => Bool
  | .markets _ => MarketFactory.Market
  | .outcomeSlots _ => Nat
  | .balance => Nat
  | .allowance => Nat
  | .transact _ => Receipt

/-- A read gets the value or raises. -/
def Read {α : Type} (value : α) (w : Platform) (r : Except Exc α) (next : Platform) : Prop :=
  next = w ∧ (r = .ok value ∨ ∃ type, r = .error (.raised type))

/-- What waiting for a transaction may end with. One that is mined after the wait was given up
is a call like any other. -/
inductive Transacted (site : PlatformSite) (operator : Address) (tx : OperatorTx) (w : Platform) :
    Except Exc Receipt → Platform → Prop where
  | failed {type : String} : Transacted site operator tx w (.error (.raised type)) w
  | reverted : Transacted site operator tx w (.ok ⟨0, []⟩) w
  | mined {call : Platform.Tx} {timestamp : Nat} {next : Platform}
      (asked : tx.call site = some call)
      (step : Platform.Step site w ⟨operator, timestamp, call⟩ next) :
      Transacted site operator tx w (.ok ⟨1, created site call⟩) next

/-- How the node answers. -/
def Answers (site : PlatformSite) (operator : Address) :
    (op : Op) → Platform → Except Exc (Answer op) → Platform → Prop
  | .load, w, _, next => next = w
  | .oracle, w, r, next => Read site.oracle.self w r next
  | .marketExists cid, w, r, next => Read (w.factory.marketExists cid) w r next
  | .markets cid, w, r, next => Read (w.factory.markets cid) w r next
  | .outcomeSlots cid, w, r, next => Read (w.tokens.ctf.outcomeSlots cid) w r next
  | .balance, w, r, next => Read (w.tokens.usdc.balanceOf operator) w r next
  | .allowance, w, r, next => Read (w.tokens.usdc.allowance (operator, site.factory)) w r next
  | .transact tx, w, r, next => Transacted site operator tx w r next

/-! ### The endpoint -/

abbrev Script (α : Type) := Program Op Answer Exc α

def oracle : Script Address := Program.perform Op.oracle

def marketExists (cid : Bytes32) : Script Bool := Program.perform (Op.marketExists cid)

def markets (cid : Bytes32) : Script MarketFactory.Market := Program.perform (Op.markets cid)

def outcomeSlots (cid : Bytes32) : Script Nat := Program.perform (Op.outcomeSlots cid)

def balance : Script Nat := Program.perform Op.balance

def allowance : Script Nat := Program.perform Op.allowance

/-- `_operator_tx`. -/
def transact (tx : OperatorTx) : Script Receipt := Program.perform (Op.transact tx)

/-- `raise HTTPException`. -/
def fail {α : Type} (statusCode : Nat) (detail : String) : Script α :=
  Program.raise (.http ⟨statusCode, detail⟩)

/-- `except HTTPException: raise` and `except Exception`, with the type of the exception. -/
def orFail {α : Type} (text : String) (p : Script α) : Script α := do
  match ← p.attempt with
  | .ok a => pure a
  | .error (.http e) => Program.raise (.http e)
  | .error (.raised type) => fail 500 (text ++ ": " ++ type)

/-- `except Exception` alone. -/
def orFailAny {α : Type} (text : String) (p : Script α) : Script α := do
  match ← p.attempt with
  | .ok a => pure a
  | .error e => fail 500 (text ++ ": " ++ e.typeName)

/-- The dict of a market; only a read of `markets` says whether it is paused. -/
structure ChainRow where
  conditionId : Bytes32
  parentConditionId : Bytes32
  closeTime : Nat
  marketType : Nat
  paused : Option Bool
  question : Question

/-- `market_row_from_struct`. -/
def marketRow (m : MarketFactory.Market) : ChainRow :=
  ⟨m.conditionId, m.parentConditionId, m.closeTime, m.marketType, some m.paused, m.question⟩

/-- The dict of an event. -/
def MarketCreated.row (event : MarketCreated) : ChainRow :=
  ⟨event.conditionId, event.parentConditionId, event.closeTime, event.marketType, none,
    event.question⟩

/-- What the chain half reads of `CreateMarketIn`. -/
structure Body where
  question : List (BitVec 8)
  closeTime : Nat
  questionId : Text
  parentConditionId : Text
  seedUsdc : Nat
  marketType : Int

inductive Kind where
  | existing
  | created
deriving DecidableEq

/-- What the first reads say of a question. -/
inductive Found where
  | existing (row : ChainRow)
  | preparedElsewhere
  | absent

/-- `AMM_MIN_LP` and `APPROVE_HEADROOM`. -/
def ammMinLp : Nat := 10 ^ 4
def approveHeadroom : Nat := 100

/-- `_approve_amount`. -/
def approveAmount (seed : Nat) : Nat := seed * approveHeadroom

/-- `read_factory_market`. -/
def readFactoryMarket (cid : Bytes32) : Script (Option ChainRow) := do
  let listed ← marketExists cid
  if listed then do
    let m ← markets cid
    return some (marketRow m)
  else return none

/-- The reads of the first `try`; `conditionId` is `condition_id_for`. -/
def lookUp (conditionId : Address → Bytes32 → Bytes32) (questionId : Bytes32) : Script Found := do
  let court ← oracle
  let onchain ← readFactoryMarket (conditionId court questionId)
  match onchain with
  | some row => return .existing row
  | none => do
      let slots ← outcomeSlots (conditionId court questionId)
      return if slots ≠ 0 then .preparedElsewhere else .absent

/-- The operator's collateral and what the factory may take of it. -/
def readMoney : Script (Nat × Nat) := do
  let held ← balance
  let allowed ← allowance
  return (held, allowed)

/-- A transaction has to be mined with success. -/
def require (receipt : Receipt) (detail : String) : Script Unit :=
  if receipt.status ≠ 1 then fail 500 detail else pure ()

/-- The faucet, when the operator holds too little for the seed. -/
def fund (seed held : Nat) : Script Unit :=
  if held < seed then do
    let receipt ← orFailAny "failed to fund operator" (transact (.faucet seed))
    require receipt "failed to fund operator: faucet transaction failed"
  else pure ()

/-- The approval, when the allowance is too small; an amount that is no `uint256` is not encoded. -/
def approve (seed allowed : Nat) : Script Unit :=
  if allowed < seed then
    if approveAmount seed < wordSize then do
      let receipt ← orFailAny "failed to approve USDC" (transact (.approve (approveAmount seed)))
      require receipt "failed to approve USDC: approve transaction failed"
    else Program.raise (.raised "MismatchedABI")
  else pure ()

/-- The transaction that creates the market; `parent` is none for a primary one. -/
def createTx (body : Body) (questionId : Bytes32) (parent : Option Bytes32) : OperatorTx :=
  match parent with
  | none => .createPrimaryMarket questionId body.closeTime body.question body.seedUsdc
  | some parent =>
      .createWildcardMarket questionId parent body.closeTime body.question body.seedUsdc

/-- The part of `_create_on_chain` that sends. -/
def sendCreate (body : Body) (questionId : Bytes32) (parent : Option Bytes32) :
    Script (Kind × ChainRow) := do
  let money ← orFailAny "failed to read operator USDC state" readMoney
  fund body.seedUsdc money.1
  approve body.seedUsdc money.2
  let receipt ← orFail "failed to create market on chain"
    (transact (createTx body questionId parent))
  require receipt "market creation transaction failed"
  match receipt.created with
  | [] => fail 500 "no MarketCreated event in receipt"
  | event :: _ => return (.created, event.row)

/-- `_create_on_chain`. -/
def createOnChain (conditionId : Address → Bytes32 → Bytes32) (body : Body) (questionId : Bytes32)
    (parent : Option Bytes32) : Script (Kind × ChainRow) := do
  let _ ← Program.perform Op.load
  let found ← orFail "failed to read factory state" (lookUp conditionId questionId)
  match found with
  | .existing row => return (.existing, row)
  | .preparedElsewhere => fail 409 "condition prepared outside this factory"
  | .absent => sendCreate body questionId parent

/-- The text without `0x` or `0X` in front. -/
def withoutZeroX : Text → Text
  | '0' :: 'x' :: rest => rest
  | '0' :: 'X' :: rest => rest
  | text => text

/-- `hex32`. -/
def hex32 (unicode : Unicode) (value : Text) (field : String) : Except HttpError Bytes32 :=
  match fromHex (withoutZeroX (strip unicode value)) with
  | some bytes =>
      if bytes.length = 32 then .ok (BitVec.ofNat 256 (bytesToNat bytes))
      else .error ⟨400, field ++ " must be 32-byte hex"⟩
  | none => .error ⟨400, field ++ " must be 32-byte hex"⟩

/-- The parent that `create_market` hands on. -/
def parentOf (unicode : Unicode) (body : Body) : Except HttpError (Option Bytes32) :=
  if body.marketType = 1 then
    (hex32 unicode body.parentConditionId "parent_condition_id").map some
  else .ok none

/-- `create_market` up to the row it mirrors; `hasKey` says that the operator's key is set. -/
def createMarket (unicode : Unicode) (conditionId : Address → Bytes32 → Bytes32) (hasKey : Bool)
    (body : Body) : Script (Kind × ChainRow) :=
  if !hasKey then fail 500 "operator_private_key not configured"
  else if body.seedUsdc < ammMinLp then
    fail 422 "seed_usdc must be at least 10000 (MarketAMM MIN_LP, base units)"
  else if body.marketType ≠ 0 ∧ body.marketType ≠ 1 then
    fail 400 "user markets use /markets/listing"
  else
    match hex32 unicode body.questionId "question_id", parentOf unicode body with
    | .error e, _ => Program.raise (.http e)
    | .ok _, .error e => Program.raise (.http e)
    | .ok questionId, .ok parent => createOnChain conditionId body questionId parent

end OverUnder.Backend.OperatorCreate
