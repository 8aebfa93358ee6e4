/-
Module: OverUnder.Contracts.Exchange
Purpose: The signed-order exchange of `contracts/src/Exchange.vy` over the
  tokens it settles in. Events are left out. The typed-data digest and `ecrecover`
  are parameters; digests of different orders differ.
Trusted boundary: human-reviewed spec
Main exports: Order, Exchange, Venue, validate, cancelOrder,
  incrementNonce, matchOrders, Venue.Action, Venue.perform, Venue.Step
-/
import OverUnder.Contracts.ConditionalTokens
import OverUnder.Vyper.Signatures

namespace OverUnder.Contracts

open OverUnder.Vyper

structure Order where
  maker : Address
  isBuy : Bool
  conditionId : Bytes32
  outcome : Nat
  price : Nat
  amount : Nat
  salt : Nat
  nonce : Nat
  expiry : Nat
deriving DecidableEq

/-- Storage of Exchange.vy, `filled` and `cancelled` keyed by digest. -/
structure Exchange where
  feeVault : Address
  operator : Address
  filled : Nat → Nat
  cancelled : Nat → Bool
  nonces : Address → Nat

/-- The exchange and the tokens it moves. -/
structure Venue where
  tokens : Tokens
  exchange : Exchange

/-- Where the exchange lives and how it hashes and recovers. Digests are natural
numbers so that a collision-free digest exists at all. -/
structure ExchangeSite where
  self : Address
  ctf : CtfSite
  /-- `hashOrder`. -/
  digest : Order → Nat
  digest_injective : Function.Injective digest
  ecrecover : Ecrecover

namespace Exchange

def takerFeeBps : Nat := 75
def bpsDenom : Nat := 10000
def priceScale : Nat := 1000000

variable (site : ExchangeSite)

/-- `_validate`. -/
def validate (x : Exchange) (timestamp : Nat) (o : Order) (sig : Signature) : Call Nat := do
  require (o.maker ≠ zeroAddress)
  require (o.outcome < 2)
  require (o.amount > 0 ∧ o.price > 0)
  require (timestamp ≤ o.expiry)
  require (o.nonce = x.nonces o.maker)
  let digest := site.digest o
  require (x.cancelled digest = false)
  let signer ← recoverSigner site.ecrecover digest sig
  require (signer = o.maker) (.reason "bad sig")
  return digest

def cancelOrder (x : Exchange) (sender : Address) (o : Order) : Call Exchange := do
  let digest := site.digest o
  require (sender = o.maker ∨ sender = x.operator) (.reason "not maker")
  return { x with cancelled := Function.update x.cancelled digest true }

def incrementNonce (x : Exchange) (sender : Address) : Call Exchange := do
  let nonces ← credit x.nonces sender 1
  return { x with nonces }

/-- `extcall IERC20(self.usdc).transferFrom(owner, recipient, amount)`. -/
def pay (tokens : Tokens) (owner recipient : Address) (amount : Nat) : Call Tokens := do
  let usdc ← tokens.usdc.transferFrom site.self owner recipient amount
  return { tokens with usdc }

/-- The payment of the fee, made when there is one. -/
def payFee (tokens : Tokens) (owner feeVault : Address) (fee : Nat) : Call Tokens :=
  if fee > 0 then pay site tokens owner feeVault fee else return tokens

/-- `extcall ICTF(self.ctf).safeTransferFrom(sender, receiver, token_id, amount)`. -/
def deliver (tokens : Tokens) (sender receiver : Address) (tokenId amount : Nat) :
    Call Tokens := do
  let ctf ← ConditionalTokens.safeTransferFrom tokens.ctf site.self sender receiver tokenId
    amount
  return { tokens with ctf }

/-- The transfers at the end of `matchOrders`. -/
def settle (tokens : Tokens) (feeVault : Address) (taker maker : Order)
    (fillAmount volume fee : Nat) : Call Tokens := do
  let tokenId := ConditionalTokens.pid site.ctf taker.conditionId taker.outcome
  if taker.isBuy then do
    let tokens ← pay site tokens taker.maker maker.maker volume
    let tokens ← payFee site tokens taker.maker feeVault fee
    deliver site tokens maker.maker taker.maker tokenId fillAmount
  else do
    let net ← usub volume fee
    let tokens ← pay site tokens maker.maker taker.maker net
    let tokens ← payFee site tokens maker.maker feeVault fee
    deliver site tokens taker.maker maker.maker tokenId fillAmount

/-- `fillAmount * maker.price // PRICE_SCALE`. -/
def matchVolume (fillAmount price : Nat) : Call Nat := do
  let scaled ← umul fillAmount price
  udiv scaled priceScale

/-- `volume * TAKER_FEE_BPS // BPS_DENOM`. -/
def matchFee (volume : Nat) : Call Nat := do
  let scaled ← umul volume takerFeeBps
  udiv scaled bpsDenom

def matchOrders (v : Venue) (timestamp : Nat) (taker maker : Order) (fillAmount : Nat)
    (takerSig makerSig : Signature) : Call Venue := do
  require (fillAmount > 0)
  require (¬v.tokens.ctf.isResolved taker.conditionId)
  require (taker.conditionId = maker.conditionId)
  require (taker.outcome = maker.outcome)
  require (taker.isBuy ≠ maker.isBuy)
  require (if taker.isBuy then taker.price ≥ maker.price else maker.price ≥ taker.price)
    (.reason "no cross")
  let tHash ← validate site v.exchange timestamp taker takerSig
  let mHash ← validate site v.exchange timestamp maker makerSig
  let takerFilled ← uadd (v.exchange.filled tHash) fillAmount
  require (takerFilled ≤ taker.amount)
  let makerFilled ← uadd (v.exchange.filled mHash) fillAmount
  require (makerFilled ≤ maker.amount)
  let filled ← credit v.exchange.filled tHash fillAmount
  let filled ← credit filled mHash fillAmount
  let volume ← matchVolume fillAmount maker.price
  let fee ← matchFee volume
  let tokens ← settle site v.tokens v.exchange.feeVault taker maker fillAmount volume fee
  return { tokens, exchange := { v.exchange with filled } }

/-- The state-changing entry points of the contract. -/
inductive Tx where
  | cancelOrder (o : Order)
  | incrementNonce
  | matchOrders (taker maker : Order) (fillAmount : Nat) (takerSig makerSig : Signature)

/-- Run one entry point as `sender` in a block of the given time. -/
def exec (v : Venue) (sender : Address) (timestamp : Nat) : Tx → Call Venue
  | .cancelOrder o => do
      let exchange ← cancelOrder site v.exchange sender o
      return { v with exchange }
  | .incrementNonce => do
      let exchange ← incrementNonce v.exchange sender
      return { v with exchange }
  | .matchOrders taker maker fillAmount takerSig makerSig =>
      matchOrders site v timestamp taker maker fillAmount takerSig makerSig

/-- The contract right after deployment. -/
def deployed (feeVault operator : Address) : Exchange where
  feeVault := feeVault
  operator := operator
  filled := fun _ => 0
  cancelled := fun _ => false
  nonces := fun _ => 0

end Exchange

/-! ### Runs of the exchange among other callers -/

/-- A call to the exchange or to one of the token contracts. -/
inductive Venue.Action where
  | exchange (sender : Address) (timestamp : Nat) (tx : Exchange.Tx)
  | tokens (sender : Address) (tx : Tokens.Tx)

/-- Run one call. -/
def Venue.perform (site : ExchangeSite) (v : Venue) : Venue.Action → Call Venue
  | .exchange sender timestamp tx => Exchange.exec site v sender timestamp tx
  | .tokens sender tx => do
      let tokens ← Tokens.exec site.ctf v.tokens sender tx
      return { v with tokens }

/-- One call that did not revert, labelled with the call. -/
def Venue.Step (site : ExchangeSite) (v : Venue) (action : Venue.Action) (next : Venue) :
    Prop :=
  Venue.perform site v action = .ok next

/-- The exchange was just deployed, over token contracts in any state. -/
def Venue.Initial (v : Venue) : Prop :=
  ∃ feeVault operator, v.exchange = Exchange.deployed feeVault operator

end OverUnder.Contracts
