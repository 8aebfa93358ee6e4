/-
Module: OverUnder.Backend.Preflight
Purpose: The checks of `backend/app/relayer/preflight.py` that the relayer makes before it
  broadcasts a match, on the chain state its RPC calls read, and the bounds that
  `_check_fields` of `backend/app/orderbook/router.py` puts on stored orders.
Trusted boundary: human-reviewed spec
Main exports: Stored, matchAmounts, orderUsdcNeed, Committed, short, orderState, preflightMatch
-/
import OverUnder.Contracts.Exchange

namespace OverUnder.Backend

open OverUnder.Vyper
open OverUnder.Contracts

/-- What `_check_fields` lets through. -/
structure Stored (o : Order) : Prop where
  outcome : o.outcome = 0 ∨ o.outcome = 1
  price : 0 < o.price ∧ o.price ≤ 1000000
  amount : 0 < o.amount ∧ o.amount < 2 ^ 63
  nonce : o.nonce < 2 ^ 63
  expiry : 0 < o.expiry ∧ o.expiry < 2 ^ 63

namespace Preflight

def priceScale : Nat := 1000000
def bps : Nat := 10000
def exchangeTakerFeeBps : Nat := 75

/-- `match_amounts`. -/
def matchAmounts (fill makerPrice feeBps : Nat) : Nat × Nat :=
  let volume := fill * makerPrice / priceScale
  (volume, volume * feeBps / bps)

/-- `order_usdc_need`: an upper bound on what a buy order can spend. -/
def orderUsdcNeed (remaining price feeBps : Nat) : Nat :=
  let volume := (remaining * price + priceScale - 1) / priceScale
  volume + (volume * feeBps + bps - 1) / bps

/-- Amounts that in-flight jobs will still take, zero where the dictionary has no entry. -/
structure Committed where
  usdc : Address → Nat
  ctf : Address × Bytes32 × Nat → Nat
  filled : Nat → Nat

/-- `Committed()`. -/
def Committed.empty : Committed := ⟨fun _ => 0, fun _ => 0, fun _ => 0⟩

/-- `_short`. -/
def short (have' need busy : Nat) (hard soft : String) : List String :=
  if have' < need then [hard]
  else if busy ≠ 0 ∧ have' < need + busy then ["busy: " ++ soft]
  else []

/-- `_order_state`. -/
def orderState (v : Venue) (role : String) (o : Order) (hash fill blockTs minExpiry : Nat)
    (committed : Option Committed) : List String :=
  let onchain := v.exchange.filled hash
  (if o.expiry ≤ blockTs + minExpiry then [role ++ " expired"] else []) ++
    (if v.exchange.nonces o.maker ≠ o.nonce then [role ++ " nonce stale"] else []) ++
    (if v.exchange.cancelled hash = true then [role ++ " cancelled onchain"] else []) ++
    if onchain + fill > o.amount then [role ++ " overfill"]
    else match committed with
      | none => []
      | some c =>
          if onchain + c.filled hash + fill > o.amount then ["busy: " ++ role ++ " fill in flight"]
          else []

/-- The checks on the side that pays. -/
def paysUsdc (site : ExchangeSite) (v : Venue) (role : String) (payer : Address)
    (need busy : Nat) : List String :=
  short (v.tokens.usdc.balanceOf payer) need busy
      (role ++ " usdc balance < " ++ toString need) (role ++ " usdc in flight") ++
    short (v.tokens.usdc.allowance (payer, site.self)) need busy
      (role ++ " usdc allowance < " ++ toString need) (role ++ " usdc allowance in flight")

/-- The checks on the side that delivers. -/
def deliversCtf (site : ExchangeSite) (v : Venue) (role : String) (o : Order) (fill : Nat)
    (c : Committed) : List String :=
  short (v.tokens.ctf.balanceOf
      (o.maker, ConditionalTokens.pid site.ctf o.conditionId o.outcome)) fill
      (c.ctf (o.maker, o.conditionId, o.outcome))
      (role ++ " ctf balance < " ++ toString fill) (role ++ " ctf in flight") ++
    if v.tokens.ctf.isApprovedForAll (o.maker, site.self) = false then
      [role ++ " ctf not approved"]
    else []

/-- `preflight_match`. -/
def preflightMatch (site : ExchangeSite) (v : Venue) (taker maker : Order)
    (takerHash makerHash fill blockTs minExpiry : Nat) (committed : Option Committed) :
    List String :=
  let c := committed.getD .empty
  let reasons := (if v.tokens.ctf.isResolved taker.conditionId then ["market resolved"] else []) ++
    orderState v "taker" taker takerHash fill blockTs minExpiry committed ++
    orderState v "maker" maker makerHash fill blockTs minExpiry committed
  let (volume, fee) := matchAmounts fill maker.price exchangeTakerFeeBps
  if taker.isBuy then
    reasons ++ paysUsdc site v "taker" taker.maker (volume + fee) (c.usdc taker.maker) ++
      deliversCtf site v "maker" maker fill c
  else
    -- The maker pays the volume in total, the fee out of it.
    reasons ++ paysUsdc site v "maker" maker.maker volume (c.usdc maker.maker) ++
      deliversCtf site v "taker" taker fill c

end Preflight

end OverUnder.Backend
