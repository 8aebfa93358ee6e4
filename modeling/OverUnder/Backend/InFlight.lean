/-
Module: OverUnder.Backend.InFlight
Purpose: The matches that the relayer has in flight: `Committed.add_match` of
  `backend/app/relayer/preflight.py`, `_committed` of `backend/app/relayer/worker.py`, and the
  steps by which jobs enter flight past the preflight, mine in any order, or are dropped, while
  others use the exchange and the tokens. Statuses, nonces and retries are modelled elsewhere.
Trusted boundary: human-reviewed spec
Main exports: Job, Committed.addMatch, committedOf, Job.mine, Job.preflight, Relay,
  Relay.Action, Relay.perform
-/
import OverUnder.Backend.Preflight

namespace OverUnder.Backend.Preflight

open OverUnder.Vyper
open OverUnder.Contracts

/-- A relay job with its two orders. -/
structure Job where
  taker : Order
  maker : Order
  fill : Nat
  takerSig : Signature
  makerSig : Signature

/-- `Committed.add_match`. -/
def Committed.addMatch (c : Committed) (taker maker : Order) (takerHash makerHash fill : Nat) :
    Committed :=
  let (volume, fee) := matchAmounts fill maker.price exchangeTakerFeeBps
  let (buyer, seller) := if taker.isBuy then (taker, maker) else (maker, taker)
  let spend := if taker.isBuy then volume + fee else volume
  let b := buyer.maker
  let k := (seller.maker, seller.conditionId, seller.outcome)
  { usdc := Function.update c.usdc b (c.usdc b + spend)
    ctf := Function.update c.ctf k (c.ctf k + fill)
    filled := [takerHash, makerHash].foldl
      (fun filled h => Function.update filled h (filled h + fill)) c.filled }

/-- `_committed`: what the other jobs in flight will still spend. -/
def committedOf (site : ExchangeSite) (rows : List Job) : Committed :=
  rows.foldl (fun c j =>
    c.addMatch j.taker j.maker (site.digest j.taker) (site.digest j.maker) j.fill) .empty

/-- The transaction of a job. -/
def Job.mine (site : ExchangeSite) (v : Venue) (timestamp : Nat) (j : Job) : Call Venue :=
  Exchange.matchOrders site v timestamp j.taker j.maker j.fill j.takerSig j.makerSig

/-- The preflight of a job in `_send`. -/
def Job.preflight (site : ExchangeSite) (v : Venue) (rows : List Job) (blockTs minExpiry : Nat)
    (j : Job) : List String :=
  preflightMatch site v j.taker j.maker (site.digest j.taker) (site.digest j.maker) j.fill blockTs
    minExpiry (some (committedOf site rows))

/-- The chain and the jobs in flight, signed and not yet mined. -/
structure Relay where
  venue : Venue
  rows : List Job

inductive Relay.Action where
  /-- A job passes the preflight and is signed. -/
  | send (blockTs minExpiry : Nat) (j : Job)
  /-- The transaction of a job is mined; one that reverts leaves the chain as it was. -/
  | mine (timestamp i : Nat)
  /-- The transaction of a job will not be mined. -/
  | drop (i : Nat)
  /-- Somebody else calls the exchange or a token. -/
  | other (action : Venue.Action)

def Relay.perform (site : ExchangeSite) (r : Relay) : Relay.Action → Option Relay
  | .send blockTs minExpiry j =>
      if (j.preflight site r.venue r.rows blockTs minExpiry).isEmpty then
        some { r with rows := j :: r.rows }
      else none
  | .mine timestamp i => r.rows[i]?.map fun j =>
      match j.mine site r.venue timestamp with
      | .ok venue => ⟨venue, r.rows.eraseIdx i⟩
      | .error _ => ⟨r.venue, r.rows.eraseIdx i⟩
  | .drop i => r.rows[i]?.map fun _ => ⟨r.venue, r.rows.eraseIdx i⟩
  | .other action => (Venue.perform site r.venue action).toOption.map fun venue => { r with venue }

end OverUnder.Backend.Preflight
