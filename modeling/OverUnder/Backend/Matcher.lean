/-
Module: OverUnder.Backend.Matcher
Purpose: `try_match` of `backend/app/orderbook/matcher.py` as one transaction: the read of
  the other side, its order, the loop over it with its guarded updates, and the fills it
  returns. `trading_halt_reason` and `relayer_ready` are parameters.
Trusted boundary: human-reviewed spec
Main exports: Row, Fill, Db, Settings, Db.take, Db.giveBack, tryFill, fillAll, tryMatch
-/
import Mathlib
import OverUnder.Backend.OrderBook
import OverUnder.Library.Keyed

namespace OverUnder.Backend.Matcher

open OverUnder.Vyper (Address Bytes32)
open OverUnder.Library
open OrderBook (Order Job Book)

/-- A row of `orders` with its hash. -/
structure Row extends Order where
  orderHash : Bytes32

inductive FillStatus where
  | pending
  | offchain
deriving DecidableEq, Repr

/-- A row of `trades`. -/
structure Trade where
  conditionId : Bytes32
  taker : Address
  maker : Address
  fillAmount : Int
  volume : Int
  fee : Int
  txHash : String
  status : FillStatus
  relayJobId : Option Nat

/-- What `try_match` returns of one fill. -/
structure Fill where
  makerHash : Bytes32
  takerHash : Bytes32
  fillAmount : Int
  volume : Int
  fee : Int
  txHash : String
  status : FillStatus
  relayJobId : Option Nat

structure Db where
  orders : List Row
  jobs : List Job
  trades : List Trade

/-- The settings and the clock of one call. -/
structure Settings where
  now : Int
  relayerMinExpirySeconds : Int
  feeBpsTaker : Int
  /-- `relayer_ready`. -/
  relay : Bool

def Row.raise (qty : Int) (o : Row) : Row := { o with toOrder := o.toOrder.raise qty }

/-- `db.refresh(o, ["filled", "cancelled"])`. -/
def Db.refresh (db : Db) (o : Row) : Row :=
  match Keyed.get (fun row : Row => row.id) db.orders o.id with
  | some row => { o with filled := row.filled, cancelled := row.cancelled }
  | none => o

/-- `_take`, with the instance after it and whether one row passed the guard. -/
def Db.take (db : Db) (o : Row) (qty : Int) : Db × Row × Bool :=
  let passes (row : Row) : Bool := decide (row.id = o.id) && row.takes qty
  let next := { db with
    orders := db.orders.map fun row => if passes row then row.raise qty else row }
  (next, next.refresh o, decide ((db.orders.filter passes).length = 1))

/-- `_give_back`. -/
def Db.giveBack (db : Db) (o : Row) (qty : Int) : Db × Row :=
  let passes (row : Row) : Bool := decide (row.id = o.id) && decide (row.filled ≥ qty)
  let next := { db with
    orders := db.orders.map fun row => if passes row then row.raise (-qty) else row }
  (next, next.refresh o)

/-- The locals after the inner loop. -/
structure Attempt where
  db : Db
  incoming : Row
  maker : Row
  qty : Int
  /-- `return fills`. -/
  stop : Bool

/-- `for _ in range(n)`. -/
def tryFill : Nat → Db → Row → Row → Attempt
  | 0, db, incoming, maker => ⟨db, incoming, maker, 0, false⟩
  | n + 1, db, incoming, maker =>
      let qty := min incoming.remaining maker.remaining
      if qty ≤ 0 ∨ maker.cancelled = true then ⟨db, incoming, maker, 0, false⟩
      else
        match db.take maker qty with
        | (db, maker, false) => tryFill n db incoming maker
        | (db, maker, true) =>
            match db.take incoming qty with
            | (db, incoming, true) => ⟨db, incoming, maker, qty, false⟩
            | (db, incoming, false) =>
                let (db, maker) := db.giveBack maker qty
                if incoming.cancelled then ⟨db, incoming, maker, 0, true⟩
                else tryFill n db incoming maker

structure Result where
  db : Db
  incoming : Row
  fills : List Fill

/-- The fill of `qty`, its job and its trade. -/
def record (s : Settings) (db : Db) (incoming maker : Row) (qty : Int) : Db × Fill :=
  let volume := qty * maker.price / 1000000
  let fee := volume * s.feeBpsTaker / 10000
  let jobs := if s.relay then
    db.jobs ++ [Book.enqueued incoming.orderHash maker.orderHash qty] else db.jobs
  let relayJobId := if s.relay then some db.jobs.length else none
  let status := if s.relay then FillStatus.pending else .offchain
  let trade : Trade :=
    { conditionId := incoming.conditionId, taker := incoming.maker, maker := maker.maker
      fillAmount := qty, volume, fee, txHash := "", status, relayJobId }
  ({ db with jobs, trades := db.trades ++ [trade] },
    { makerHash := maker.orderHash, takerHash := incoming.orderHash, fillAmount := qty
      volume, fee, txHash := "", status, relayJobId })

/-- The loop over the makers. -/
def fillAll (s : Settings) : List Row → Db → Row → List Fill → Result
  | [], db, incoming, fills => ⟨db, incoming, fills⟩
  | maker :: rest, db, incoming, fills =>
      let a := tryFill 2 db incoming maker
      if a.stop then ⟨a.db, a.incoming, fills⟩
      else if a.qty ≤ 0 then
        if a.incoming.cancelled = true ∨ a.incoming.remaining ≤ 0 then ⟨a.db, a.incoming, fills⟩
        else fillAll s rest a.db a.incoming fills
      else
        let (db, fill) := record s a.db a.incoming a.maker a.qty
        if a.incoming.remaining ≤ 0 then ⟨db, a.incoming, fills ++ [fill]⟩
        else fillAll s rest db a.incoming (fills ++ [fill])

/-- The sort keys `(o.price, o.id)` and `(-o.price, o.id)`. -/
def sortKey (isBuy : Bool) (o : Row) : Lex (Int × Nat) :=
  toLex (if isBuy then o.price else -o.price, o.id)

def tryMatch (s : Settings) (halted : Bool) (db : Db) (incoming : Row) : Result :=
  if halted then ⟨db, incoming, []⟩
  else
    let minExpiry := s.now + s.relayerMinExpirySeconds
    let others := db.orders.filter fun o =>
      decide (o.conditionId = incoming.conditionId) && !o.cancelled &&
        decide (o.expiry > minExpiry) && decide (o.id ≠ incoming.id)
    let makers := others.filter fun o =>
      incoming.toOrder.crosses o.toOrder minExpiry && decide (o.remaining > 0)
    let makers := makers.insertionSort fun a b =>
      sortKey incoming.isBuy a ≤ sortKey incoming.isBuy b
    fillAll s makers db incoming []

end OverUnder.Backend.Matcher
