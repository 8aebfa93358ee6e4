/-
Module: OverUnder.Backend.OrderBook
Purpose: The rows of `orders` and `relay_jobs` and the statements that matching, cancelling
  and relaying run on them, from `backend/app/orderbook/matcher.py`,
  `backend/app/relayer/queue.py` and `backend/app/relayer/worker.py`. Of an order the
  signed fields stay that matching reads. Trades, error texts and times are left out.
Trusted boundary: human-reviewed spec
Main exports: Order, Job, Book, crosses, take, giveBack, enqueueMatch, rollbackJob,
  resyncFilled, Reason, culprits, retireFailedSide
-/
import Mathlib
import OverUnder.Backend.RelayNonces
import OverUnder.Vyper.Checked

namespace OverUnder.Backend.OrderBook

open OverUnder.Vyper (Address Bytes32)
open RelayNonces (Status)

/-- A row of `orders`. -/
structure Order where
  id : Nat
  maker : Address
  conditionId : Bytes32
  isBuy : Bool
  outcome : Nat
  price : Int
  amount : Int
  filled : Int
  expiry : Int
  cancelled : Bool
deriving DecidableEq

/-- A row of `relay_jobs`; its id is its place in the table. -/
structure Job where
  takerHash : Bytes32
  makerHash : Bytes32
  fillAmount : Int
  status : Status
  txHashes : List Bytes32
deriving DecidableEq

/-- The job fills the order. -/
def Job.touches (job : Job) (h : Bytes32) : Bool :=
  decide (job.takerHash = h ∨ job.makerHash = h)

/-- `LIVE` of relay jobs. -/
def live : Status → Bool
  | .pending | .sending | .sent => true
  | _ => false

/-- The two tables. Orders are keyed by `order_hash`. -/
structure Book where
  orders : Bytes32 → Option Order
  jobs : List Job

namespace Order

/-- `_remaining`. -/
def remaining (o : Order) : Int := o.amount - o.filled

/-- `_crosses`. -/
def crosses (taker maker : Order) (minExpiry : Int) : Bool :=
  decide (taker.conditionId = maker.conditionId) && decide (taker.outcome = maker.outcome) &&
    decide (taker.isBuy ≠ maker.isBuy) && !(taker.cancelled || maker.cancelled) &&
    decide (taker.maker ≠ maker.maker) &&
    !(decide (taker.expiry ≤ minExpiry) || decide (maker.expiry ≤ minExpiry)) &&
    if taker.isBuy then decide (taker.price ≥ maker.price) else decide (maker.price ≥ taker.price)

/-- `case((Order.filled > f, Order.filled - f), else_=0)`. -/
def lower (f : Int) (o : Order) : Order :=
  { o with filled := if o.filled > f then o.filled - f else 0 }

/-- The guard of `_take`. -/
def takes (qty : Int) (o : Order) : Bool :=
  !o.cancelled && decide (o.filled + qty ≤ o.amount)

def raise (qty : Int) (o : Order) : Order := { o with filled := o.filled + qty }

end Order

namespace Book

/-- `UPDATE orders ... WHERE order_hash = h`. -/
def setOrder (b : Book) (h : Bytes32) (f : Order → Order) : Book :=
  { b with orders := Function.update b.orders h ((b.orders h).map f) }

/-- `UPDATE relay_jobs ... WHERE id = id`. -/
def setJob (b : Book) (id : Nat) (f : Job → Job) : Book :=
  { b with jobs := b.jobs.modify id f }

def setStatus (b : Book) (id : Nat) (status : Status) : Book :=
  b.setJob id fun job => { job with status }

/-- `_take`: nothing when no row passes the guard. -/
def take (b : Book) (h : Bytes32) (qty : Int) : Option Book :=
  match b.orders h with
  | some o => if o.takes qty then some (b.setOrder h (.raise qty)) else none
  | none => none

/-- `_give_back`. -/
def giveBack (b : Book) (h : Bytes32) (qty : Int) : Book :=
  b.setOrder h fun o => if o.filled ≥ qty then { o with filled := o.filled - qty } else o

/-- The row `enqueue_match` inserts. -/
def enqueued (takerHash makerHash : Bytes32) (fillAmount : Int) : Job :=
  ⟨takerHash, makerHash, fillAmount, .pending, []⟩

/-- The second statement of `rollback_job`: both rows are lowered, one if they are the same. -/
def lowerFilled (b : Book) (job : Job) : Book :=
  { b with orders := fun h =>
      if job.touches h then (b.orders h).map (.lower job.fillAmount) else b.orders h }

/-- The first statement of `rollback_job`, when the caller saw the status `expected`. -/
def retireJob (b : Book) (id : Nat) (expected status : Status) : Option Book :=
  if expected.terminal then none
  else match b.jobs[id]? with
    | some job => if job.status = expected then some (b.setStatus id status) else none
    | none => none

/-- `rollback_job` as one transaction. -/
def rollbackJob (b : Book) (id : Nat) (expected status : Status) : Option Book :=
  match b.retireJob id expected status, b.jobs[id]? with
  | some b', some job => some (b'.lowerFilled job)
  | _, _ => none

/-- `coalesce(sum(fill_amount), 0)` of the jobs of an order that are in some status. -/
def filling (b : Book) (among : Status → Bool) (h : Bytes32) : Int :=
  (b.jobs.map fun job => if among job.status && job.touches h then job.fillAmount else 0).sum

/-- The statement of `_resync_filled`, after the chain said `onchain`. -/
def resyncFilled (b : Book) (h : Bytes32) (onchain : Int) : Book :=
  b.setOrder h fun o =>
    let target := onchain + b.filling live h
    { o with filled := if target > o.amount then o.amount else target }

/-- `o.cancelled = True`. -/
def cancelOrder (b : Book) (h : Bytes32) : Book :=
  b.setOrder h fun o => { o with cancelled := true }

/-- The conditional claim and the write-ahead record of `_send`. -/
def claim (b : Book) (id : Nat) (txHash : Bytes32) : Option Book :=
  match b.jobs[id]? with
  | some job =>
      if job.status = .pending then
        some (b.setJob id fun job =>
          { job with status := .sending, txHashes := job.txHashes ++ [txHash] })
      else none
  | none => none

/-- The rows of `relay_jobs` that fill an order, with their ids. -/
def jobsOf (b : Book) (h : Bytes32) : List (Nat × Job) :=
  (b.jobs.zipIdx.filter fun row => row.1.touches h).map fun row => (row.2, row.1)

end Book

/-! ### A failed preflight -/

inductive Side where
  | taker
  | maker
deriving DecidableEq, Repr

/-- What `preflight_match` can hold against a match. -/
inductive Reason where
  | resolved
  | overfill (side : Side)
  /-- Any other reason that names a side. -/
  | blames (side : Side)
  /-- Any other reason. -/
  | neutral
deriving DecidableEq, Repr

def Job.hash (job : Job) : Side → Bytes32
  | .taker => job.takerHash
  | .maker => job.makerHash

/-- `_culprits`. -/
def culprits (reasons : List Reason) : List Side :=
  if .resolved ∈ reasons then [.taker, .maker]
  else [Side.taker, Side.maker].filter fun side => decide (.blames side ∈ reasons)

/-- The sides `_retire_failed_side` resyncs. -/
def drifted (reasons : List Reason) : List Side :=
  [Side.taker, Side.maker].filter fun side => decide (.overfill side ∈ reasons)

/-- Whether `_retire_failed_side` matches the taker again. -/
def rematches (b : Book) (job : Job) (reasons : List Reason) : Bool :=
  !(culprits reasons).isEmpty && !(culprits reasons).contains .taker &&
    match b.orders job.takerHash with
    | some o => !o.cancelled && decide (o.filled < o.amount)
    | none => false

end OverUnder.Backend.OrderBook
