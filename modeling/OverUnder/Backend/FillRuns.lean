/-
Module: OverUnder.Backend.FillRuns
Purpose: The statements of POST /orders, DELETE /orders and the relayer's worker that move the
  fills of orders and the status of jobs, each a step of its own. A row that a transaction wrote
  is locked until its commit, and a statement that would write it waits. The new status of a job
  being rolled back is seen with the statement that lowers its orders, since the lock of the job
  hides it until then. Transactions that abort leave no trace and are left out.
Trusted boundary: human-reviewed spec
Main exports: Party, Fill, After, Pc, Chain, State, Event, step, State.initial
-/
import OverUnder.Backend.OrderBook

namespace OverUnder.Backend.FillRuns

open OverUnder.Vyper (Bytes32)
open RelayNonces (Status JobWrite)
open OrderBook

/-- One worker runs at a time; requests are as many as come. -/
inductive Party where
  | worker
  | request (k : Nat)
deriving DecidableEq, Repr

/-- Where `try_match` stands with a fill. -/
inductive Fill where
  | between
  /-- The maker is taken. -/
  | maker (makerHash : Bytes32) (qty : Int)
  /-- The maker is taken and the taker has no room. -/
  | refused (makerHash : Bytes32) (qty : Int)
  /-- Both are taken and the job is not inserted. -/
  | both (makerHash : Bytes32) (qty : Int)
deriving DecidableEq

/-- What a party does once a job is rolled back. -/
inductive After where
  /-- The rest of the jobs of a DELETE, as read. -/
  | cancelling (rows : List (Nat × Status))
  | retiring (job : Nat) (reasons : List Reason)
deriving DecidableEq

/-- Where a party stands. -/
inductive Pc where
  | idle
  | matching (takerHash : Bytes32) (fill : Fill)
  /-- DELETE, with the jobs of the order as read. -/
  | deleting (h : Bytes32) (rows : List (Nat × Status))
  | cancelling (rows : List (Nat × Status))
  /-- Between the two statements of `rollback_job`. -/
  | lowering (job : Nat) (status : Status) (next : After)
  | send (job : Nat)
  /-- At the commit of `_confirm`. -/
  | confirming (job : Nat)
  | reconcile (job : Nat)
  /-- In `_retire_failed_side`, with the sides to resync. -/
  | retiring (job : Nat) (reasons : List Reason) (sides : List Side)
  /-- In `_resync_filled`, after the chain answered. -/
  | resyncing (job : Nat) (reasons : List Reason) (side : Side) (onchain : Int)
      (sides : List Side)
deriving DecidableEq

/-- The chain: what is filled of each order, and the transaction, taker and maker of the
`OrderFilled` logs of the relayer's transactions. -/
structure Chain where
  filled : Bytes32 → Int
  logs : List (Bytes32 × Bytes32 × Bytes32)

/-- `undone` are the jobs whose orders `rollback_job` lowered. -/
structure State where
  book : Book
  chain : Chain
  pcs : Party → Pc
  orderLocks : Bytes32 → Option Party
  jobLocks : Nat → Option Party
  undone : List Nat

/-- A step of a party or of the chain. -/
inductive Event where
  /-- POST: the order is flushed. -/
  | posted (k : Nat) (h : Bytes32) (order : Order)
  /-- `_take` of a maker. -/
  | makerTaken (p : Party) (makerHash : Bytes32) (qty : Int)
  /-- `_take` of the taker. -/
  | takerTaken (p : Party)
  | takerRefused (p : Party)
  | gaveBack (p : Party)
  | enqueued (p : Party)
  /-- The fill is kept off the chain: no relayer is ready. -/
  | offchain (p : Party)
  /-- DELETE reads the jobs of an order. -/
  | deleting (k : Nat) (h : Bytes32)
  | cancelFlushed (k : Nat)
  /-- The first statement of the `rollback_job` of the next job, if it is run. -/
  | jobCancelled (k : Nat)
  /-- The second statement of a `rollback_job`. -/
  | lowered (p : Party)
  | committed (p : Party)
  /-- `_guard` reads a job. -/
  | picked (job : Nat)
  /-- A job is given up before it is signed: the first statement of `rollback_job`. -/
  | gaveUp (status : Status) (reasons : List Reason)
  /-- A receipt shows no fill: the first statement of `rollback_job`. -/
  | reverted (reasons : List Reason)
  /-- A receipt or a log shows the fill. -/
  | landed
  | confirmed
  | claimed (txHash : Bytes32)
  | bumped (txHash : Bytes32)
  | settled (write : JobWrite)
  /-- `_resync_filled` reads the chain. -/
  | filledRead
  | readFailed
  | resynced
  | culpritsCancelled
  /-- A signed match is mined. -/
  | mined (job : Nat) (txHash : Bytes32)
  /-- An order is filled by others. -/
  | filledElsewhere (h : Bytes32) (qty : Int)

namespace State

/-- A statement of `p` need not wait for the row of an order. -/
def orderFree (s : State) (p : Party) (h : Bytes32) : Bool := (s.orderLocks h).all (· = p)

def jobFree (s : State) (p : Party) (i : Nat) : Bool := (s.jobLocks i).all (· = p)

def goto (s : State) (p : Party) (pc : Pc) : State := { s with pcs := Function.update s.pcs p pc }

def lockOrder (s : State) (p : Party) (h : Bytes32) : State :=
  { s with orderLocks := Function.update s.orderLocks h (some p) }

def lockJob (s : State) (p : Party) (i : Nat) : State :=
  { s with jobLocks := Function.update s.jobLocks i (some p) }

/-- A commit frees the rows the party wrote. -/
def commit (s : State) (p : Party) : State :=
  { s with
    pcs := Function.update s.pcs p .idle
    orderLocks := fun h => if s.orderLocks h = some p then none else s.orderLocks h
    jobLocks := fun i => if s.jobLocks i = some p then none else s.jobLocks i }

/-- No rows, no parties. -/
def initial : State where
  book := ⟨fun _ => none, []⟩
  chain := ⟨fun _ => 0, []⟩
  pcs := fun _ => .idle
  orderLocks := fun _ => none
  jobLocks := fun _ => none
  undone := []

end State

/-- A log of one of the job's transactions names its orders. -/
def Chain.landed (c : Chain) (job : Job) : Bool :=
  c.logs.any fun log => decide (log.1 ∈ job.txHashes) && decide (log.2.1 = job.takerHash) &&
    decide (log.2.2 = job.makerHash)

def After.pc : After → Pc
  | .cancelling rows => .cancelling rows
  | .retiring job reasons => .retiring job reasons (drifted reasons)

/-! ### Matching -/

/-- The guarded update of `_take`, of a row that is not locked. -/
def take (s : State) (p : Party) (h : Bytes32) (qty : Int) : Option State :=
  if s.orderFree p h then
    (s.book.take h qty).map fun book => { s with book }.lockOrder p h
  else none

def matchStep (s : State) : Event → Option State
  | .posted k h order =>
      if s.pcs (.request k) = .idle ∧ s.book.orders h = none ∧ s.orderFree (.request k) h ∧
          0 < order.amount ∧ order.filled = 0 ∧ order.cancelled = false then
        some (({ s with book.orders := Function.update s.book.orders h (some order) }.lockOrder
          (.request k) h).goto (.request k) (.matching h .between))
      else none
  | .makerTaken p makerHash qty =>
      match s.pcs p with
      | .matching takerHash .between =>
          if 0 < qty ∧ makerHash ≠ takerHash then
            (take s p makerHash qty).map (·.goto p (.matching takerHash (.maker makerHash qty)))
          else none
      | _ => none
  | .takerTaken p =>
      match s.pcs p with
      | .matching takerHash (.maker makerHash qty) =>
          (take s p takerHash qty).map (·.goto p (.matching takerHash (.both makerHash qty)))
      | _ => none
  | .takerRefused p =>
      match s.pcs p with
      | .matching takerHash (.maker makerHash qty) =>
          if s.orderFree p takerHash ∧ s.book.take takerHash qty = none then
            some (s.goto p (.matching takerHash (.refused makerHash qty)))
          else none
      | _ => none
  | .gaveBack p =>
      match s.pcs p with
      | .matching takerHash (.refused makerHash qty) =>
          some ({ s with book := s.book.giveBack makerHash qty }.goto p
            (.matching takerHash .between))
      | _ => none
  | .enqueued p =>
      match s.pcs p with
      | .matching takerHash (.both makerHash qty) =>
          some ({ s with
            book.jobs := s.book.jobs ++ [Book.enqueued takerHash makerHash qty] }.goto p
              (.matching takerHash .between))
      | _ => none
  | .offchain p =>
      match s.pcs p with
      | .matching takerHash (.both _ _) => some (s.goto p (.matching takerHash .between))
      | _ => none
  | _ => none

/-! ### Rolling back -/

/-- The first statement of `rollback_job`: whether the job is still as the caller saw it. -/
def retire (s : State) (p : Party) (i : Nat) (expected status : Status) (next : After)
    (missed : Pc) : Option State :=
  if s.jobFree p i then
    match s.book.jobs[i]? with
    | some job =>
        if expected.terminal = false ∧ job.status = expected then
          some ((s.lockJob p i).goto p (.lowering i status next))
        else some (s.goto p missed)
    | none => none
  else none

/-- The second statement of `rollback_job`. -/
def lower (s : State) (p : Party) : Option State :=
  match s.pcs p with
  | .lowering i status next =>
      match s.book.jobs[i]? with
      | some job =>
          if s.orderFree p job.takerHash ∧ s.orderFree p job.makerHash then
            some ((({ s with
              book := (s.book.setStatus i status).lowerFilled job
              undone := s.undone ++ [i] }.lockOrder p job.takerHash).lockOrder p
                job.makerHash).goto p next.pc)
          else none
      | none => none
  | _ => none

def deleteStep (s : State) : Event → Option State
  | .deleting k h =>
      if s.pcs (.request k) = .idle ∧ (s.book.orders h).isSome then
        some (s.goto (.request k)
          (.deleting h ((s.book.jobsOf h).map fun row => (row.1, row.2.status))))
      else none
  | .cancelFlushed k =>
      match s.pcs (.request k) with
      | .deleting h rows =>
          if s.orderFree (.request k) h then
            some (({ s with book := s.book.cancelOrder h }.lockOrder (.request k) h).goto
              (.request k) (.cancelling rows))
          else none
      | _ => none
  | .jobCancelled k =>
      match s.pcs (.request k) with
      | .cancelling ((i, seen) :: rows) =>
          if seen = .pending then
            retire s (.request k) i .pending .cancelled (.cancelling rows) (.cancelling rows)
          else some (s.goto (.request k) (.cancelling rows))
      | _ => none
  | _ => none

/-- What may be committed. -/
def commitStep (s : State) (p : Party) : Option State :=
  match s.pcs p with
  | .matching _ .between | .cancelling [] | .send _ | .reconcile _ => some (s.commit p)
  | _ => none

/-! ### The worker -/

/-- A write of the worker to its job, and its commit. -/
def writeJob (s : State) (i : Nat) (f : Job → Job) : Option State :=
  if s.jobFree .worker i then some { s with book := s.book.setJob i f } else none

def workerStep (s : State) : Event → Option State
  | .picked i =>
      match s.pcs .worker, s.book.jobs[i]? with
      | .idle, some job =>
          if job.status = .pending then some (s.goto .worker (.send i))
          else if job.status.inFlight then some (s.goto .worker (.reconcile i))
          else none
      | _, _ => none
  | .gaveUp status reasons =>
      match s.pcs .worker with
      | .send i =>
          if status = .failed ∨ status = .cancelled then
            retire s .worker i .pending status (.retiring i reasons) .idle
          else none
      | _ => none
  | .reverted reasons =>
      match s.pcs .worker with
      | .reconcile i =>
          match s.book.jobs[i]? with
          | some job => retire s .worker i job.status .failed (.retiring i reasons) .idle
          | none => none
      | _ => none
  | .landed =>
      match s.pcs .worker with
      | .send i | .reconcile i =>
          if (s.book.jobs[i]?).any s.chain.landed then some (s.goto .worker (.confirming i))
          else none
      | _ => none
  | .confirmed =>
      match s.pcs .worker with
      -- The update of `_confirm` names the job by its id alone.
      | .confirming i =>
          (writeJob s i fun job => { job with status := .confirmed }).map (·.commit .worker)
      | _ => none
  | .claimed txHash =>
      match s.pcs .worker with
      | .send i =>
          if s.jobFree .worker i then
            match s.book.claim i txHash with
            | some book => some ({ s with book }.goto .worker (.reconcile i))
            | none => some (s.commit .worker)
          else none
      | _ => none
  | .bumped txHash =>
      match s.pcs .worker with
      | .reconcile i => writeJob s i fun job => { job with txHashes := job.txHashes ++ [txHash] }
      | _ => none
  | .settled write =>
      match s.pcs .worker, write with
      | .reconcile i, .sent =>
          (writeJob s i fun job => { job with status := .sent }).map (·.commit .worker)
      | .reconcile i, .pending =>
          (writeJob s i fun job => { job with status := .pending }).map (·.commit .worker)
      | _, _ => none
  | .filledRead =>
      match s.pcs .worker with
      | .retiring i reasons (side :: sides) =>
          match s.book.jobs[i]? with
          | some job => some (s.goto .worker
              (.resyncing i reasons side (s.chain.filled (job.hash side)) sides))
          | none => none
      | _ => none
  | .readFailed =>
      match s.pcs .worker with
      | .retiring i reasons (_ :: sides) => some (s.goto .worker (.retiring i reasons sides))
      | _ => none
  | .resynced =>
      match s.pcs .worker with
      | .resyncing i reasons side onchain sides =>
          match s.book.jobs[i]? with
          | some job =>
              if s.orderFree .worker (job.hash side) then
                some (({ s with book := s.book.resyncFilled (job.hash side) onchain }.lockOrder
                  .worker (job.hash side)).goto .worker (.retiring i reasons sides))
              else none
          | none => none
      | _ => none
  | .culpritsCancelled =>
      match s.pcs .worker with
      | .retiring i reasons [] =>
          match s.book.jobs[i]? with
          | some job =>
              let book := (culprits reasons).foldl (fun b side => b.cancelOrder (job.hash side))
                s.book
              -- The rollback has locked both rows.
              if rematches book job reasons then
                some ({ s with book }.goto .worker (.matching job.takerHash .between))
              else some ({ s with book }.commit .worker)
          | none => none
      | _ => none
  | _ => none

/-! ### The chain -/

def chainStep (s : State) : Event → Option State
  | .mined i txHash =>
      match s.book.jobs[i]? with
      | some job =>
          if txHash ∈ job.txHashes ∧ s.chain.logs.all fun log => decide (log.1 ≠ txHash) then
            some { s with chain :=
              { filled := fun h => s.chain.filled h + if job.touches h then job.fillAmount else 0
                logs := s.chain.logs ++ [(txHash, job.takerHash, job.makerHash)] } }
          else none
      | none => none
  | .filledElsewhere h qty =>
      if 0 ≤ qty then
        some { s with chain.filled := Function.update s.chain.filled h (s.chain.filled h + qty) }
      else none
  | _ => none

def step (s : State) (event : Event) : Option State :=
  match event with
  | .posted .. | .makerTaken .. | .takerTaken _ | .takerRefused _ | .gaveBack _ | .enqueued _
  | .offchain _ => matchStep s event
  | .deleting .. | .cancelFlushed _ | .jobCancelled _ => deleteStep s event
  | .lowered p => lower s p
  | .committed p => commitStep s p
  | .mined .. | .filledElsewhere .. => chainStep s event
  | _ => workerStep s event

end OverUnder.Backend.FillRuns
