/-
Module: OverUnder.Backend.CancelRuns
Purpose: Runs of POST /orders, DELETE /orders and the relayer's worker over one database.
  The writes of a transaction are seen by others at its commit; what it reads, it reads at
  the time. Every await between a read and a commit is a place where others come between
  and where the process can die. The node, the chain and the preflight may answer anything.
Trusted boundary: human-reviewed spec
Main exports: Post, Cancel, Pc, State, Event, step, exposed, Initial
-/
import OverUnder.Backend.OrderBook

namespace OverUnder.Backend.CancelRuns

open OverUnder.Vyper (Bytes32)
open RelayNonces (Status JobWrite)
open OrderBook

/-- An open transaction that matches one order: the row it inserts, if it is a POST, and
the takes of its fills, with the jobs they become. -/
structure Post where
  takerHash : Bytes32
  inserts : Option Order
  fills : List (Bytes32 × Int)

/-- A DELETE that has not answered: the order as read and, once read, its jobs. -/
structure Cancel where
  orderHash : Bytes32
  order : Order
  jobs : Option (List (Nat × Job))

/-- Where the worker stands with the job at hand. -/
inductive Pc where
  | idle
  /-- In `_send`, before it reads the orders. -/
  | send (job : Nat)
  /-- In `_send`, with two orders it read as live. -/
  | preflight (job : Nat)
  /-- In `_send`, giving the job up; the reasons are those of a failed preflight. -/
  | giveUp (job : Nat) (status : Status) (reasons : List Reason)
  /-- In `_reconcile`. -/
  | reconcile (job : Nat)
  /-- Past a write-ahead commit, at the broadcast. -/
  | broadcast (job : Nat)
  /-- Past a broadcast, before the commit of `_guard`. -/
  | settle (job : Nat)
deriving DecidableEq

/-- `published` are the jobs whose bytes reached a node, `answers` what DELETEs answered
as `onchainCancelRequired`. -/
structure State where
  book : Book
  posts : List Post
  cancels : List Cancel
  worker : Pc
  published : List Nat
  answers : List (Bytes32 × Bool)

/-- What open transactions have taken from an order. -/
def Post.taken (post : Post) (h : Bytes32) : Int :=
  (post.fills.map fun fill =>
    if post.takerHash = h ∨ fill.1 = h then fill.2 else 0).sum

def State.taken (s : State) (h : Bytes32) : Int := (s.posts.map fun post => post.taken h).sum

/-- Both `_take`s of a fill go through. -/
def State.canTake (s : State) (post : Post) (makerHash : Bytes32) (qty : Int) : Bool :=
  (match s.book.orders makerHash with
    | some o => o.takes (s.taken makerHash + qty)
    | none => false) &&
  match s.book.orders post.takerHash, post.inserts with
  | some o, _ => o.takes (s.taken post.takerHash + qty)
  | none, some o => o.takes (post.taken post.takerHash + qty)
  | none, none => false

/-- The commit of a matching transaction. -/
def Post.commit (b : Book) (post : Post) : Book :=
  let inserted := match post.inserts with
    | some o => Function.update b.orders post.takerHash (some o)
    | none => b.orders
  { orders := fun h => (inserted h).map (.raise (post.taken h))
    jobs := b.jobs ++ post.fills.map fun fill =>
      Book.enqueued post.takerHash fill.1 fill.2 }

/-! ### DELETE -/

/-- What the fills of the order beyond its never-broadcast pending jobs, or the jobs
themselves, say about the order at the time they were read. -/
def exposed (order : Order) (jobs : List (Nat × Job)) : Bool :=
  let unsent := (jobs.map fun row =>
    if row.2.status = .pending ∧ row.2.txHashes = [] then row.2.fillAmount else 0).sum
  decide (order.filled - unsent > 0) ||
    jobs.any fun row => !row.2.txHashes.isEmpty ||
      decide (row.2.status = .sending ∨ row.2.status = .sent ∨ row.2.status = .confirmed)

/-- The loop over the jobs as read: the book after it, and the jobs found in flight. -/
def rollbacks : Book → List (Nat × Job) → Book × List Nat
  | b, [] => (b, [])
  | b, (id, seen) :: rest =>
      match if seen.status = .pending then b.rollbackJob id .pending .cancelled else none with
      | some b' => rollbacks b' rest
      | none =>
          -- A pending row another writer moved first is refreshed before its status is read.
          let status := if seen.status = .pending then (b.jobs[id]?.map Job.status).getD .pending
            else seen.status
          let (b', inFlight) := rollbacks b rest
          (b', if status.inFlight then id :: inFlight else inFlight)

/-- The commit of a DELETE and its `onchainCancelRequired`. -/
def Cancel.commit (b : Book) (cancel : Cancel) (jobs : List (Nat × Job)) : Book × Bool :=
  let (b', inFlight) := rollbacks (b.cancelOrder cancel.orderHash) jobs
  (b', exposed cancel.order jobs || !inFlight.isEmpty)

/-! ### The worker -/

/-- `_retire_failed_side` up to its rematch, with what the chain says is filled. -/
def retireFailedSide (b : Book) (job : Job) (reasons : List Reason) (onchain : Side → Int) :
    Book :=
  let b := (drifted reasons).foldl (fun b side => b.resyncFilled (job.hash side) (onchain side)) b
  (culprits reasons).foldl (fun b side => b.cancelOrder (job.hash side)) b

/-- Give a job up as seen in status `expected`; the rematch, if any, is a transaction of
its own. -/
def giveUp (s : State) (id : Nat) (expected status : Status) (reasons : List Reason)
    (onchain : Side → Int) : State :=
  match s.book.rollbackJob id expected status, s.book.jobs[id]? with
  | some b, some job =>
      let book := retireFailedSide b job reasons onchain
      { s with
        book
        posts := if rematches book job reasons then s.posts ++ [⟨job.takerHash, none, []⟩]
          else s.posts
        worker := .idle }
  | _, _ => { s with worker := .idle }

/-! ### Steps -/

/-- A step of one party. -/
inductive Event where
  /-- POST: the order is flushed. -/
  | posted (h : Bytes32) (order : Order)
  /-- `try_match`: both takes of one fill go through and a job is flushed. -/
  | matched (post : Nat) (makerHash : Bytes32) (qty : Int)
  | postCommitted (post : Nat)
  | postDied (post : Nat)
  /-- DELETE: the order is read. -/
  | deleting (h : Bytes32)
  | jobsRead (cancel : Nat)
  | deleteCommitted (cancel : Nat)
  | deleteDied (cancel : Nat)
  /-- `_guard` reads a job. -/
  | picked (job : Nat)
  /-- `_send`: the fill turns out to have landed. -/
  | landed
  | ordersRead
  /-- `_send` after its preflight. -/
  | refused (reasons : List Reason)
  | claimed (txHash : Bytes32)
  /-- The node is called; the bytes get to it or not. -/
  | answered (reached : Bool)
  /-- `_reconcile` sends the stored bytes again. -/
  | rebroadcast (reached : Bool)
  /-- `_bump`: a replacement is on record. -/
  | bumped (txHash : Bytes32)
  /-- The commit of `_guard` after a broadcast or a reconcile. -/
  | settled (write : JobWrite) (reasons : List Reason) (onchain : Side → Int)
  /-- The commit of `_guard` after giving up. -/
  | gaveUp (onchain : Side → Int)
  /-- The worker dies, an exception rolls its session back, or it defers the job. -/
  | dropped

/-- The orders of the job are both on record and live. -/
def bothLive (b : Book) (job : Job) : Bool :=
  [job.takerHash, job.makerHash].all fun h => match b.orders h with
    | some o => !o.cancelled
    | none => false

def postStep (s : State) : Event → Option State
  | .posted h order =>
      if (s.book.orders h).isNone && !order.cancelled && decide (order.filled = 0) then
        some { s with posts := s.posts ++ [⟨h, some order, []⟩] }
      else none
  | .matched i makerHash qty =>
      match s.posts[i]? with
      | some post =>
          if decide (0 < qty) && s.canTake post makerHash qty then
            let post := { post with fills := post.fills ++ [(makerHash, qty)] }
            some { s with posts := s.posts.set i post }
          else none
      | none => none
  | .postCommitted i =>
      match s.posts[i]? with
      | some post =>
          -- The unique key of `order_hash` makes the later of two equal POSTs fail.
          if post.inserts.isSome && (s.book.orders post.takerHash).isSome then
            some { s with posts := s.posts.eraseIdx i }
          else some { s with book := post.commit s.book, posts := s.posts.eraseIdx i }
      | none => none
  | .postDied i => some { s with posts := s.posts.eraseIdx i }
  | _ => none

def cancelStep (s : State) : Event → Option State
  | .deleting h =>
      match s.book.orders h with
      | some order => some { s with cancels := s.cancels ++ [⟨h, order, none⟩] }
      | none => none
  | .jobsRead i =>
      match s.cancels[i]? with
      | some ⟨h, order, none⟩ =>
          some { s with cancels := s.cancels.set i ⟨h, order, some (s.book.jobsOf h)⟩ }
      | _ => none
  | .deleteCommitted i =>
      match s.cancels[i]? with
      | some ⟨h, order, some jobs⟩ =>
          let (book, required) := Cancel.commit s.book ⟨h, order, some jobs⟩ jobs
          some { s with
            book
            cancels := s.cancels.eraseIdx i
            answers := s.answers ++ [(h, required)] }
      | _ => none
  | .deleteDied i => some { s with cancels := s.cancels.eraseIdx i }
  | _ => none

def workerStep (s : State) : Event → Option State
  | .picked id =>
      match s.worker, s.book.jobs[id]? with
      | .idle, some job =>
          if job.status = .pending then some { s with worker := .send id }
          else if job.status.inFlight then some { s with worker := .reconcile id }
          else none
      | _, _ => none
  | .landed =>
      match s.worker with
      | .send id =>
          match s.book.jobs[id]? with
          | some job =>
              if job.txHashes = [] then none
              else some { s with book := s.book.setStatus id .confirmed, worker := .idle }
          | none => none
      | _ => none
  | .ordersRead =>
      match s.worker with
      | .send id =>
          match s.book.jobs[id]? with
          | some job =>
              if bothLive s.book job then some { s with worker := .preflight id }
              else some { s with worker := .giveUp id .cancelled [] }
          | none => none
      | _ => none
  | .refused reasons =>
      match s.worker with
      | .preflight id => some { s with worker := .giveUp id .failed reasons }
      | _ => none
  | .claimed txHash =>
      match s.worker with
      | .preflight id =>
          match s.book.claim id txHash with
          | some book => some { s with book, worker := .broadcast id }
          | none => some { s with worker := .idle }
      | _ => none
  | .answered reached =>
      match s.worker with
      | .broadcast id => some { s with
          published := if reached then s.published ++ [id] else s.published
          worker := .settle id }
      | _ => none
  | .rebroadcast reached =>
      match s.worker with
      | .reconcile id => some { s with
          published := if reached then s.published ++ [id] else s.published
          worker := .settle id }
      | _ => none
  | .bumped txHash =>
      match s.worker with
      | .reconcile id => some { s with
          book := s.book.setJob id fun job => { job with txHashes := job.txHashes ++ [txHash] }
          worker := .broadcast id }
      | _ => none
  | .settled write reasons onchain =>
      match s.worker with
      | .settle id | .reconcile id =>
          match write, s.book.jobs[id]? with
          | .unchanged, _ => some { s with worker := .idle }
          | .sent, _ => some { s with book := s.book.setStatus id .sent, worker := .idle }
          | .confirmed, _ => some { s with book := s.book.setStatus id .confirmed, worker := .idle }
          | .pending, _ => some { s with book := s.book.setStatus id .pending, worker := .idle }
          | .failed, some job => some (giveUp s id job.status .failed reasons onchain)
          | .failed, none => none
      | _ => none
  | .gaveUp onchain =>
      match s.worker with
      | .giveUp id status reasons => some (giveUp s id .pending status reasons onchain)
      | _ => none
  | .dropped => some { s with worker := .idle }
  | _ => none

def step (s : State) (event : Event) : Option State :=
  match event with
  | .posted .. | .matched .. | .postCommitted _ | .postDied _ => postStep s event
  | .deleting _ | .jobsRead _ | .deleteCommitted _ | .deleteDied _ => cancelStep s event
  | _ => workerStep s event

/-- An empty order book. -/
def State.initial : State :=
  ⟨⟨fun _ => none, []⟩, [], [], .idle, [], []⟩

end OverUnder.Backend.CancelRuns
