/-
Module: OverUnder.Backend.RelayNonces
Purpose: The two senders that share the relayer key in one process: the worker of
  `backend/app/relayer/worker.py` and the distribution endpoint of
  `backend/app/emissions/router.py`. Of their rows only the payload, the status and
  the nonce are kept, of their steps those that touch these, the nonce manager or
  its lock. Every await of the source is a step, so that any other can come between,
  and the node may answer anything.
Trusted boundary: human-reviewed spec
Main exports: Status, Job, Distribution, WorkerPc, RequestPc, State, held, Event, step
-/
import OverUnder.Backend.NonceManager

namespace OverUnder.Backend.RelayNonces

/-- `RelayJob.status`. `EmissionDistribution.status` has the middle four. -/
inductive Status where
  | pending
  | sending
  | sent
  | confirmed
  | failed
  | cancelled
deriving DecidableEq, Repr

/-- `IN_FLIGHT`. -/
def Status.inFlight : Status → Bool
  | .sending | .sent => true
  | _ => false

/-- `LIVE` of distributions. -/
def Status.live : Status → Bool
  | .sending | .sent | .confirmed => true
  | _ => false

def Status.terminal : Status → Bool
  | .confirmed | .failed | .cancelled => true
  | _ => false

structure Job where
  status : Status
  nonce : Option Nat
deriving DecidableEq, Repr

/-- `payload` stands for the payload hash and the idempotency key. -/
structure Distribution where
  payload : Nat
  status : Status
  nonce : Nat
deriving DecidableEq, Repr

/-- What a step of the worker leaves to its last commit. -/
inductive JobWrite where
  | unchanged
  | sent
  | confirmed
  | failed
  /-- `_back_to_pending`. -/
  | pending
deriving DecidableEq, Repr

def JobWrite.apply (job : Job) : JobWrite → Job
  | .unchanged => job
  | .sent => { job with status := .sent }
  | .confirmed => { job with status := .confirmed }
  | .failed => { job with status := .failed }
  | .pending => { status := .pending, nonce := none }

/-- Where the worker stands with the job at hand. -/
inductive WorkerPc where
  | idle
  /-- In `_nonce_floor`, at its first query. -/
  | floorJobs (job : Nat)
  /-- In `_nonce_floor`, at its second query. -/
  | floorDistributions (job : Nat) (topJob : Option Nat)
  /-- At the nonce lock. -/
  | enter (job : Nat) (floor : Option Nat)
  /-- At the conditional claim. -/
  | claim (job : Nat) (floor : Option Nat)
  /-- At `nm.reserve`. -/
  | reserve (job : Nat) (floor : Option Nat)
  /-- At the write-ahead commit. -/
  | record (job nonce : Nat)
  | broadcast (job nonce : Nat)
  /-- At the `nm.resync` of `_send`; `write` is decided unless receipts are asked for. -/
  | resync (job : Nat) (write : Option JobWrite)
  /-- In the `_nonce_consumed` of `_send`. -/
  | consumed (job : Nat)
  /-- In `_resync`, at the nonce lock. -/
  | enterResync (job : Nat) (write : JobWrite)
  /-- In `_resync`, at `nm.resync`. -/
  | lockedResync (job : Nat) (write : JobWrite)
  /-- At the commit of `_guard`. -/
  | commit (job : Nat) (write : JobWrite)
deriving DecidableEq, Repr

/-- The worker holds the nonce lock. -/
def WorkerPc.holds : WorkerPc → Bool
  | .claim .. | .reserve .. | .record .. | .broadcast .. | .resync .. | .consumed _
  | .lockedResync .. => true
  | _ => false

/-- The row the worker has claimed and not committed. -/
def WorkerPc.claimed : WorkerPc → Option Nat
  | .reserve job _ | .record job _ => some job
  | _ => none

/-- What a request does with the rows it refreshes. -/
inductive Purpose where
  /-- `get_distribution`. -/
  | poll
  /-- The first `_live_rows` of `distribute`. -/
  | fast
  /-- The one under the nonce lock. -/
  | locked
  /-- The one after an `IntegrityError`, under the lock as well. -/
  | conflict
deriving DecidableEq, Repr

/-- Where a request of the given payload stands. -/
inductive RequestPc where
  /-- In `_live_rows` with the rows it read, their receipts being looked up. -/
  | refresh (purpose : Purpose) (prior : List (Nat × Status))
  | estimate
  | enter
  /-- In `_nonce_floor`, at its first query. -/
  | floorJobs
  /-- In `_nonce_floor`, at its second query. -/
  | floorDistributions (topJob : Option Nat)
  | reserve (floor : Option Nat)
  /-- At the write-ahead commit of a new row. -/
  | record (nonce : Nat)
  | broadcast (row nonce : Nat)
  /-- At `nm.resync` after `nonce_low` or `underpriced`. -/
  | resync (row : Nat)
  /-- In `_mined_earlier`. -/
  | earlier (row : Nat)
  /-- At the commit after the first broadcast, of `sent` or of `failed`. -/
  | store (row nonce : Nat) (status : Status)
  /-- In `_duplicate`, at the broadcast of a recorded row. -/
  | rebroadcast (locked : Bool) (row : Nat)
  /-- In `_duplicate`, at its commit of `sent`. -/
  | markSent (locked : Bool) (row : Nat)
  | finished
deriving DecidableEq, Repr

def Purpose.holds : Purpose → Bool
  | .poll | .fast => false
  | .locked | .conflict => true

/-- The request holds the nonce lock. -/
def RequestPc.holds : RequestPc → Bool
  | .refresh purpose _ => purpose.holds
  | .floorJobs | .floorDistributions _ | .reserve _ | .record _ | .broadcast .. | .resync _
  | .earlier _ | .store .. => true
  | .rebroadcast locked _ | .markSent locked _ => locked
  | .estimate | .enter | .finished => false

structure Request where
  payload : Nat
  pc : RequestPc
deriving DecidableEq, Repr

/-- Who holds the nonce lock. -/
inductive Owner where
  | worker
  | request (i : Nat)
deriving DecidableEq, Repr

structure State where
  jobs : List Job
  distributions : List Distribution
  manager : NonceManager
  lock : Option Owner
  worker : WorkerPc
  requests : List Request

/-- A row of one of the two tables. -/
inductive RecordId where
  | job (id : Nat)
  | distribution (id : Nat)
deriving DecidableEq, Repr

def Job.held (job : Job) : Option Nat := if job.status.inFlight then job.nonce else none

def Distribution.held (row : Distribution) : Option Nat :=
  if row.status.inFlight then some row.nonce else none

/-- The nonce an in-flight record holds. -/
def State.held (s : State) : RecordId → Option Nat
  | .job id => s.jobs[id]?.bind Job.held
  | .distribution id => s.distributions[id]?.bind Distribution.held

/-- `func.max(RelayJob.nonce)` over the jobs in flight. -/
def State.topJob (s : State) : Option Nat := (s.jobs.filterMap Job.held).max?

/-- `func.max(EmissionDistribution.nonce)` over the distributions in flight. -/
def State.topDistribution (s : State) : Option Nat :=
  (s.distributions.filterMap Distribution.held).max?

/-- The last line of `_nonce_floor`. -/
def nonceFloor (topJob topDistribution : Option Nat) : Option Nat :=
  (topJob.toList ++ topDistribution.toList).max?.map (· + 1)

/-! ### The worker -/

/-- A step of the worker, with what the node answers. -/
inductive WorkerEvent where
  /-- `_send` of a pending job, up to the nonce floor. -/
  | send (job : Nat)
  /-- `_reconcile` of a job in flight, up to its commit or its `_resync`. -/
  | reconcile (job : Nat) (write : JobWrite) (resyncs : Bool)
  | floorRead
  | entered
  | claimed
  | reserved (pending : Option Nat)
  /-- Signing raised. -/
  | unsigned
  | recorded
  | answered (answer : Answer)
  | resynced (pending : Option Nat)
  /-- What `_nonce_consumed` makes of the receipts. -/
  | settled (write : JobWrite)
  | committed
  /-- An exception: `_guard` rolls the session back. -/
  | dropped
  /-- `invalidate`, on gaining leadership at the start of a tick. -/
  | invalidated
deriving DecidableEq, Repr

/-- Move the worker on; the lock is free once it does not hold it. -/
def State.toWorker (s : State) (pc : WorkerPc) : State :=
  { s with
    worker := pc
    lock := if pc.holds then some .worker else if s.worker.holds then none else s.lock }

def State.setJob (s : State) (id : Nat) (job : Job) : State :=
  { s with jobs := s.jobs.set id job }

/-- `_send` after its broadcast. -/
def workerAnswered (job : Nat) : Answer → WorkerPc
  | none | some .known => .commit job .sent
  | some .nonceLow => .resync job none
  | some .underpriced => .resync job (some .pending)
  | some .insufficientFunds => .commit job .pending
  | some .revert | some .transient => .commit job .unchanged

/-- The nonce manager after the broadcast of `_send`. -/
def workerReleases (nm : NonceManager) (nonce : Nat) : Answer → NonceManager
  | some .insufficientFunds => nm.release nonce
  | _ => nm

def workerStep (s : State) : WorkerEvent → Option State
  | .send id =>
      match s.worker, s.jobs[id]? with
      | .idle, some job =>
          if job.status = .pending then some (s.toWorker (.floorJobs id)) else none
      | _, _ => none
  | .reconcile id write resyncs =>
      match s.worker, s.jobs[id]? with
      | .idle, some job =>
          if job.status.inFlight then
            some (s.toWorker (if resyncs then .enterResync id write else .commit id write))
          else none
      | _, _ => none
  | .floorRead =>
      match s.worker with
      | .floorJobs id => some (s.toWorker (.floorDistributions id s.topJob))
      | .floorDistributions id top =>
          some (s.toWorker (.enter id (nonceFloor top s.topDistribution)))
      | _ => none
  | .entered =>
      if s.lock = none then
        match s.worker with
        | .enter id floor => some (s.toWorker (.claim id floor))
        | .enterResync id write => some (s.toWorker (.lockedResync id write))
        | _ => none
      else none
  | .claimed =>
      match s.worker with
      | .claim id floor =>
          if s.jobs[id]?.map Job.status = some .pending then
            some (s.toWorker (.reserve id floor))
          else some (s.toWorker .idle)
      | _ => none
  | .reserved pending =>
      match s.worker with
      | .reserve id floor =>
          match s.manager.reserve pending floor with
          | some (n, manager) => some ({ s with manager }.toWorker (.record id n))
          | none => some (s.toWorker .idle)
      | _ => none
  | .unsigned =>
      match s.worker with
      | .record _ n => some ({ s with manager := s.manager.release n }.toWorker .idle)
      | _ => none
  | .recorded =>
      match s.worker with
      | .record id n => some ((s.setJob id ⟨.sending, some n⟩).toWorker (.broadcast id n))
      | _ => none
  | .answered answer =>
      match s.worker with
      | .broadcast id n =>
          some ({ s with manager := workerReleases s.manager n answer }.toWorker
            (workerAnswered id answer))
      | _ => none
  | .resynced pending =>
      match s.worker, NonceManager.resync pending with
      | .resync id none, some manager => some ({ s with manager }.toWorker (.consumed id))
      | .resync id (some write), some manager =>
          some ({ s with manager }.toWorker (.commit id write))
      | .lockedResync id write, some manager =>
          some ({ s with manager }.toWorker (.commit id write))
      | .resync .., none | .lockedResync .., none => some (s.toWorker .idle)
      | _, _ => none
  | .settled write =>
      match s.worker with
      | .consumed id => some (s.toWorker (.commit id write))
      | _ => none
  | .committed =>
      match s.worker with
      | .commit id write =>
          match s.jobs[id]? with
          | some job => some ((s.setJob id (write.apply job)).toWorker .idle)
          | none => none
      | _ => none
  | .dropped => some (s.toWorker .idle)
  | .invalidated =>
      match s.worker with
      | .idle => some { s with manager := .fresh }
      | _ => none

/-! ### Distribution requests -/

/-- A step of one request, with what the node answers. -/
inductive RequestEvent where
  /-- The commit of `_live_rows` with the statuses `_refresh` came to. -/
  | refreshed (statuses : List Status)
  | estimated (fine : Bool)
  /-- The nonce lock is free; `leader` is whether `_leader_conn` lets the request on. -/
  | entered (leader : Bool)
  | floorRead
  | reserved (pending : Option Nat)
  | recorded
  | answered (answer : Answer)
  | resynced (pending : Option Nat)
  /-- The commit after `_mined_earlier`, which may have found another failed row mined. -/
  | searched (found : Option Nat)
  | committed
  /-- A client that disconnects or an exception. -/
  | dropped
deriving DecidableEq, Repr

/-- The `SELECT` of `_live_rows`. -/
def State.liveRows (s : State) (payload : Nat) : List (Nat × Status) :=
  (List.range s.distributions.length).filterMap fun id =>
    match s.distributions[id]? with
    | some row => if row.payload = payload ∧ row.status.live then some (id, row.status) else none
    | none => none

/-- `_refresh` moves a row in flight on, and no other. -/
def refreshes (old new : Status) : Bool :=
  old = new || old.inFlight && (new = .confirmed || new = .failed)

/-- The status updates of a session. -/
abbrev Writes := List (Nat × Status)

def setStatus (rows : List Distribution) (write : Nat × Status) : List Distribution :=
  match rows[write.1]? with
  | some row => rows.set write.1 { row with status := write.2 }
  | none => rows

/-- `uq_emission_live_payload`. -/
def liveUnique (rows : List Distribution) : Bool :=
  rows.all fun row =>
    (rows.filter fun other => other.payload = row.payload && other.status.live).length ≤ 1

/-- Committing a session's updates. -/
def commitWrites (rows : List Distribution) (writes : Writes) : Option (List Distribution) :=
  let updated := writes.foldl setStatus rows
  if liveUnique updated then some updated else none

/-- The updates of `_live_rows`: the rows whose status changed. -/
def refreshWrites (prior : List (Nat × Status)) (statuses : List Status) : Writes :=
  (prior.zip statuses).filterMap fun (old, new) => if old.2 = new then none else some (old.1, new)

/-- `_duplicate`, up to its broadcast. -/
def duplicate (locked : Bool) (row : Nat) (status : Status) : RequestPc :=
  if status = .sending then .rebroadcast locked row else .finished

/-- What follows the commit of `_live_rows`. -/
def afterRefresh (purpose : Purpose) (rows : List (Nat × Status)) : RequestPc :=
  match purpose, (rows.filter fun row => row.2.live).getLast? with
  | .poll, _ => .finished
  | _, some row => duplicate purpose.holds row.1 row.2
  | .fast, none => .estimate
  | .locked, none => .floorJobs
  | .conflict, none => .finished

/-- `distribute` after the first broadcast of its row. -/
def requestAnswered (row nonce : Nat) : Answer → RequestPc
  | none | some .known => .store row nonce .sent
  | some .insufficientFunds | some .revert => .store row nonce .failed
  | some .nonceLow | some .underpriced => .resync row
  | some .transient => .finished

/-- A definite rejection hands the nonce back. -/
def requestReleases (nm : NonceManager) (nonce : Nat) : Answer → NonceManager
  | some .insufficientFunds | some .revert => nm.release nonce
  | _ => nm

/-- `_duplicate` after its broadcast. -/
def requestReanswered (locked : Bool) (row : Nat) : Answer → RequestPc
  | none | some .known | some .underpriced => .markSent locked row
  | _ => .finished

/-- Move a request on; the lock is free once it does not hold it. -/
def State.toRequest (s : State) (i : Nat) (request : Request) (pc : RequestPc) : State :=
  { s with
    requests := s.requests.set i { request with pc }
    lock := if pc.holds then some (.request i) else if request.pc.holds then none else s.lock }

/-- Commit and move on; a violated index ends the request. -/
def State.commitThen (s : State) (i : Nat) (request : Request) (writes : Writes)
    (pc : RequestPc) : State :=
  match commitWrites s.distributions writes with
  | some distributions => { s with distributions }.toRequest i request pc
  | none => s.toRequest i request .finished

def requestStep (s : State) (i : Nat) (request : Request) : RequestEvent → Option State
  | .refreshed statuses =>
      match request.pc with
      | .refresh purpose prior =>
          if statuses.length = prior.length ∧
              (prior.zip statuses).all fun (old, new) => refreshes old.2 new then
            some (s.commitThen i request (refreshWrites prior statuses)
              (afterRefresh purpose ((prior.map Prod.fst).zip statuses)))
          else none
      | _ => none
  | .estimated fine =>
      match request.pc with
      | .estimate => some (s.toRequest i request (if fine then .enter else .finished))
      | _ => none
  | .entered leader =>
      match request.pc with
      | .enter =>
          if s.lock = none then
            if leader then
              some (s.toRequest i request (.refresh .locked (s.liveRows request.payload)))
            else some (s.toRequest i request .finished)
          else none
      | _ => none
  | .floorRead =>
      match request.pc with
      | .floorJobs => some (s.toRequest i request (.floorDistributions s.topJob))
      | .floorDistributions top =>
          some (s.toRequest i request (.reserve (nonceFloor top s.topDistribution)))
      | _ => none
  | .reserved pending =>
      match request.pc with
      | .reserve floor =>
          match s.manager.reserve pending floor with
          | some (n, manager) => some ({ s with manager }.toRequest i request (.record n))
          | none => some (s.toRequest i request .finished)
      | _ => none
  | .recorded =>
      match request.pc with
      | .record n =>
          let distributions := s.distributions ++ [⟨request.payload, .sending, n⟩]
          if liveUnique distributions then
            some ({ s with distributions }.toRequest i request
              (.broadcast s.distributions.length n))
          else
            some ({ s with manager := s.manager.release n }.toRequest i request
              (.refresh .conflict (s.liveRows request.payload)))
      | _ => none
  | .answered answer =>
      match request.pc with
      | .broadcast row n =>
          some ({ s with manager := requestReleases s.manager n answer }.toRequest i request
            (requestAnswered row n answer))
      | .rebroadcast locked row =>
          some (s.toRequest i request (requestReanswered locked row answer))
      | _ => none
  | .resynced pending =>
      match request.pc, NonceManager.resync pending with
      | .resync row, some manager => some ({ s with manager }.toRequest i request (.earlier row))
      | .resync _, none => some (s.toRequest i request .finished)
      | _, _ => none
  | .searched found =>
      match request.pc with
      | .earlier row =>
          let confirms := match found with
            | some other => [(other, Status.confirmed)]
            | none => []
          some (s.commitThen i request ((row, .failed) :: confirms) .finished)
      | _ => none
  | .committed =>
      match request.pc with
      | .store row _ status => some (s.commitThen i request [(row, status)] .finished)
      | .markSent _ row => some (s.commitThen i request [(row, .sent)] .finished)
      | _ => none
  | .dropped => some (s.toRequest i request .finished)

/-! ### The process -/

/-- One step of the process, with what the environment answers. -/
inductive Event where
  /-- `enqueue_match`. -/
  | enqueued
  /-- A job not in flight is cancelled by a maker, or closed by `_send` before it signs. -/
  | closed (job : Nat) (status : Status)
  | worker (event : WorkerEvent)
  /-- `POST /emissions/distribute`, up to its first receipt read. -/
  | distribute (payload : Nat)
  /-- `GET /distributions/{id}`. -/
  | poll (row : Nat)
  | request (i : Nat) (event : RequestEvent)
  /-- The process stops and starts again: what was not committed is lost. -/
  | crash
deriving DecidableEq, Repr

/-- One step, `none` when the event cannot happen. -/
def step (s : State) : Event → Option State
  | .enqueued => some { s with jobs := s.jobs ++ [⟨.pending, none⟩] }
  | .closed id status =>
      match s.jobs[id]? with
      | some job =>
          if status.terminal ∧ job.status.inFlight = false ∧ s.worker.claimed ≠ some id then
            some (s.setJob id { job with status })
          else none
      | none => none
  | .worker event => workerStep s event
  | .distribute payload =>
      some { s with
        requests := s.requests ++ [⟨payload, .refresh .fast (s.liveRows payload)⟩] }
  | .poll id =>
      match s.distributions[id]? with
      | some row =>
          some { s with
            requests := s.requests ++ [⟨row.payload, .refresh .poll [(id, row.status)]⟩] }
      | none => none
  | .request i event =>
      match s.requests[i]? with
      | some request => requestStep s i request event
      | none => none
  | .crash => some { s with manager := .fresh, lock := none, worker := .idle, requests := [] }

/-- A process that just started on an empty database. -/
def initial : State := ⟨[], [], .fresh, none, .idle, []⟩

end OverUnder.Backend.RelayNonces
