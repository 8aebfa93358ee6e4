/-
Module: OverUnder.Backend.Emissions
Purpose: The distribution endpoint of `backend/app/emissions/router.py` for one
  payload hash and idempotency key: any number of concurrent requests and polls,
  their database sessions, the nodes they talk to and the chain. Every await of
  the source is a step, so that any other step can come between.
Trusted boundary: human-reviewed spec
Main exports: Status, Row, Pc, Task, State, Event, applyWrites, step
-/
import OverUnder.Backend.NonceManager

namespace OverUnder.Backend.Emissions

open OverUnder.Library

/-- `EmissionDistribution.status`. -/
inductive Status where
  | sending
  | sent
  | confirmed
  | failed
deriving DecidableEq, Repr

/-- `LIVE`. -/
def Status.live : Status → Bool
  | .failed => false
  | _ => true

/-- `IN_FLIGHT`. -/
def Status.inFlight : Status → Bool
  | .sending | .sent => true
  | _ => false

/-- A row of `emission_distributions` with the payload hash and key at hand. `tx`
stands for its raw bytes and hash. -/
structure Row where
  id : Nat
  tx : Tx
  status : Status
  sentAt : Nat
deriving DecidableEq, Repr

/-- Status updates a session has made and not committed. -/
abbrev Writes := List (Nat × Status)

/-- What a task does with the rows it refreshed. -/
inductive Purpose where
  /-- `get_distribution`. -/
  | poll
  /-- The first `_live_rows` of `distribute`. -/
  | fast
  /-- The one under the nonce lock. -/
  | locked
  /-- The one after an `IntegrityError`. -/
  | conflict
deriving DecidableEq, Repr

/-- Where a task stands. -/
inductive Pc where
  /-- In `_live_rows`, at the receipt read of the first row of `todo`, or at the commit
  when none is left. -/
  | refresh (purpose : Purpose) (todo seen : List Row) (writes : Writes)
  /-- In `_refresh`, at the read of the mined nonce: there was no receipt of `row`. -/
  | readNonce (purpose : Purpose) (row : Row) (todo seen : List Row) (writes : Writes)
  /-- At the gas estimate and the fee lookup. -/
  | estimate
  /-- At the nonce lock and the leader lock. -/
  | enter
  /-- At `nm.reserve`. -/
  | reserve
  /-- At the write-ahead commit of a new row. -/
  | insert (tx : Tx)
  /-- At the broadcast of the row just recorded. -/
  | broadcast (row : Row)
  /-- At `nm.resync` after a broadcast answered `nonce_low` or `underpriced`. -/
  | resync (row : Row)
  /-- In `_mined_earlier`, at the receipt read of the first row of `todo`. -/
  | earlier (row : Row) (todo : List Row)
  /-- In `_duplicate`, at the broadcast of a recorded row. -/
  | rebroadcast (row : Row)
  /-- At the last commit of the request. -/
  | store (writes : Writes)
  | finished
deriving DecidableEq, Repr

/-- One request, in one process. `now` is read once at its start. -/
structure Task where
  process : Nat
  now : Nat
  /-- It holds the nonce lock of its process. -/
  holdsLock : Bool
  pc : Pc
deriving DecidableEq, Repr

/-- The database, the requests, the nonce managers of the processes and the chain. -/
structure State where
  rows : List Row
  tasks : List Task
  managers : Nat → NonceManager
  chain : NonceChain Tx

/-- One step, with what the environment answers. A read either answers what the chain
is at that moment or fails. -/
inductive Event where
  /-- `POST /emissions/distribute`, up to its first receipt read. -/
  | request (process now : Nat)
  /-- `GET /distributions/{id}`. -/
  | poll (process now id : Nat)
  | receipt (task : Nat) (fails : Bool)
  | latestNonce (task : Nat) (fails : Bool)
  | commit (task : Nat)
  | estimated (task : Nat) (fine : Bool)
  /-- The nonce lock is free; `leader` is whether `_leader_conn` lets the task on. -/
  | entered (task : Nat) (leader : Bool)
  /-- `nm.reserve` with the node's pending count and the nonce floor, then signing with
  the fees and gas at hand. -/
  | reserved (task : Nat) (pending floor : Option Nat) (terms : Nat)
  /-- An answer to a broadcast, and whether some node holds the bytes after it. -/
  | answered (task : Nat) (answer : Answer) (accepted : Bool)
  | resynced (task : Nat) (pending : Option Nat)
  /-- A client that disconnects or an exception. -/
  | dropped (task : Nat)
  /-- A process stops, and what its tasks did not commit is lost. -/
  | crash (process : Nat)
  | mine (tx : Tx) (success : Bool)
  /-- A transaction of the key that is none of these distributions. -/
  | mineOther
deriving DecidableEq, Repr

/-- Committing a session's writes. `uq_emission_live_payload` refuses a second live row. -/
def applyWrites (rows : List Row) (writes : Writes) : Option (List Row) :=
  let updated := rows.map fun r =>
    match writes.lookup r.id with
    | some status => { r with status }
    | none => r
  if (updated.filter fun r => r.status.live).length ≤ 1 then some updated else none

/-- The `SELECT` of `_live_rows`. -/
def selectLive (rows : List Row) (purpose : Purpose) : Pc :=
  .refresh purpose (rows.filter fun r => r.status.live) [] []

/-- `_duplicate`, up to its broadcast. -/
def duplicate (row : Row) : Pc :=
  if row.status = .sending then .rebroadcast row else .finished

/-- What follows the commit of `_live_rows` or of a poll. -/
def afterRefresh (purpose : Purpose) (seen : List Row) : Pc :=
  match purpose, (seen.filter fun r => r.status.live).getLast? with
  | .poll, _ => .finished
  | _, some row => duplicate row
  | .fast, none => .estimate
  | .locked, none => .reserve
  | .conflict, none => .finished

/-- The `SELECT` of `_mined_earlier` in a session that has flushed `row` as failed. -/
def selectFailed (rows : List Row) (row : Row) : List Row :=
  (rows.filter fun r => r.status = .failed || r.id = row.id).reverse

/-- The writes of `_mined_earlier` when `found` did mine: `row` is failed, unless it is
the one found. -/
def foundWrites (row found : Row) : Writes :=
  [(found.id, .confirmed), (row.id, .failed)]

/-- A task that ended holds no lock. -/
def Task.withPc (task : Task) (pc : Pc) : Task :=
  match pc with
  | .finished => { task with pc := .finished, holdsLock := false }
  | pc => { task with pc }

def State.setPc (s : State) (i : Nat) (task : Task) (pc : Pc) : State :=
  { s with tasks := s.tasks.set i (task.withPc pc) }

/-- The nonce lock of a process is free. -/
def State.lockFree (s : State) (process : Nat) : Bool :=
  s.tasks.all fun task => !(task.process = process && task.holdsLock)

/-- A node takes the bytes, or does not. -/
def State.reach (s : State) (tx : Tx) (accepted : Bool) : State :=
  if accepted then { s with chain := s.chain.accept tx } else s

def State.setManager (s : State) (process : Nat) (nm : NonceManager) : State :=
  { s with managers := Function.update s.managers process nm }

/-- `_refresh` of one row after its receipt read. -/
def afterReceipt (resubmitAfter : Nat) (s : State) (now : Nat) (purpose : Purpose) (row : Row)
    (todo seen : List Row) (writes : Writes) : Pc :=
  match s.chain.outcome row.tx with
  | some true =>
      .refresh purpose todo (seen ++ [{ row with status := .confirmed }])
        ((row.id, .confirmed) :: writes)
  | some false =>
      .refresh purpose todo (seen ++ [{ row with status := .failed }])
        ((row.id, .failed) :: writes)
  | none =>
      if row.sentAt + resubmitAfter ≤ now then .readNonce purpose row todo seen writes
      else .refresh purpose todo (seen ++ [row]) writes

/-- `_refresh` of one row after the read of the mined nonce. -/
def afterNonce (s : State) (purpose : Purpose) (row : Row) (todo seen : List Row)
    (writes : Writes) : Pc :=
  if s.chain.mined > row.tx.nonce then
    .refresh purpose todo (seen ++ [{ row with status := .failed }])
      ((row.id, .failed) :: writes)
  else .refresh purpose todo (seen ++ [row]) writes

/-- `distribute` after the first broadcast of its row. -/
def afterBroadcast (row : Row) : Answer → Pc
  | none | some .known => .store [(row.id, .sent)]
  | some .insufficientFunds | some .revert => .store [(row.id, .failed)]
  | some .nonceLow | some .underpriced => .resync row
  | some .transient => .store []

/-- `_duplicate` after its broadcast. -/
def afterRebroadcast (row : Row) : Answer → Pc
  | none | some .known | some .underpriced => .store [(row.id, .sent)]
  | _ => .store []

/-- The nonce manager after the first broadcast: a definite rejection hands the nonce back. -/
def releaseAfter (nm : NonceManager) (row : Row) : Answer → NonceManager
  | some .insufficientFunds | some .revert => nm.release row.tx.nonce
  | _ => nm

/-- A step of one task. -/
def taskStep (resubmitAfter : Nat) (s : State) (i : Nat) (task : Task) : Event → Option State
  | .receipt _ fails =>
      match task.pc with
      | .refresh purpose (row :: todo) seen writes =>
          if fails ∨ row.status.inFlight = false then
            some (s.setPc i task (.refresh purpose todo (seen ++ [row]) writes))
          else
            some (s.setPc i task
              (afterReceipt resubmitAfter s task.now purpose row todo seen writes))
      | .earlier row (r :: todo) =>
          if ¬fails ∧ s.chain.outcome r.tx = some true then
            some (s.setPc i task (.store (foundWrites row r)))
          else some (s.setPc i task (.earlier row todo))
      | _ => none
  | .latestNonce _ fails =>
      match task.pc with
      | .readNonce purpose row todo seen writes =>
          if fails then some (s.setPc i task (.refresh purpose todo (seen ++ [row]) writes))
          else some (s.setPc i task (afterNonce s purpose row todo seen writes))
      | _ => none
  | .commit _ =>
      match task.pc with
      | .refresh purpose [] seen writes =>
          match applyWrites s.rows writes with
          | some rows => some ({ s with rows }.setPc i task (afterRefresh purpose seen))
          | none => some (s.setPc i task .finished)
      | .store writes =>
          match applyWrites s.rows writes with
          | some rows => some ({ s with rows }.setPc i task .finished)
          | none => some (s.setPc i task .finished)
      | .earlier row [] =>
          match applyWrites s.rows [(row.id, .failed)] with
          | some rows => some ({ s with rows }.setPc i task .finished)
          | none => some (s.setPc i task .finished)
      | .insert tx =>
          if s.rows.any (fun r => r.status.live) then
            some ((s.setManager task.process ((s.managers task.process).release tx.nonce)).setPc
              i task (selectLive s.rows .conflict))
          else
            let row : Row := ⟨s.rows.length, tx, .sending, task.now⟩
            some ({ s with rows := s.rows ++ [row] }.setPc i task (.broadcast row))
      | _ => none
  | .estimated _ fine =>
      match task.pc with
      | .estimate => some (s.setPc i task (if fine then .enter else .finished))
      | _ => none
  | .entered _ leader =>
      match task.pc with
      | .enter =>
          if s.lockFree task.process then
            if leader then
              some (s.setPc i { task with holdsLock := true } (selectLive s.rows .locked))
            else some (s.setPc i task .finished)
          else none
      | _ => none
  | .reserved _ pending floor terms =>
      match task.pc with
      | .reserve =>
          match (s.managers task.process).reserve pending floor with
          | some (n, nm) =>
              some ((s.setManager task.process nm).setPc i task (.insert ⟨n, terms⟩))
          | none => some (s.setPc i task .finished)
      | _ => none
  | .answered _ answer accepted =>
      if answer.accepts = some (!accepted) then none
      else
        match task.pc with
        | .broadcast row =>
            some (((s.reach row.tx accepted).setManager task.process
              (releaseAfter (s.managers task.process) row answer)).setPc i task
                (afterBroadcast row answer))
        | .rebroadcast row =>
            some ((s.reach row.tx accepted).setPc i task (afterRebroadcast row answer))
        | _ => none
  | .resynced _ pending =>
      match task.pc with
      | .resync row =>
          match NonceManager.resync pending with
          | some nm =>
              some ((s.setManager task.process nm).setPc i task
                (.earlier row (selectFailed s.rows row)))
          | none => some (s.setPc i task .finished)
      | _ => none
  | .dropped _ => some (s.setPc i task .finished)
  | _ => none

/-- The task an event belongs to. -/
def Event.task : Event → Option Nat
  | .receipt i _ | .latestNonce i _ | .commit i | .estimated i _ | .entered i _
  | .reserved i .. | .answered i .. | .resynced i _ | .dropped i => some i
  | .request .. | .poll .. | .crash _ | .mine .. | .mineOther => none

/-- One step of the system, `none` when the event cannot happen. -/
def step (resubmitAfter : Nat) (s : State) (event : Event) : Option State :=
  match event with
  | .request process now =>
      some { s with tasks := s.tasks ++ [⟨process, now, false, selectLive s.rows .fast⟩] }
  | .poll process now id =>
      match s.rows.find? fun r => r.id = id with
      | some row =>
          some { s with tasks := s.tasks ++ [⟨process, now, false, .refresh .poll [row] [] []⟩] }
      | none => none
  | .crash process =>
      some { s.setManager process .fresh with
        tasks := s.tasks.map fun task =>
          if task.process = process then task.withPc .finished else task }
  | .mine tx success =>
      if s.chain.Minable Tx.nonce tx then some { s with chain := s.chain.mine tx success }
      else none
  | .mineOther => some { s with chain := s.chain.mineOther }
  | event =>
      match event.task with
      | some i =>
          match s.tasks[i]? with
          | some task => taskStep resubmitAfter s i task event
          | none => none
      | none => none

/-- Before the first request: no rows, no tasks, and nothing of these distributions at
any node. -/
structure Initial (s : State) : Prop where
  rows : s.rows = []
  tasks : s.tasks = []
  unmined : ∀ tx, s.chain.outcome tx = none
  unsent : ∀ tx, s.chain.accepted tx = false

end OverUnder.Backend.Emissions
