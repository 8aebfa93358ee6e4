/-
Module: OverUnder.Oracles.TickLease
Purpose: The single-flight guard of `oracles/tick_lease.py` and the executions of the job
  that ask it (`oracles/job.py`, `run_tick`). The Cloud Run API answers truthfully at the
  moment of each request. The metadata requests and the switch that turns the guard off
  are left out.
Trusted boundary: human-reviewed spec
Main exports: ts, Resource, olderRunning, Phase, Execution, Action, step
-/
import Mathlib

namespace OverUnder.Oracles.TickLease

def maxPages : Nat := 10

/-- `pageSize` of the listing. -/
def pageSize : Nat := 100

/-! ### Creation times -/

/-- The value of decimal digits. -/
def digitsValue (digits : List Char) : Nat :=
  digits.foldl (fun n ch => n * 10 + (ch.toNat - '0'.toNat)) 0

def number? (text : List Char) : Option Nat :=
  if text ≠ [] ∧ text.all Char.isDigit then some (digitsValue text) else none

def isLeap (year : Nat) : Bool :=
  year % 4 = 0 ∧ (year % 100 ≠ 0 ∨ year % 400 = 0)

def daysInMonth (year month : Nat) : Nat :=
  if month = 2 then (if isLeap year then 29 else 28)
  else if month = 4 ∨ month = 6 ∨ month = 9 ∨ month = 11 then 30
  else 31

/-- `date.toordinal()`. -/
def toOrdinal (year month day : Nat) : Nat :=
  let before := year - 1
  before * 365 + before / 4 - before / 100 + before / 400 +
    ((List.range (month - 1)).map fun m => daysInMonth year (m + 1)).sum + day

/-- The seconds of `YYYY-MM-DDTHH:MM:SS`. -/
def isoSeconds (head : List Char) : Option Nat := do
  guard (head.length = 19 ∧ head[4]? = some '-' ∧ head[7]? = some '-' ∧ head[10]? = some 'T' ∧
    head[13]? = some ':' ∧ head[16]? = some ':')
  let field (start length : Nat) := number? ((head.drop start).take length)
  let year ← field 0 4
  let month ← field 5 2
  let day ← field 8 2
  let hour ← field 11 2
  let minute ← field 14 2
  let second ← field 17 2
  guard (1 ≤ year ∧ 1 ≤ month ∧ month ≤ 12 ∧ 1 ≤ day ∧ day ≤ daysInMonth year month ∧
    hour < 24 ∧ minute < 60 ∧ second < 60)
  return ((toOrdinal year month day * 24 + hour) * 60 + minute) * 60 + second

/-- The offset from UTC in seconds, if the text names one. -/
def isoOffset (zone : List Char) : Option (Option Int) :=
  match zone with
  | [] => some none
  | sign :: rest => do
      guard (rest.length = 5 ∧ rest[2]? = some ':')
      let hours ← number? (rest.take 2)
      let minutes ← number? (rest.drop 3)
      guard (hours < 24 ∧ minutes < 60)
      let seconds : Int := (hours * 60 + minutes) * 60
      if sign = '+' then return some seconds
      else if sign = '-' then return some (-seconds)
      else none

structure IsoTime where
  seconds : Nat
  fraction : List Char
  offset : Option Int

/-- The date and time of a text in the extended format of ISO 8601, the fraction with any
number of digits. -/
def isoTime (text : List Char) : Option IsoTime := do
  let seconds ← isoSeconds (text.take 19)
  match text.drop 19 with
  | '.' :: rest => do
      let fraction := rest.takeWhile Char.isDigit
      guard (fraction ≠ [])
      let offset ← isoOffset (rest.dropWhile Char.isDigit)
      return { seconds, fraction, offset }
  | zone => do
      let offset ← isoOffset zone
      return { seconds, fraction := [], offset }

/-- The instant counted in units of that many decimal places of a second, the rest cut off. -/
def IsoTime.instant (time : IsoTime) (places : Nat) : Int :=
  (time.seconds - time.offset.getD 0) * 10 ^ places +
    digitsValue ((time.fraction ++ List.replicate places '0').take places)

/-- `value.replace("Z", "+00:00")`. -/
def replaceZ (value : List Char) : List Char :=
  value.flatMap fun ch => if ch = 'Z' then "+00:00".toList else [ch]

/-- `ValueError` of `datetime.fromisoformat`. -/
inductive Fault where
  | invalidIsoformat (text : List Char)

/-- `_ts`, in microseconds. A time without an offset is in UTC. -/
def ts (value : Option (List Char)) : Except Fault (Option Int) :=
  match value with
  | none => .ok none
  | some [] => .ok none
  | some value =>
      let text := replaceZ value
      let text :=
        if '.' ∈ text then
          let head := text.takeWhile (· ≠ '.')
          let tail := (text.dropWhile (· ≠ '.')).drop 1
          let digits := tail.filter Char.isDigit
          -- the digits of the offset count too, so the offset loses all but its end
          let zone := tail.drop digits.length
          head ++ '.' :: digits.take 6 ++ zone
        else text
      match isoTime text with
      | some time => .ok (some (time.instant 6))
      | none => .error (.invalidIsoformat text)

/-- The exact creation time, in nanoseconds. -/
def nanoseconds (value : List Char) : Option Int :=
  (isoTime (replaceZ value)).map fun time => time.instant 9

/-! ### The guard -/

/-- An execution as the API shows it. -/
structure Resource where
  name : Option String
  createTime : Option (List Char)
  completionTime : Option (List Char)
deriving DecidableEq

/-- A missing or an empty text is falsy. -/
def truthy : Option (List Char) → Bool
  | none => false
  | some [] => false
  | some (_ :: _) => true

/-- The loop of `older_running`. -/
def olderNames (mine : Resource) (myCreated : Option Int) :
    List Resource → Except Fault (List String)
  | [] => return []
  | execution :: rest =>
      if execution.name = mine.name ∨ truthy execution.completionTime = true then
        olderNames mine myCreated rest
      else do
        let created ← ts execution.createTime
        let out ← olderNames mine myCreated rest
        match created, myCreated with
        | some created, some myCreated =>
            if created < myCreated then return execution.name.getD "" :: out else return out
        | _, _ => return out

/-- `older_running`. -/
def olderRunning (executions : List Resource) (mine : Resource) : Except Fault (List String) := do
  let myCreated ← ts mine.createTime
  olderNames mine myCreated executions

/-! ### Executions of the job -/

/-- How far an execution is. -/
inductive Phase where
  | created
  /-- `cloud_run_lease` has read its own execution and some pages of the listing;
  `ended` once a page had no `nextPageToken`. -/
  | listing (mine : Resource) (executions : List Resource) (pages : Nat) (ended : Bool)
  /-- `run_tick` is past an acquired lease. -/
  | running
  /-- `run_tick` returned with `skipped`. -/
  | held
  | completed (completionTime : List Char)
deriving DecidableEq

structure Execution where
  name : String
  createTime : List Char
  phase : Phase

def Execution.completionTime (e : Execution) : Option (List Char) :=
  match e.phase with
  | .completed time => some time
  | _ => none

/-- The API shows an execution from its creation on, with `completionTime` once it has
completed. -/
def Execution.resource (e : Execution) : Resource where
  name := some e.name
  createTime := some e.createTime
  completionTime := e.completionTime

inductive Action where
  | create (name : String) (createTime : List Char)
  /-- The request for the own execution. -/
  | get (i : Nat)
  /-- The request for the next page of the listing, and its answer. -/
  | list (i : Nat) (entries : List Resource) (nextPage : Bool)
  /-- The end of the check. -/
  | decide (i : Nat)
  | complete (i : Nat) (completionTime : List Char)

/-- No earlier execution has a later creation time. -/
def notBefore (executions : List Execution) (createTime : List Char) : Bool :=
  match nanoseconds createTime with
  | none => false
  | some now => executions.all fun e =>
      match nanoseconds e.createTime with
      | none => false
      | some earlier => decide (earlier ≤ now)

/-- The executions, in the order of their creation, after one action. -/
def step (executions : List Execution) : Action → Option (List Execution)
  | .create name createTime => do
      guard (executions.all fun e => e.name ≠ name)
      guard (notBefore executions createTime)
      return executions ++ [⟨name, createTime, .created⟩]
  | .get i => do
      let e ← executions[i]?
      match e.phase with
      | .created => return executions.set i { e with phase := .listing e.resource [] 0 false }
      | _ => none
  | .list i entries nextPage => do
      let e ← executions[i]?
      match e.phase with
      | .listing mine listed pages false => do
          guard (pages < maxPages)
          guard (entries.length ≤ pageSize)
          guard (entries.all fun entry => executions.any fun x => x.resource = entry)
          -- the last page completes the listing of what existed before the check
          guard (nextPage || (executions.take i).all fun x =>
            (listed ++ entries).any fun entry => entry.name = some x.name)
          return executions.set i
            { e with phase := .listing mine (listed ++ entries) (pages + 1) (!nextPage) }
      | _ => none
  | .decide i => do
      let e ← executions[i]?
      match e.phase with
      | .listing mine listed pages ended => do
          guard (ended = true ∨ pages = maxPages)
          match olderRunning listed mine with
          | .ok [] => return executions.set i { e with phase := .running }
          | .ok (_ :: _) => return executions.set i { e with phase := .held }
          | .error _ => none
      | _ => none
  | .complete i completionTime => do
      let e ← executions[i]?
      guard (e.completionTime = none ∧ completionTime ≠ [])
      return executions.set i { e with phase := .completed completionTime }

end OverUnder.Oracles.TickLease
