/-
Module: OverUnder.Oracles.Scores
Purpose: Which games the score scout of `oracles/scores/job.py` looks at in a tick. Times are in
  microseconds, as `datetime` counts them; a market is what is read of it, with `_close_time`
  and `parse_updated_at` applied. Prompts, publishing and the stage budget are left out.
Trusted boundary: human-reviewed spec
Main exports: Primary, Score, Detail, skipFresh, wanted, eligible, freshTier, backlog, rotated,
  scan, selectTargets, Tick
-/
import Mathlib

namespace OverUnder.Oracles.Scores

/-- What is read of a primary market. -/
structure Primary where
  conditionId : String
  resolved : Bool
  closeTime : Int
deriving DecidableEq

/-- What is read of a score: `updatedAt` as `parse_updated_at` returns it. -/
structure Score where
  status : String
  updatedAt : Option Int

/-- What is read of a market's detail. -/
structure Detail where
  resolved : Bool
  score : Option Score

def second : Int := 1000000

/-- `BACKLOG_ROTATE_SECONDS`. -/
def backlogRotateSeconds : Int := 900

/-- `DONE_SCORE_STATUSES`. -/
def doneScoreStatuses : List String := ["final", "cancelled"]

/-- `skip_fresh`. -/
def skipFresh (score : Option Score) (now window : Int) : Bool :=
  match score with
  | none => false
  | some score =>
      if score.status = "in_progress" then false
      else match score.updatedAt with
        | none => false
        | some ts => decide (now - ts < window * second)

/-- The checks on the detail of a market; no detail is a fetch that raised. -/
def wanted (fetchDetail : String → Option Detail) (now window : Int) (primary : Primary) : Bool :=
  match fetchDetail primary.conditionId with
  | none => false
  | some detail =>
      if detail.resolved then false
      else if (detail.score.map fun score => doneScoreStatuses.contains score.status) = some true then
        false
      else !skipFresh detail.score now window

/-- The key of the sort, as a comparison. -/
def closeOrder (a b : Primary) : Bool :=
  decide (a.closeTime < b.closeTime ∨ a.closeTime = b.closeTime ∧ a.conditionId ≤ b.conditionId)

/-- The filters on a card. -/
def eligible (now maxAge : Int) (primary : Primary) : Bool :=
  if primary.conditionId = "" ∨ primary.resolved = true then false
  else if primary.closeTime * second > now then false
  else if maxAge ≠ 0 ∧ primary.closeTime ≠ 0 ∧
      now - primary.closeTime * second > maxAge * second then false
  else true

/-- Games that kicked off lately, or at no known time. -/
def inFreshTier (now recent : Int) (primary : Primary) : Bool :=
  decide (primary.closeTime = 0 ∨ now - primary.closeTime * second ≤ recent * second)

def freshTier (primaries : List Primary) (now maxAge recent : Int) : List Primary :=
  ((primaries.mergeSort closeOrder).filter (eligible now maxAge)).filter (inFreshTier now recent)

def backlog (primaries : List Primary) (now maxAge recent : Int) : List Primary :=
  ((primaries.mergeSort closeOrder).filter (eligible now maxAge)).filter fun primary =>
    decide (primary.closeTime ≠ 0 ∧ now - primary.closeTime * second > recent * second)

/-- The number of the rotation period of a time. -/
def period (now : Int) : Int := now / (backlogRotateSeconds * second)

/-- The backlog from its shift on, then what stands before. -/
def rotated (now : Int) (backlog : List Primary) : List Primary :=
  let shift := (period now % backlog.length).toNat
  if backlog.isEmpty then backlog else backlog.drop shift ++ backlog.take shift

/-- The loop over the tiers. -/
def scan (fetchDetail : String → Option Detail) (now window : Int) (cap : Nat) :
    List Primary → List Primary → List Primary
  | selected, [] => selected
  | selected, primary :: rest =>
      if selected.length ≥ cap then selected
      else if wanted fetchDetail now window primary then
        scan fetchDetail now window cap (selected ++ [primary]) rest
      else scan fetchDetail now window cap selected rest

/-- `select_targets`. -/
def selectTargets (primaries : List Primary) (fetchDetail : String → Option Detail) (now : Int)
    (cap : Nat) (window maxAge recent : Int) : List Primary :=
  scan fetchDetail now window cap []
    (freshTier primaries now maxAge recent ++
      rotated now (backlog primaries now maxAge recent))

/-- What one tick of the job selects from. -/
structure Tick where
  primaries : List Primary
  fetchDetail : String → Option Detail
  now : Int
  cap : Nat
  window : Int
  maxAge : Int
  recent : Int

namespace Tick

variable (tick : Tick)

def freshTier : List Primary :=
  Scores.freshTier tick.primaries tick.now tick.maxAge tick.recent

def backlog : List Primary :=
  Scores.backlog tick.primaries tick.now tick.maxAge tick.recent

def wants (primary : Primary) : Bool := wanted tick.fetchDetail tick.now tick.window primary

def targets : List Primary :=
  selectTargets tick.primaries tick.fetchDetail tick.now tick.cap tick.window tick.maxAge
    tick.recent

end Tick

end OverUnder.Oracles.Scores
