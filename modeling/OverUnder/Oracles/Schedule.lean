/-
Module: OverUnder.Oracles.Schedule
Purpose: How the reports of the schedule scouts are compared game by game, `agreed_games` of
  `oracles/schedule/scout.py`. A Python set is listed in any order. The scouts, the reading of
  their answers and the publishing are left out.
Trusted boundary: human-reviewed spec
Main exports: ScheduleGame, matchup, gameOrder, Iteration, byKey, common, agreedGames
-/
import Mathlib

namespace OverUnder.Oracles.Schedule

/-- `ScheduleGame`; its `key` is all of its fields. -/
structure ScheduleGame where
  away : String
  home : String
  kickoffUnix : Int
  week : Int
  season : Int
  status : String
deriving DecidableEq

/-- What the API upserts on. -/
def matchup (game : ScheduleGame) : Int × Int × String × String :=
  (game.season, game.week, game.away, game.home)

/-- `_game_order`. -/
def gameOrder (game : ScheduleGame) : Int ×ₗ Int ×ₗ Int ×ₗ String ×ₗ String :=
  toLex (game.season, toLex (game.week, toLex (game.kickoffUnix, toLex (game.away, game.home))))

/-- `sorted(games, key=_game_order)`. -/
def sortGames (games : List ScheduleGame) : List ScheduleGame :=
  games.insertionSort fun a b => gameOrder a ≤ gameOrder b

/-- The order in which a set is listed. -/
structure Iteration where
  list : Finset ScheduleGame → List ScheduleGame
  nodup : ∀ s, (list s).Nodup
  mem_list : ∀ s game, game ∈ list s ↔ game ∈ s

variable (iteration : Iteration)

/-- `by_key.values()`: the games reported, each where it was first. -/
def byKey (reports : List (List ScheduleGame)) : List ScheduleGame := reports.flatten.eraseDups

/-- `set.intersection` of the reports. -/
def common : List (List ScheduleGame) → Finset ScheduleGame
  | [] => ∅
  | first :: rest => rest.foldl (fun s games => s ∩ games.toFinset) first.toFinset

/-- `per_matchup` of the matchup of a game. -/
def perMatchup (reports : List (List ScheduleGame)) (game : ScheduleGame) : Nat :=
  ((common reports).filter fun other => matchup other = matchup game).card

/-- `agreed_games`: the agreed ones and the disputed ones. -/
def agreedGames (reports : List (List ScheduleGame)) : List ScheduleGame × List ScheduleGame :=
  if reports = [] then ([], [])
  else
    let agreed := (iteration.list (common reports)).filter fun game => perMatchup reports game = 1
    let disputed := (byKey reports).filter fun game => !agreed.contains game
    (sortGames agreed, sortGames disputed)

end OverUnder.Oracles.Schedule
