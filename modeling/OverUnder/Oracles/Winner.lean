/-
Module: OverUnder.Oracles.Winner
Purpose: Reading the teams off a question and comparing their names:
  `oracles/resolve/winner.py` and `parse_teams` of `oracles/scores/scout.py`, whose result
  `canonicalize` takes as labels. The Unicode case folding is a parameter.
Trusted boundary: human-reviewed spec
Main exports: isSpace, strip, CaseFold, casefold, yesTeam, same, parseTeams
-/
import Mathlib
import OverUnder.Library.Backtrack
import OverUnder.Oracles.Resolve

namespace OverUnder.Oracles.Winner

open OverUnder.Library.Backtrack

/-- `str.isspace` of a character, and `\s`. -/
def isSpace (c : Char) : Bool :=
  let n := c.toNat
  decide (9 ≤ n ∧ n ≤ 13 ∨ 28 ≤ n ∧ n ≤ 32 ∨ n = 0x85 ∨ n = 0xA0 ∨ n = 0x1680 ∨
    0x2000 ≤ n ∧ n ≤ 0x200A ∨ n = 0x2028 ∨ n = 0x2029 ∨ n = 0x202F ∨ n = 0x205F ∨ n = 0x3000)

/-- `str.strip`. -/
def strip (s : List Char) : List Char := (s.dropWhile isSpace).rdropWhile isSpace

/-- The case folding of Unicode, character by character. -/
structure CaseFold where
  fold : Char → List Char
  space : ∀ c, isSpace c = true → fold c = [c]
  visible : ∀ c, isSpace c = false → fold c ≠ [] ∧ ∀ d ∈ fold c, isSpace d = false

/-- `str.casefold`. -/
def casefold (folding : CaseFold) (s : List Char) : List Char := s.flatMap folding.fold

/-- A letter under `re.IGNORECASE`. -/
def letter (forms : List Char) (c : Char) : Bool := decide (c ∈ forms)

/-- `$` -/
def atEnd (s : List Char) : List Unit := if s = [] ∨ s = ['\n'] then [()] else []

/-- `_YES` at one place of a text. -/
def yesAt (s : List Char) : List (List Char) := do
  let (_, s) ← one (fun c => decide (c = ':')) s
  let (_, s) ← many isSpace s
  let (name, s) ← lazy1 (fun c => decide (c ≠ '\n')) s
  let (_, s) ← many1 isSpace s
  let (_, s) ← one (letter ['w', 'W']) s
  let (_, s) ← one (letter ['i', 'I', 'İ', 'ı']) s
  let (_, s) ← one (letter ['n', 'N']) s
  let (_, s) ← opt (fun c => decide (c = '?')) s
  let (_, s) ← many isSpace s
  let _ ← atEnd s
  return name

def yesTeam (question : String) : Option String :=
  match search yesAt (strip question.toList) with
  | none => none
  | some name =>
      let name := strip name
      if name = [] then none else some (String.ofList name)

/-- `_same`. -/
def same (folding : CaseFold) (left right : String) : Bool :=
  let a := strip (casefold folding left.toList)
  let b := strip (casefold folding right.toList)
  if a = [] ∨ b = [] then false else decide (a = b ∨ a <:+: b ∨ b <:+: a)

/-- `[^:?]` -/
def inName (c : Char) : Bool := decide (c ≠ ':' ∧ c ≠ '?')

/-- `_VS`, which is anchored at the start of the text. -/
def vsAt (s : List Char) : List (List Char × List Char) := do
  let (home, s) ← lazy1 inName s
  let (_, s) ← many1 isSpace s
  let (_, s) ← one (letter ['v', 'V']) s
  let (_, s) ← one (letter ['s', 'S', 'ſ']) s
  let (_, s) ← opt (fun c => decide (c = '.')) s
  let (_, s) ← many1 isSpace s
  let (away, s) ← lazy1 inName s
  let _ ← (one (fun c => decide (c = ':')) s).map (fun _ => ()) ++ atEnd s
  return (home, away)

def parseTeams (question : String) : String × String :=
  match (vsAt (strip question.toList)).head? with
  | some (home, away) => (String.ofList (strip home), String.ofList (strip away))
  | none => ("Home", "Away")

end OverUnder.Oracles.Winner
