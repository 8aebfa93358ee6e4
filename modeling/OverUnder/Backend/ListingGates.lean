/-
Module: OverUnder.Backend.ListingGates
Purpose: `backend/app/markets/listing_gates.py`: what a user's question, criteria, close time
  and seed must be like. What Python takes from the Unicode database is a parameter.
Trusted boundary: human-reviewed spec
Main exports: Text, Unicode, strip, strip_strip, GateError, ListingBounds, checkQuestion,
  checkCriteria, isDuplicate, checkListedQuestion, preparedMismatch, validateListing
-/
import Mathlib

namespace OverUnder.Backend

/-- A `str`. -/
abbrev Text := List Char

/-- `str.isspace` and `\\w` of a character, and `str.lower`. -/
structure Unicode where
  isSpace : Char → Bool
  isWord : Char → Bool
  lower : Text → Text

/-- `str.strip`. -/
def strip (unicode : Unicode) (text : Text) : Text :=
  (text.dropWhile unicode.isSpace).rdropWhile unicode.isSpace

theorem strip_strip {unicode : Unicode} {text : Text} :
    strip unicode (strip unicode text) = strip unicode text := by
  have front : (strip unicode text).dropWhile unicode.isSpace = strip unicode text := by
    rw [List.dropWhile_eq_self_iff]
    intro nonempty
    have kept := List.rdropWhile_prefix unicode.isSpace (text.dropWhile unicode.isSpace)
    unfold strip at nonempty ⊢
    rw [kept.getElem nonempty]
    exact List.dropWhile_get_zero_not _ _ _
  rw [strip, front, strip, List.rdropWhile_idempotent]

namespace ListingGates

/-- `GateError`. -/
structure GateError where
  status : Nat
  detail : String
deriving DecidableEq

structure ListingBounds where
  minSeedUsdc : Nat
  minLeadSeconds : Nat
  maxHorizonSeconds : Nat

def bannedWords : List Text :=
  ["feel", "feels", "should", "best", "worst", "underrated", "overrated", "deserve",
    "deserves"].map String.toList

def duplicateStopwords : List Text :=
  ["will", "the", "a", "an", "it", "is", "be", "on", "in", "at", "of", "by", "to", "for",
    "before", "after", "than", "and", "or", "their", "his", "her", "this", "that",
    "game", "market", "question"].map String.toList

variable (unicode : Unicode)

/-- `\\b` between two characters, or a character and an end of the text. -/
def boundary (left right : Option Char) : Bool :=
  left.any unicode.isWord != right.any unicode.isWord

/-- A banned word stands at the front of the text that follows a character. -/
def bannedHere (before : Option Char) (text : Text) : Bool :=
  bannedWords.any fun word => word.isPrefixOf text && boundary unicode before text.head? &&
    boundary unicode word.getLast? (text.drop word.length).head?

/-- `_BANNED_RE.search`. -/
def searchBanned : Option Char → Text → Bool
  | before, [] => bannedHere unicode before []
  | before, c :: rest => bannedHere unicode before (c :: rest) || searchBanned (some c) rest

def questionBytes (question : Text) : Nat := (question.map Char.utf8Size).sum

def checkQuestion (question : Text) : Except GateError Unit :=
  let n := questionBytes question
  if n < 10 then .error ⟨400, "question must be at least 10 bytes"⟩
  else if n > 256 then .error ⟨400, "question must be at most 256 bytes"⟩
  else if question.getLast? ≠ some '?' then
    .error ⟨400, "question must be a yes/no question ending in '?'"⟩
  else if searchBanned unicode none (unicode.lower question) then
    .error ⟨400, "question uses subjective wording that cannot be resolved"⟩
  else .ok ()

def checkCriteria (criteria : Text) : Except GateError Unit :=
  if criteria.length < 20 then
    .error ⟨400, "resolution criteria must be at least 20 characters"⟩
  else if criteria.length > 2000 then
    .error ⟨400, "resolution criteria must be at most 2000 characters"⟩
  else .ok ()

def checkCloseTime (closeTime : Nat) (bounds : ListingBounds) (now : Nat) :
    Except GateError Unit :=
  if closeTime < now + bounds.minLeadSeconds then
    .error ⟨400, s!"closeTime must be at least {bounds.minLeadSeconds}s from now"⟩
  else if closeTime > now + bounds.maxHorizonSeconds then
    .error ⟨400, s!"closeTime must be within {bounds.maxHorizonSeconds}s from now"⟩
  else .ok ()

def checkSeed (seedUsdc : Nat) (bounds : ListingBounds) : Except GateError Unit :=
  if seedUsdc < bounds.minSeedUsdc then
    .error ⟨400, s!"seedUsdc must be at least {bounds.minSeedUsdc}"⟩
  else if seedUsdc > 2 ^ 63 - 1 then
    .error ⟨400, s!"seedUsdc must be at most {2 ^ 63 - 1}"⟩
  else .ok ()

/-- A character of `[a-z0-9]`. -/
def plain (c : Char) : Bool := ('a' ≤ c && c ≤ 'z') || c.isDigit

/-- `normalize(text).split()`. -/
def words (text : Text) : List Text :=
  ((unicode.lower text).splitOnP fun c => !plain c).filter (· ≠ [])

def normalize (text : Text) : Text := [' '].intercalate (words unicode text)

def meaningfulTokens (text : Text) : Finset Text :=
  ((words unicode text).filter (· ∉ duplicateStopwords)).toFinset

/-- `_numbers`. -/
def numbers (tokens : Finset Text) : Finset Text := tokens.filter (·.any Char.isDigit)

/-- The Jaccard index is compared as a fraction. -/
def isDuplicate (question : Text) (existingQuestions : List Text) : Bool :=
  let tokens := meaningfulTokens unicode question
  existingQuestions.any fun existing =>
    let other := meaningfulTokens unicode existing
    decide (normalize unicode question = normalize unicode existing) ||
      (decide (tokens ≠ ∅ ∧ other ≠ ∅) && (decide (tokens = other) ||
        decide (9 * (tokens ∪ other).card ≤ 10 * (tokens ∩ other).card ∧
          numbers tokens = numbers other)))

def checkListedQuestion (question : Text) (openQuestions : List Text) :
    Except GateError Unit :=
  if question ≠ strip unicode question then
    .error ⟨400, "question must not start or end with whitespace"⟩
  else do
    checkQuestion unicode question
    if isDuplicate unicode question openQuestions then
      .error ⟨409, "a similar market is already open"⟩
    else .ok ()

/-- `prepared_mismatch`, between a question, a close time and a seed each. -/
def preparedMismatch (prepared onchain : Text × Nat × Nat) : Option String :=
  if onchain.1 ≠ prepared.1 then some "on-chain question differs from the prepared question"
  else if onchain.2.1 ≠ prepared.2.1 then
    some "on-chain closeTime differs from the prepared closeTime"
  else if onchain.2.2 ≠ prepared.2.2 then some "on-chain seed differs from the prepared seed"
  else none

def validateListing (question criteria : Text) (closeTime seedUsdc : Nat)
    (bounds : ListingBounds) (now : Nat) : Except GateError Unit := do
  checkQuestion unicode question
  checkCriteria criteria
  checkCloseTime closeTime bounds now
  checkSeed seedUsdc bounds

end ListingGates

end OverUnder.Backend
