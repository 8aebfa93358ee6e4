/-
Module: OverUnder.Scripts.AuditMarkets
Purpose: How the audit script reads the same market cards: the markets it lists, who is to
  resolve each of them, what it waits for and from when it is researched.
Trusted boundary: human-reviewed spec
Main exports: Role, Row, flattenCards, isAutomatable, Kind, marketKind, gateSubject,
  generalResolveAt
-/
import OverUnder.Oracles.Candidates

namespace OverUnder.Scripts.AuditMarkets

open OverUnder.Library OverUnder.Oracles.Winner
open OverUnder.Oracles.Candidates (Market Card GateKind)

inductive Role where
  | primary
  | child
  | orphanChild
deriving DecidableEq

/-- A market with its `role`. -/
structure Row where
  market : Market
  role : Role

/-- What the script takes a repeated market by. -/
def Row.key (lower : String → String) (row : Row) : String := lower row.market.conditionId

/-- `add` in `flatten_cards`: `seen` holds the keys of the rows. -/
def add (lower : String → String) (rows : List Row) (market : Market) (role : Role)
    (cardParent : String) : List Row :=
  if market.conditionId = "" then rows
  else
    let filled :=
      if cardParent ≠ "" ∧ market.parent = "" then
        { market with parentConditionId := some cardParent }
      else market
    Keyed.insertIgnore (Row.key lower) rows ⟨filled, role⟩

def addCard (lower : String → String) (rows : List Row) : Card → List Row
  | .event primary children =>
      let rows := add lower rows primary
        (if primary.marketType = 1 then .orphanChild else .primary) ""
      children.foldl (fun rows child => add lower rows child .child primary.conditionId) rows
  | .bare market =>
      if market.marketType = 1 then
        add lower rows market (if market.parent = "" then .orphanChild else .child) ""
      else add lower rows market .primary ""

/-- `flatten_cards`. -/
def flattenCards (lower : String → String) (cards : List Card) : List Row :=
  cards.foldl (addCard lower) []

/-- The script's own `is_sports_primary`. -/
def isSportsPrimary (lower : String → String) (market : Market) : Bool :=
  if market.marketType ≠ 0 then false
  else
    let question := (lower market.question).toList
    decide (" vs ".toList <:+: question) || decide (" vs. ".toList <:+: question)

/-- `is_automatable`. -/
def isAutomatable (lower : String → String) (market : Market) : Bool :=
  isSportsPrimary lower market && (yesTeam market.question).isSome

inductive Kind where
  | sports
  | general
  | manual
deriving DecidableEq

/-- `market_kind`. -/
def marketKind (lower : String → String) (market : Market) (generalEnabled : Bool) : Kind :=
  if isAutomatable lower market then .sports
  else if generalEnabled then .general
  else .manual

/-- `gate_subject`. -/
def gateSubject (lower : String → String) (market : Market) : Option (String × GateKind) :=
  if market.marketType = 1 ∨ market.parent ≠ "" then some (market.parent, .parent)
  else if isSportsPrimary lower market && !isAutomatable lower market then
    some (market.conditionId, .event)
  else none

/-- `general_resolve_at`. -/
def generalResolveAt (lower : String → String) (market : Market)
    (effectiveClose delay gatedDelay : Int) : Int :=
  let explicit := market.resolveAfter.getD 0
  if explicit ≠ 0 then max effectiveClose explicit
  else effectiveClose + (if (gateSubject lower market).isSome then gatedDelay else delay)

end OverUnder.Scripts.AuditMarkets
