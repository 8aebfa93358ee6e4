/-
Module: OverUnder.Oracles.Candidates
Purpose: The market cards the resolvers read, and what each resolver does with them: the
  primaries of the dual gate, the candidates of the general resolver, what a market waits
  for and from when it is researched.
Trusted boundary: human-reviewed spec
Main exports: Market, Card, isSportsPrimary, isDualGatePrimary, dualGatePrimaries, Item,
  candidates, GateKind, gateSubject, resolveAt
-/
import Mathlib
import OverUnder.Library.Keyed
import OverUnder.Oracles.Winner

namespace OverUnder.Oracles.Candidates

open OverUnder.Library OverUnder.Oracles.Winner

/-- What is read of a market: no parent is `none` or the empty text, no time is `none` or 0. -/
structure Market where
  conditionId : String
  question : String
  marketType : Int
  parentConditionId : Option String
  closeTime : Int
  resolveAfter : Option Int
deriving DecidableEq

/-- An `EventCard`, or a bare `MarketPublic`. -/
inductive Card where
  | event (primary : Market) (children : List Market)
  | bare (market : Market)

/-- `card["primary"]`, or the card itself. -/
def Card.primary : Card → Market
  | .event primary _ => primary
  | .bare market => market

def Card.children : Card → List Market
  | .event _ children => children
  | .bare _ => []

/-- `market.get("parentConditionId") or ""`. -/
def Market.parent (market : Market) : String := market.parentConditionId.getD ""

/-- `is_sports_primary`; `lower` is `str.lower`. -/
def isSportsPrimary (lower : String → String) (market : Market) : Bool :=
  if market.marketType ≠ 0 then false
  else
    let question := (lower market.question).toList
    decide (" vs ".toList <:+: question) || decide (" vs. ".toList <:+: question)

/-- `is_dual_gate_primary` of a market. -/
def isDualGatePrimary (lower : String → String) (market : Market) : Bool :=
  isSportsPrimary lower market && (yesTeam market.question).isSome

/-- `close_order`, as a comparison. -/
def closeOrder (a b : Market) : Bool :=
  decide (a.closeTime < b.closeTime ∨ a.closeTime = b.closeTime ∧ a.conditionId ≤ b.conditionId)

/-- `dual_gate_primaries`. -/
def dualGatePrimaries (lower : String → String) (cards : List Card) : List Market :=
  ((cards.map Card.primary).filter (isDualGatePrimary lower)).mergeSort closeOrder

/-- One entry of `candidates`. -/
structure Item where
  market : Market
  parentQuestion : Option String
  parentConditionId : Option String

/-- `text or None`. -/
def orNone (text : String) : Option String := if text = "" then none else some text

/-- `add` in `candidates`: `seen` holds the ids of the items. -/
def Item.add (items : List Item) (item : Item) : List Item :=
  if item.market.conditionId = "" then items
  else Keyed.insertIgnore (fun item => item.market.conditionId) items item

def addCandidates (lower : String → String) (items : List Item) (card : Card) : List Item :=
  let primary := card.primary
  let items :=
    if isDualGatePrimary lower primary then items else Item.add items ⟨primary, none, none⟩
  card.children.foldl (fun items child =>
    Item.add items ⟨child, orNone primary.question, orNone primary.conditionId⟩) items

/-- `candidates`. -/
def candidates (lower : String → String) (cards : List Card) : List Item :=
  (cards.foldl (addCandidates lower) []).mergeSort fun a b => closeOrder a.market b.market

inductive GateKind where
  | parent
  | event
deriving DecidableEq

/-- `gate_subject`. -/
def gateSubject (lower : String → String) (market : Market) (parentCid : Option String) :
    Option (String × GateKind) :=
  let parent := if market.parent = "" then parentCid.getD "" else market.parent
  if market.marketType = 1 ∨ market.parent ≠ "" then some (parent, .parent)
  else if isSportsPrimary lower market && !isDualGatePrimary lower market then
    some (market.conditionId, .event)
  else none

/-- `resolve_at` in `run`, for a market whose `close_time` is known. -/
def resolveAt (lower : String → String) (delay gatedDelay closeTime : Int) (item : Item) : Int :=
  let gate := gateSubject lower item.market item.parentConditionId
  let explicit := item.market.resolveAfter.getD 0
  if explicit ≠ 0 then max closeTime explicit
  else closeTime + (if gate.isSome then gatedDelay else delay)

end OverUnder.Oracles.Candidates
