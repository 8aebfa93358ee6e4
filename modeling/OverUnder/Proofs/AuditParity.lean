/-
Module: OverUnder.Proofs.AuditParity
Purpose: What the audit script says of the market cards against what the resolvers do with
  them: for which cards the two agree on the markets, on who resolves each of them, on what
  it waits for and on when.
Trusted boundary: none
Main exports: Place, Listing, listings, mem_flattenCards, mem_candidates, Verdict, auditView,
  resolverView, Mirrors, Aligned, mirrors_iff_aligned
-/
import OverUnder.Scripts.AuditMarkets

namespace OverUnder.Scripts.AuditMarkets

open OverUnder.Library OverUnder.Library.Keyed
open OverUnder.Oracles.Candidates (Market Card Item GateKind isDualGatePrimary dualGatePrimaries
  candidates addCandidates orNone closeOrder)

variable {lower : String → String} {cards : List Card}

/-! ### The places of the markets in the cards -/

/-- Where a market stands in the cards. -/
inductive Place where
  | primary
  | bare
  | child (parent : Market)
deriving DecidableEq

structure Listing where
  market : Market
  place : Place
deriving DecidableEq

def listed : Card → List Listing
  | .event primary children =>
      ⟨primary, .primary⟩ :: children.map fun child => ⟨child, .child primary⟩
  | .bare market => [⟨market, .bare⟩]

def listings (cards : List Card) : List Listing := cards.flatMap listed

namespace Listing

def id (a : Listing) : String := a.market.conditionId

def named (a : Listing) : Bool := decide (a.id ≠ "")

/-- The dual gate owns the market. -/
def dual (lower : String → String) (a : Listing) : Bool :=
  match a.place with
  | .child _ => false
  | _ => isDualGatePrimary lower a.market

/-- The row of the audit. -/
def row (a : Listing) : Row :=
  match a.place with
  | .primary => ⟨a.market, if a.market.marketType = 1 then .orphanChild else .primary⟩
  | .bare =>
      ⟨a.market, if a.market.marketType = 1 then
        (if a.market.parent = "" then .orphanChild else .child) else .primary⟩
  | .child parent =>
      ⟨if parent.conditionId ≠ "" ∧ a.market.parent = "" then
        { a.market with parentConditionId := some parent.conditionId } else a.market, .child⟩

/-- The entry of the general resolver. -/
def item (a : Listing) : Item :=
  match a.place with
  | .child parent => ⟨a.market, orNone parent.question, orNone parent.conditionId⟩
  | _ => ⟨a.market, none, none⟩

end Listing

theorem conditionId_row (a : Listing) : a.row.market.conditionId = a.id := by
  obtain ⟨market, place⟩ := a
  cases place with
  | primary => rfl
  | bare => rfl
  | child parent =>
      simp only [Listing.row, Listing.id]
      split <;> rfl

theorem market_item (a : Listing) : a.item.market = a.market := by
  obtain ⟨market, place⟩ := a
  cases place <;> rfl

theorem dual_of_top {a : Listing} (top : ∀ parent, a.place ≠ .child parent) :
    a.dual lower = isDualGatePrimary lower a.market := by
  obtain ⟨market, place⟩ := a
  cases place with
  | child parent => exact absurd rfl (top parent)
  | primary => rfl
  | bare => rfl

theorem item_of_top {a : Listing} (top : ∀ parent, a.place ≠ .child parent) :
    a.item = ⟨a.market, none, none⟩ := by
  obtain ⟨market, place⟩ := a
  cases place with
  | child parent => exact absurd rfl (top parent)
  | primary => rfl
  | bare => rfl

/-! ### The rows and the candidates are the first of their id -/

/-- One turn of a loop that passes over some entries. -/
def insertSome {κ ρ σ : Type} [DecidableEq κ] (key : ρ → κ) (keep : σ → Bool) (f : σ → ρ)
    (rows : List ρ) (a : σ) : List ρ :=
  if keep a = true then insertIgnore key rows (f a) else rows

theorem foldl_insertSome {κ ρ σ : Type} [DecidableEq κ] {key : ρ → κ} {keep : σ → Bool}
    {f : σ → ρ} (list : List σ) (rows : List ρ) :
    list.foldl (insertSome key keep f) rows = insertAll key rows ((list.filter keep).map f) := by
  induction list generalizing rows with
  | nil => rfl
  | cons a rest ih =>
      rw [List.foldl_cons, ih, insertSome, List.filter_cons]
      split
      · rfl
      · rfl

theorem add_eq {rows : List Row} {market : Market} {role : Role} {cardParent : String}
    (place : Place)
    (filled : (⟨market, place⟩ : Listing).row =
      ⟨if cardParent ≠ "" ∧ market.parent = "" then
        { market with parentConditionId := some cardParent } else market, role⟩) :
    add lower rows market role cardParent =
      insertSome (Row.key lower) Listing.named Listing.row rows ⟨market, place⟩ := by
  unfold add insertSome
  rw [filled]
  by_cases empty : market.conditionId = ""
  · rw [if_pos empty, if_neg]
    simp only [Listing.named, Listing.id, empty, ne_eq, not_true_eq_false, decide_false,
      Bool.false_eq_true, not_false_eq_true]
  · have here : Listing.named ⟨market, place⟩ = true := decide_eq_true empty
    rw [if_neg empty, here]
    rfl

theorem addCard_eq (rows : List Row) (card : Card) : addCard lower rows card =
    (listed card).foldl (insertSome (Row.key lower) Listing.named Listing.row) rows := by
  cases card with
  | event primary children =>
      have child : ∀ rows market, add lower rows market .child primary.conditionId =
          insertSome (Row.key lower) Listing.named Listing.row rows ⟨market, .child primary⟩ :=
        fun rows market => add_eq _ rfl
      simp only [addCard, listed, List.foldl_cons, List.foldl_map, child]
      rw [add_eq .primary rfl]
  | bare market =>
      simp only [addCard, listed, List.foldl_cons, List.foldl_nil]
      split
      · next wild =>
          refine add_eq _ ?_
          simp only [Listing.row, wild, if_true]
          rfl
      · next other =>
          refine add_eq _ ?_
          simp only [Listing.row, other, if_false]
          rfl

theorem mem_flattenCards {row : Row} : row ∈ flattenCards lower cards ↔
    ∃ a, First (fun a => lower a.id) ((listings cards).filter Listing.named) a ∧ a.row = row := by
  have whole : flattenCards lower cards =
      insertAll (Row.key lower) [] (((listings cards).filter Listing.named).map Listing.row) := by
    rw [flattenCards, funext₂ addCard_eq, ← foldl_insertSome, listings, List.foldl_flatMap]
  have keys : (fun a : Listing => Row.key lower a.row) = fun a => lower a.id :=
    funext fun a => congrArg lower (conditionId_row a)
  rw [whole, mem_insertAll_nil, first_map, keys]

/-- The general resolver takes the market. -/
def Listing.general (lower : String → String) (a : Listing) : Bool := a.named && !a.dual lower

theorem itemAdd_eq {items : List Item} {a : Listing} (general : a.dual lower = false) :
    Item.add items a.item =
      insertSome (fun item => item.market.conditionId) (Listing.general lower) Listing.item
        items a := by
  unfold Item.add insertSome
  rw [market_item]
  by_cases empty : a.market.conditionId = ""
  · rw [if_pos empty, if_neg]
    simp only [Listing.general, Listing.named, Listing.id, empty, ne_eq, not_true_eq_false,
      decide_false, Bool.false_and, Bool.false_eq_true, not_false_eq_true]
  · rw [if_neg empty, if_pos]
    simp only [Listing.general, Listing.named, Listing.id, ne_eq, empty, not_false_eq_true,
      decide_true, general, Bool.not_false, Bool.and_self]

theorem addCandidates_eq (items : List Item) (card : Card) : addCandidates lower items card =
    (listed card).foldl
      (insertSome (fun item => item.market.conditionId) (Listing.general lower) Listing.item)
      items := by
  have primary : ∀ a : Listing, (∀ parent, a.place ≠ .child parent) → ∀ items : List Item,
      (if isDualGatePrimary lower a.market then items else Item.add items ⟨a.market, none, none⟩) =
        insertSome (fun item => item.market.conditionId) (Listing.general lower) Listing.item
          items a := by
    intro a top items
    have owner : isDualGatePrimary lower a.market = a.dual lower := (dual_of_top top).symm
    rw [owner, ← item_of_top top]
    cases owned : a.dual lower with
    | false => exact itemAdd_eq owned
    | true =>
        rw [if_pos rfl, insertSome, if_neg]
        simp only [Listing.general, owned, Bool.not_true, Bool.and_false, Bool.false_eq_true,
          not_false_eq_true]
  cases card with
  | event top children =>
      have child : ∀ items market,
          Item.add items ⟨market, orNone top.question, orNone top.conditionId⟩ =
            insertSome (fun item => item.market.conditionId) (Listing.general lower)
              Listing.item items ⟨market, .child top⟩ := fun items market =>
        itemAdd_eq (a := ⟨market, .child top⟩) rfl
      simp only [addCandidates, listed, Card.primary, Card.children, List.foldl_cons,
        List.foldl_map, child]
      exact congrArg (fun start => List.foldl _ start children)
        (primary ⟨top, .primary⟩ (by rintro _ ⟨⟩) items)
  | bare market => exact primary ⟨market, .bare⟩ (by rintro _ ⟨⟩) items

theorem mem_candidates {item : Item} : item ∈ candidates lower cards ↔
    ∃ a, First Listing.id ((listings cards).filter (Listing.general lower)) a ∧
      a.item = item := by
  have keys : (fun a : Listing => a.item.market.conditionId) = Listing.id :=
    funext fun a => congrArg Market.conditionId (market_item a)
  rw [candidates, List.mem_mergeSort, funext₂ addCandidates_eq, ← List.foldl_flatMap,
    ← listings, foldl_insertSome, mem_insertAll_nil, first_map, keys]

theorem mem_dualGatePrimaries {market : Market} : market ∈ dualGatePrimaries lower cards ↔
    ∃ a ∈ listings cards, a.dual lower = true ∧ a.market = market := by
  rw [dualGatePrimaries, List.mem_mergeSort, List.mem_filter, List.mem_map]
  constructor
  · rintro ⟨⟨card, here, rfl⟩, owned⟩
    cases card with
    | event primary children =>
        exact ⟨⟨primary, .primary⟩, List.mem_flatMap.2 ⟨_, here, List.mem_cons_self⟩, owned, rfl⟩
    | bare market =>
        exact ⟨⟨market, .bare⟩, List.mem_flatMap.2 ⟨_, here, List.mem_cons_self⟩, owned, rfl⟩
  · rintro ⟨a, here, owned, rfl⟩
    obtain ⟨card, among, here⟩ := List.mem_flatMap.1 here
    cases card with
    | event primary children =>
        rcases List.mem_cons.1 here with rfl | here
        · exact ⟨⟨_, among, rfl⟩, owned⟩
        · obtain ⟨child, -, rfl⟩ := List.mem_map.1 here
          cases owned
    | bare market =>
        rw [List.mem_singleton.1 here] at owned ⊢
        exact ⟨⟨_, among, rfl⟩, owned⟩

/-! ### What each side says of a market -/

/-- The market, who resolves it, what it waits for and from when it is researched, where the
chain knows it. -/
structure Verdict where
  conditionId : String
  kind : Kind
  gate : Option (String × GateKind)
  resolveAt : Option Int
deriving DecidableEq

section Views

variable (lower : String → String) (chainClose : String → Int) (delay gatedDelay : Int)

/-- The audit's verdict on one of its rows; `chainClose` is 0 where the market is not
registered. -/
def auditVerdict (row : Row) : Verdict :=
  let market := row.market
  let close := chainClose market.conditionId
  match marketKind lower market true with
  | .general =>
      ⟨market.conditionId, .general, gateSubject lower market,
        if close = 0 then none
        else some (generalResolveAt lower market (max market.closeTime close) delay gatedDelay)⟩
  | kind => ⟨market.conditionId, kind, none, none⟩

def auditView (cards : List Card) : List Verdict :=
  (flattenCards lower cards).map (auditVerdict lower chainClose delay gatedDelay)

/-- What the general resolver does with one of its candidates. -/
def generalVerdict (item : Item) : Verdict :=
  let market := item.market
  let close := chainClose market.conditionId
  ⟨market.conditionId, .general,
    Oracles.Candidates.gateSubject lower market item.parentConditionId,
    if close = 0 then none
    else some (Oracles.Candidates.resolveAt lower delay gatedDelay (max market.closeTime close)
      item)⟩

def resolverView (cards : List Card) : List Verdict :=
  (dualGatePrimaries lower cards).map (fun market => ⟨market.conditionId, .sports, none, none⟩) ++
    (candidates lower cards).map (generalVerdict lower chainClose delay gatedDelay)

/-- The audit mirrors the resolvers on the cards. -/
def Mirrors (cards : List Card) : Prop :=
  ∀ verdict, verdict ∈ auditView lower chainClose delay gatedDelay cards ↔
    verdict ∈ resolverView lower chainClose delay gatedDelay cards

end Views

/-- A child that the general resolver waits for as the audit says: no game of its own, and a
wildcard, or one that names its parent, or one whose primary has no id. -/
def Plain (lower : String → String) (a : Listing) : Prop :=
  ∀ parent, a.place = .child parent → isDualGatePrimary lower a.market = false ∧
    (a.market.marketType = 1 ∨ a.market.parent ≠ "" ∨ parent.conditionId = "")

/-- The cards on which the two agree: ids that differ in case only belong to one market with one
resolver, every game has an id, and the children that are not repetitions are plain. -/
structure Aligned (lower : String → String) (cards : List Card) : Prop where
  ids : ∀ a ∈ listings cards, ∀ b ∈ listings cards, a.named = true → b.named = true →
    lower a.id = lower b.id → a.id = b.id ∧ a.dual lower = b.dual lower
  games : ∀ a ∈ listings cards, a.dual lower = true → a.named = true
  children : ∀ a, First Listing.id ((listings cards).filter Listing.named) a → Plain lower a

section Verdicts

variable {chainClose : String → Int} {delay gatedDelay : Int} {a : Listing}

theorem orNone_getD (text : String) : (orNone text).getD "" = text := by
  unfold orNone
  split
  · next empty => exact empty.symm
  · rfl

theorem conditionId_auditVerdict (row : Row) :
    (auditVerdict lower chainClose delay gatedDelay row).conditionId = row.market.conditionId := by
  simp only [auditVerdict]
  split <;> rfl

theorem market_row_of_top (top : ∀ parent, a.place ≠ .child parent) :
    a.row.market = a.market := by
  obtain ⟨market, place⟩ := a
  cases place with
  | child parent => exact absurd rfl (top parent)
  | primary => rfl
  | bare => rfl

theorem top_of_dual (owned : a.dual lower = true) : ∀ parent, a.place ≠ .child parent := by
  intro parent child
  simp only [Listing.dual, child, Bool.false_eq_true] at owned

/-- The audit's verdict on a game of the dual gate. -/
theorem auditVerdict_dual (owned : a.dual lower = true) :
    auditVerdict lower chainClose delay gatedDelay a.row = ⟨a.id, .sports, none, none⟩ := by
  have top := top_of_dual owned
  rw [dual_of_top top] at owned
  have automatable : isAutomatable lower a.market = true := owned
  simp only [auditVerdict, market_row_of_top top, marketKind, automatable, if_true, Listing.id]

/-- Two verdicts of the general resolver on a market differ in what it waits for, if at all. -/
theorem verdict_iff_gate {market : Market} {role : Role} {item : Item}
    (manual : isAutomatable lower market = false)
    (conditionId : market.conditionId = item.market.conditionId)
    (closeTime : market.closeTime = item.market.closeTime)
    (resolveAfter : market.resolveAfter = item.market.resolveAfter) :
    auditVerdict lower chainClose delay gatedDelay ⟨market, role⟩ =
        generalVerdict lower chainClose delay gatedDelay item ↔
      gateSubject lower market =
        Oracles.Candidates.gateSubject lower item.market item.parentConditionId := by
  simp only [auditVerdict, generalVerdict, marketKind, manual, Bool.false_eq_true, if_false,
    if_true, Verdict.mk.injEq, true_and, conditionId]
  constructor
  · exact fun both => both.1
  · intro same
    refine ⟨same, ?_⟩
    simp only [generalResolveAt, Oracles.Candidates.resolveAt, same, closeTime, resolveAfter]

theorem gate_top (market : Market) :
    gateSubject lower market = Oracles.Candidates.gateSubject lower market none := by
  unfold gateSubject Oracles.Candidates.gateSubject
  by_cases own : market.parent = ""
  · simp only [own, if_true, Option.getD_none]
    rfl
  · simp only [own, if_false]
    rfl

/-- The market of a child's row. -/
def fill (parent market : Market) : Market :=
  if parent.conditionId ≠ "" ∧ market.parent = "" then
    { market with parentConditionId := some parent.conditionId }
  else market

/-- The audit waits for the primary of any child, the resolver for that of a wildcard or of a
child that names its parent. -/
theorem gate_child {parent market : Market} : gateSubject lower (fill parent market) =
      Oracles.Candidates.gateSubject lower market (orNone parent.conditionId) ↔
    market.marketType = 1 ∨ market.parent ≠ "" ∨ parent.conditionId = "" := by
  unfold fill
  by_cases filled : parent.conditionId ≠ "" ∧ market.parent = ""
  · rw [if_pos filled]
    have named : parent.conditionId ≠ "" := filled.1
    have waits : gateSubject lower
        { market with parentConditionId := some parent.conditionId } =
          some (parent.conditionId, .parent) := if_pos (.inr named)
    rw [waits]
    simp only [Oracles.Candidates.gateSubject, filled.2, ne_eq, named, not_true_eq_false,
      or_false, if_true, orNone_getD]
    by_cases wild : market.marketType = 1
    · simp only [wild, if_true]
    · simp only [wild, if_false, iff_false]
      intro same
      split at same
      · simp only [Option.some.injEq, Prod.mk.injEq, reduceCtorEq, and_false] at same
      · cases same
  · rw [if_neg filled]
    rcases not_and_or.1 filled with unnamed | own
    · have empty : parent.conditionId = "" := not_not.1 unnamed
      rw [empty, gate_top]
      simp only [or_true, iff_true]
      rfl
    · simp only [gateSubject, Oracles.Candidates.gateSubject, own, if_false, ne_eq,
        not_false_eq_true, or_true, true_or, if_true]

/-- On a market of the general resolver the two agree exactly when it is plain. -/
theorem auditVerdict_general (general : a.dual lower = false) :
    auditVerdict lower chainClose delay gatedDelay a.row =
      generalVerdict lower chainClose delay gatedDelay a.item ↔ Plain lower a := by
  by_cases child : ∃ parent, a.place = .child parent
  · obtain ⟨parent, place⟩ := child
    obtain ⟨market, _⟩ := a
    cases place
    have plain_iff : Plain lower ⟨market, .child parent⟩ ↔
        isDualGatePrimary lower market = false ∧
          (market.marketType = 1 ∨ market.parent ≠ "" ∨ parent.conditionId = "") := by
      constructor
      · exact fun plain => plain parent rfl
      · rintro holds _ ⟨⟩
        exact holds
    have kind : isAutomatable lower (fill parent market) = isDualGatePrimary lower market := by
      unfold fill
      split <;> rfl
    rw [plain_iff]
    cases owned : isDualGatePrimary lower market with
    | true =>
        rw [owned] at kind
        constructor
        · intro same
          have kinds := congrArg Verdict.kind same
          have sports : (auditVerdict lower chainClose delay gatedDelay
              ⟨fill parent market, .child⟩).kind = .sports := by
            simp only [auditVerdict, marketKind, kind, if_true]
          exact absurd (sports.symm.trans kinds) nofun
        · rintro ⟨no, -⟩
          cases no
    | false =>
        rw [owned] at kind
        rw [← @gate_child lower]
        refine (verdict_iff_gate kind ?_ ?_ ?_).trans (and_iff_right rfl).symm
        · exact conditionId_row ⟨market, .child parent⟩
        · unfold fill
          split <;> rfl
        · unfold fill
          split <;> rfl
  · have top : ∀ parent, a.place ≠ .child parent := fun parent place => child ⟨parent, place⟩
    have plain : Plain lower a := fun parent place => absurd place (top parent)
    have manual : isAutomatable lower a.market = false := (dual_of_top top).symm.trans general
    have row : a.row = ⟨a.market, a.row.role⟩ := by rw [← market_row_of_top top]
    rw [iff_true_right plain, row, item_of_top top]
    exact (verdict_iff_gate manual rfl rfl rfl).2 (gate_top a.market)

end Verdicts

theorem mem_auditView {chainClose : String → Int} {delay gatedDelay : Int} {verdict : Verdict} :
    verdict ∈ auditView lower chainClose delay gatedDelay cards ↔
      ∃ a, First (fun a => lower a.id) ((listings cards).filter Listing.named) a ∧
        auditVerdict lower chainClose delay gatedDelay a.row = verdict := by
  simp only [auditView, List.mem_map, mem_flattenCards]
  constructor
  · rintro ⟨_, ⟨a, first, rfl⟩, rfl⟩
    exact ⟨a, first, rfl⟩
  · rintro ⟨a, first, rfl⟩
    exact ⟨a.row, ⟨a, first, rfl⟩, rfl⟩

theorem mem_resolverView {chainClose : String → Int} {delay gatedDelay : Int}
    {verdict : Verdict} : verdict ∈ resolverView lower chainClose delay gatedDelay cards ↔
      (∃ a ∈ listings cards, a.dual lower = true ∧ ⟨a.id, .sports, none, none⟩ = verdict) ∨
      ∃ a, First Listing.id ((listings cards).filter (Listing.general lower)) a ∧
        generalVerdict lower chainClose delay gatedDelay a.item = verdict := by
  simp only [resolverView, List.mem_append, List.mem_map, mem_dualGatePrimaries, mem_candidates]
  constructor
  · rintro (⟨_, ⟨a, here, owned, rfl⟩, rfl⟩ | ⟨_, ⟨a, first, rfl⟩, rfl⟩)
    · exact .inl ⟨a, here, owned, rfl⟩
    · exact .inr ⟨a, first, rfl⟩
  · rintro (⟨a, here, owned, rfl⟩ | ⟨a, first, rfl⟩)
    · exact .inl ⟨_, ⟨a, here, owned, rfl⟩, rfl⟩
    · exact .inr ⟨_, ⟨a, first, rfl⟩, rfl⟩

/-! ### Where the two agree -/

section Parity

variable {chainClose : String → Int} {delay gatedDelay : Int} {a : Listing}

theorem filter_general : (listings cards).filter (Listing.general lower) =
    ((listings cards).filter Listing.named).filter fun a => !a.dual lower := by
  rw [List.filter_filter]
  exact List.filter_congr fun a _ => Bool.and_comm ..

/-- The resolvers list every market that has an id. -/
theorem resolverView_lists (lower : String → String) (chainClose : String → Int)
    (delay gatedDelay : Int) (here : a ∈ listings cards) (named : a.named = true) :
    ∃ verdict ∈ resolverView lower chainClose delay gatedDelay cards,
      verdict.conditionId = a.id ∧ decide (verdict.kind = .sports) = a.dual lower := by
  cases owned : a.dual lower with
  | true => exact ⟨_, mem_resolverView.2 (.inl ⟨a, here, owned, rfl⟩), rfl, rfl⟩
  | false =>
      have general : a ∈ (listings cards).filter (Listing.general lower) := by
        rw [filter_general, List.mem_filter, List.mem_filter, owned]
        exact ⟨⟨here, named⟩, rfl⟩
      obtain ⟨b, first, same⟩ := exists_first Listing.id general
      refine ⟨_, mem_resolverView.2 (.inr ⟨b, first, rfl⟩), ?_, rfl⟩
      rw [← same, Listing.id, ← market_item b]
      rfl

/-- The audit lists no id twice, in whatever case. -/
theorem auditView_once {v w : Verdict}
    (first : v ∈ auditView lower chainClose delay gatedDelay cards)
    (second : w ∈ auditView lower chainClose delay gatedDelay cards)
    (same : lower v.conditionId = lower w.conditionId) : v = w := by
  obtain ⟨a, stands, rfl⟩ := mem_auditView.1 first
  obtain ⟨b, stands', rfl⟩ := mem_auditView.1 second
  simp only [conditionId_auditVerdict, conditionId_row] at same
  rw [stands.eq stands' same]

theorem aligned_of_mirrors (mirrors : Mirrors lower chainClose delay gatedDelay cards) :
    Aligned lower cards := by
  have ids : ∀ a ∈ listings cards, ∀ b ∈ listings cards, a.named = true → b.named = true →
      lower a.id = lower b.id → a.id = b.id ∧ a.dual lower = b.dual lower := by
    intro a here b here' named named' same
    obtain ⟨v, v_mem, v_id, v_dual⟩ := resolverView_lists lower chainClose delay
      gatedDelay here named
    obtain ⟨w, w_mem, w_id, w_dual⟩ := resolverView_lists lower chainClose delay
      gatedDelay here' named'
    have one : v = w := auditView_once ((mirrors v).2 v_mem) ((mirrors w).2 w_mem)
      (by rw [v_id, w_id, same])
    rw [← v_id, ← w_id, ← v_dual, ← w_dual, one]
    exact ⟨rfl, rfl⟩
  refine ⟨ids, ?_, ?_⟩
  · intro a here owned
    have listed := (mirrors _).2 (mem_resolverView.2 (.inl ⟨a, here, owned, rfl⟩))
    obtain ⟨b, first, same⟩ := mem_auditView.1 listed
    have named := (List.mem_filter.1 first.mem).2
    have id_eq := congrArg Verdict.conditionId same
    rw [conditionId_auditVerdict, conditionId_row] at id_eq
    rw [Listing.named, ← show b.id = a.id from id_eq]
    exact named
  · intro a first
    cases owned : a.dual lower with
    | true => exact fun parent place => absurd place (top_of_dual owned parent)
    | false =>
        obtain ⟨here, named⟩ := List.mem_filter.1 first.mem
        have general : First Listing.id ((listings cards).filter (Listing.general lower)) a := by
          rw [filter_general]
          exact first.filter (by rw [owned]; rfl)
        have lowered : First (fun a => lower a.id) ((listings cards).filter Listing.named) a := by
          refine first.finer fun b among same => ?_
          obtain ⟨here', named'⟩ := List.mem_filter.1 among
          exact (ids b here' a here named' named same).1
        have audited : auditVerdict lower chainClose delay gatedDelay a.row ∈
            auditView lower chainClose delay gatedDelay cards := mem_auditView.2 ⟨a, lowered, rfl⟩
        have resolved := (mirrors _).2 (mem_resolverView.2 (.inr ⟨a, general, rfl⟩))
        apply (auditVerdict_general owned).1
        refine auditView_once audited resolved ?_
        rw [conditionId_auditVerdict, conditionId_row]
        exact congrArg lower (congrArg Market.conditionId (market_item a)).symm

theorem mirrors_of_aligned (aligned : Aligned lower cards) :
    Mirrors lower chainClose delay gatedDelay cards := by
  intro verdict
  constructor
  · intro audited
    obtain ⟨a, first, rfl⟩ := mem_auditView.1 audited
    have here := (List.mem_filter.1 first.mem).1
    rw [mem_resolverView]
    cases owned : a.dual lower with
    | true => exact .inl ⟨a, here, owned, (auditVerdict_dual owned).symm⟩
    | false =>
        have by_id : First Listing.id ((listings cards).filter Listing.named) a :=
          first.finer fun b _ same => congrArg lower same
        refine .inr ⟨a, ?_, ((auditVerdict_general owned).2 (aligned.children a by_id)).symm⟩
        rw [filter_general]
        exact by_id.filter (by rw [owned]; rfl)
  · intro resolved
    rw [mem_auditView]
    rcases mem_resolverView.1 resolved with ⟨a, here, owned, rfl⟩ | ⟨a, first, rfl⟩
    · have named := aligned.games a here owned
      obtain ⟨b, first, same⟩ := exists_first (fun a : Listing => lower a.id)
        (List.mem_filter.2 ⟨here, named⟩)
      obtain ⟨here', named'⟩ := List.mem_filter.1 first.mem
      obtain ⟨id_eq, dual_eq⟩ := aligned.ids b here' a here named' named same
      exact ⟨b, first, by rw [auditVerdict_dual (dual_eq.trans owned), id_eq]⟩
    · rw [filter_general] at first
      obtain ⟨among, general⟩ := List.mem_filter.1 first.mem
      obtain ⟨here, named⟩ := List.mem_filter.1 among
      have owned : a.dual lower = false := by simpa only [Bool.not_eq_true'] using general
      have by_id : First Listing.id ((listings cards).filter Listing.named) a := by
        refine first.of_filter fun b among same => ?_
        obtain ⟨here', named'⟩ := List.mem_filter.1 among
        rw [(aligned.ids b here' a here named' named (congrArg lower same)).2, owned]
        rfl
      have lowered : First (fun a => lower a.id) ((listings cards).filter Listing.named) a := by
        refine by_id.finer fun b among same => ?_
        obtain ⟨here', named'⟩ := List.mem_filter.1 among
        exact (aligned.ids b here' a here named' named same).1
      exact ⟨a, lowered, (auditVerdict_general owned).2 (aligned.children a by_id)⟩

/-- Whatever the closing times on chain and the delays, the audit says of the cards what the
resolvers do with them exactly when the cards are aligned. -/
theorem mirrors_iff_aligned (lower : String → String) (cards : List Card)
    (chainClose : String → Int) (delay gatedDelay : Int) :
    Mirrors lower chainClose delay gatedDelay cards ↔ Aligned lower cards :=
  ⟨aligned_of_mirrors, mirrors_of_aligned⟩

end Parity

/-- A child that is no wildcard and does not name its parent: the audit has it wait an hour for
the parent's score, the resolver a day. -/
theorem audit_misses_a_child :
    let game : Market := ⟨"0xa", "Chiefs vs Broncos: Chiefs win?", 0, none, 1000, none⟩
    let child : Market := ⟨"0xc", "Will it snow in Denver?", 2, none, 1000, none⟩
    ¬Mirrors String.toLower (fun _ => 1000) 86400 3600 [.event game [child]] := by
  intro game child mirrors
  have first : First Listing.id ((listings [.event game [child]]).filter Listing.named)
      ⟨child, .child game⟩ := .inr ⟨by decide, .inl rfl⟩
  obtain ⟨-, plain⟩ := (aligned_of_mirrors mirrors).children _ first game rfl
  revert plain
  decide

end OverUnder.Scripts.AuditMarkets
