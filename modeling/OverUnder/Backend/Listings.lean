/-
Module: OverUnder.Backend.Listings
Purpose: The transactions that write user listings: `/markets/listing/prepare` and `/confirm`
  (`backend/app/markets/listing.py`), the indexer's `MarketCreated` (`indexer/listener.py`)
  and the mirror of `POST /markets` (`markets/router.py`), one step per database statement.
  A statement sees what is committed and what its own transaction wrote. An inserted key is
  locked until its transaction ends. At the commit the columns that were set to something
  else than what was loaded are updated. The checks of `prepare` that do not read the listing
  (lister, cooldown, pending count) are left out.
Trusted boundary: human-reviewed spec
Main exports: Site, ChainMarket, Status, MarketRow, ListingRow, Database, criteriaHash,
  isBackendPrepared, openQuestions, reviewUserListing, Task, Pc, Verdict, Session,
  Session.commit, State, Event, step, Initial
-/
import OverUnder.Backend.ListingGates
import OverUnder.Library.Keyed
import OverUnder.Vyper.Signatures

namespace OverUnder.Backend.Listings

open OverUnder.Vyper (Address Bytes32)
open OverUnder.Library ListingGates

/-- `MARKET_TYPE_USER`. -/
def marketTypeUser : Nat := 2

/-- Python's Unicode tables, keccak of a text's UTF-8, `user_question_id` and
`condition_id_for` the oracle. -/
structure Site where
  unicode : Unicode
  keccak : Text → Bytes32
  userQuestionId : Address → Bytes32 → Bytes32
  conditionIdFor : Bytes32 → Bytes32

/-- What the factory says of a market, for good. -/
structure ChainMarket where
  conditionId : Bytes32
  question : Text
  closeTime : Nat
  marketType : Nat
  creator : Address
  criteriaHash : Bytes32
  seedUsdc : Nat

inductive Status where
  | prepared
  | indexed
  | confirmed
  | rejected
deriving DecidableEq

/-- A row of `markets`. -/
structure MarketRow where
  conditionId : Bytes32
  question : Text
  resolutionCriteria : Text
  marketType : Nat
  closeTime : Nat
  paused : Bool
  resolved : Bool

/-- A row of `market_listings`; no salt is the empty text. -/
structure ListingRow where
  conditionId : Bytes32
  creator : Address
  salt : Option Bytes32
  question : Text
  resolutionCriteria : Text
  criteriaHash : Option Bytes32
  closeTime : Nat
  seedUsdc : Nat
  status : Status
  rejectReason : String

structure Database where
  markets : List MarketRow
  listings : List ListingRow

def Database.market (db : Database) (cid : Bytes32) : Option MarketRow :=
  Keyed.get MarketRow.conditionId db.markets cid

def Database.listing (db : Database) (cid : Bytes32) : Option ListingRow :=
  Keyed.get ListingRow.conditionId db.listings cid

variable (site : Site)

/-- `criteria_hash`. -/
def criteriaHash (criteria : Text) : Bytes32 := site.keccak (strip site.unicode criteria)

/-- `is_backend_prepared`. -/
def isBackendPrepared (listing : Option ListingRow) : Bool :=
  listing.any fun row => row.salt.isSome || decide (row.status = .prepared)

/-- `listed_clause`. -/
def Database.listed (db : Database) (market : MarketRow) : Bool :=
  decide (market.marketType ≠ marketTypeUser) ||
    (db.listing market.conditionId).any fun row => decide (row.status = .confirmed)

/-- `open_questions`. -/
def openQuestions (db : Database) (now : Nat) (excludeCid : Option Bytes32) : List Text :=
  (db.markets.filter fun market => !market.resolved && !market.paused && db.listed market &&
    decide (market.closeTime > now) && decide (some market.conditionId ≠ excludeCid)).map
      MarketRow.question

/-- `review_user_listing`: the reason to reject, if there is one. -/
def reviewUserListing (listing : Option ListingRow) (onchain : ChainMarket) (criteria : Text)
    (openQuestions : List Text) : Option String :=
  let mismatch := match listing with
    | some row =>
        if isBackendPrepared listing then
          preparedMismatch (row.question, row.closeTime, row.seedUsdc)
            (onchain.question, onchain.closeTime, onchain.seedUsdc)
        else none
    | none => none
  match mismatch with
  | some reason => some reason
  | none =>
      match checkCriteria criteria with
      | .error gate => some gate.detail
      | .ok () =>
          match checkListedQuestion site.unicode onchain.question openQuestions with
          | .error gate => some gate.detail
          | .ok () => none

/-! ### Transactions -/

/-- What a transaction is for. -/
inductive Task where
  /-- `listing_confirm`, with the listing as first read and the criteria text that matches. -/
  | confirm (onchain : ChainMarket) (seen : Option ListingRow) (criteria : Text)
  /-- `MarketCreated` in `index_range`. -/
  | index (onchain : ChainMarket)
  /-- `_upsert_market_row`, with the criteria text of the body. -/
  | mirror (onchain : ChainMarket) (criteria : Text)

def Task.onchain : Task → ChainMarket
  | .confirm onchain .. | .index onchain | .mirror onchain _ => onchain

/-- The statement a transaction comes to next. -/
inductive Pc where
  | insertMarket
  | insertListing
  | loadMarket
  | loadListing
  | review
  | commit
deriving DecidableEq

def Task.first : Task → Pc
  | .confirm .. => .review
  | _ => .insertMarket

def Task.after : Task → Pc → Pc
  | .confirm .., .review => .insertMarket
  | .confirm .., .insertMarket => .insertListing
  | .confirm .., .insertListing => .loadMarket
  | .confirm .., .loadMarket => .loadListing
  | .index _, .insertMarket => .loadMarket
  | .index onchain, .loadMarket =>
      if onchain.marketType = marketTypeUser then .insertListing else .commit
  | .index _, .insertListing => .loadListing
  | .index _, .loadListing => .review
  | .mirror .., .insertMarket => .loadMarket
  | _, _ => .commit

inductive Verdict where
  /-- Not looked at: the status is final, or the commitments could not be read. -/
  | unread
  /-- There is no criteria text that matches. -/
  | unverified
  | reviewed (reason : Option String)
deriving DecidableEq

/-- A transaction in flight: the rows it inserted, and the rows it loaded. -/
structure Session where
  task : Task
  pc : Pc
  newMarket : Option MarketRow
  newListing : Option ListingRow
  market : Option MarketRow
  listing : Option ListingRow
  verdict : Verdict

def Task.start (task : Task) : Session where
  task := task
  pc := task.first
  newMarket := none
  newListing := none
  market := none
  listing := none
  verdict := .unread

def Session.cid (t : Session) : Bytes32 := t.task.onchain.conditionId

/-- The row of `insert_ignore(Market)`. -/
def Task.marketRow (task : Task) : MarketRow where
  conditionId := task.onchain.conditionId
  question := task.onchain.question
  resolutionCriteria := match task with
    | .mirror _ criteria => criteria
    | _ => []
  marketType := task.onchain.marketType
  closeTime := task.onchain.closeTime
  paused := false
  resolved := false

/-- The row of `insert_ignore(MarketListing)`. -/
def Task.listingRow (task : Task) : ListingRow where
  conditionId := task.onchain.conditionId
  creator := task.onchain.creator
  salt := none
  question := task.onchain.question
  resolutionCriteria := []
  criteriaHash := none
  closeTime := task.onchain.closeTime
  seedUsdc := 0
  status := .indexed
  rejectReason := ""

/-- The review of a transaction. `read`: the indexer's read of the commitments succeeds;
`pending`: open questions that the indexer has written and not committed. -/
def Session.review (db : Database) (now : Nat) (read : Bool) (pending : List Text)
    (t : Session) : Verdict :=
  let asked := openQuestions db now (some t.cid)
  match t.task, t.listing with
  | .confirm onchain seen criteria, _ =>
      .reviewed (reviewUserListing site seen onchain criteria asked)
  | .index onchain, some listing =>
      if listing.status = .confirmed ∨ listing.status = .rejected ∨ read = false then .unread
      else
        let criteria := strip site.unicode listing.resolutionCriteria
        if criteria ≠ [] ∧ site.keccak criteria = onchain.criteriaHash then
          .reviewed (reviewUserListing site (some listing) onchain criteria (asked ++ pending))
        else .unverified
  | _, _ => .unread

/-- The text that a passed review makes public. -/
def Session.criteria (t : Session) : Text :=
  match t.task, t.listing with
  | .confirm _ _ criteria, _ => criteria
  | .index _, some listing => strip site.unicode listing.resolutionCriteria
  | _, _ => []

/-- The attributes a transaction sets on the market it loaded. -/
def Session.setMarket (t : Session) (loaded : MarketRow) : MarketRow :=
  match t.task with
  | .confirm onchain _ criteria => { loaded with
      question := onchain.question
      marketType := marketTypeUser
      closeTime := onchain.closeTime
      resolutionCriteria := if t.verdict = .reviewed none then criteria else [] }
  | .index _ =>
      if t.verdict = .reviewed none then { loaded with resolutionCriteria := t.criteria site }
      else loaded
  | .mirror onchain criteria =>
      if t.newMarket.isSome then loaded
      else { loaded with
        question := onchain.question
        marketType := onchain.marketType
        closeTime := onchain.closeTime
        resolutionCriteria := if criteria ≠ [] then criteria else loaded.resolutionCriteria }

/-- The attributes a transaction sets on the listing it loaded. -/
def Session.setListing (t : Session) (loaded : ListingRow) : ListingRow :=
  let onchain := t.task.onchain
  let passed := { loaded with
    criteriaHash := some onchain.criteriaHash
    question := onchain.question
    closeTime := onchain.closeTime
    seedUsdc := onchain.seedUsdc
    status := Status.confirmed
    rejectReason := "" }
  let failed (reason : String) := { loaded with
    criteriaHash := some onchain.criteriaHash
    status := Status.rejected
    rejectReason := String.ofList (reason.toList.take 256) }
  match t.task, t.verdict with
  | .confirm _ _ criteria, .reviewed none =>
      { passed with creator := onchain.creator, resolutionCriteria := criteria }
  | .confirm .., .reviewed (some reason) => { failed reason with creator := onchain.creator }
  | .index _, .reviewed none => passed
  | .index _, .reviewed (some reason) => failed reason
  | .index _, .unverified => { loaded with
      criteriaHash := some onchain.criteriaHash
      seedUsdc := if isBackendPrepared (some loaded) then loaded.seedUsdc else onchain.seedUsdc }
  | _, _ => loaded

/-- A column after the flush of an object. -/
def column {α : Type} [DecidableEq α] (loaded set current : α) : α :=
  if set = loaded then current else set

/-- The columns of `markets` that a transaction sets. -/
def MarketRow.flush (loaded set current : MarketRow) : MarketRow := { current with
  question := column loaded.question set.question current.question
  resolutionCriteria :=
    column loaded.resolutionCriteria set.resolutionCriteria current.resolutionCriteria
  marketType := column loaded.marketType set.marketType current.marketType
  closeTime := column loaded.closeTime set.closeTime current.closeTime }

def ListingRow.flush (loaded set current : ListingRow) : ListingRow := { current with
  creator := column loaded.creator set.creator current.creator
  question := column loaded.question set.question current.question
  resolutionCriteria :=
    column loaded.resolutionCriteria set.resolutionCriteria current.resolutionCriteria
  criteriaHash := column loaded.criteriaHash set.criteriaHash current.criteriaHash
  closeTime := column loaded.closeTime set.closeTime current.closeTime
  seedUsdc := column loaded.seedUsdc set.seedUsdc current.seedUsdc
  status := column loaded.status set.status current.status
  rejectReason := column loaded.rejectReason set.rejectReason current.rejectReason }

/-- `markets` after the commit of a transaction that loaded a row. -/
def Session.commitMarket (t : Session) (db : Database) (loaded : MarketRow) : List MarketRow :=
  let set := t.setMarket site loaded
  if t.newMarket.isSome then Keyed.insertIgnore MarketRow.conditionId db.markets set
  else Keyed.modify MarketRow.conditionId db.markets t.cid (loaded.flush set)

def Session.commitListing (t : Session) (db : Database) : List ListingRow :=
  match t.listing with
  | none => db.listings
  | some loaded =>
      let set := t.setListing loaded
      if t.newListing.isSome then Keyed.insertIgnore ListingRow.conditionId db.listings set
      else Keyed.modify ListingRow.conditionId db.listings t.cid (loaded.flush set)

def Session.commit (t : Session) (db : Database) (loaded : MarketRow) : Database where
  markets := t.commitMarket site db loaded
  listings := t.commitListing db

def MarketRow.flag (row : MarketRow) (paused resolved : Bool) : MarketRow :=
  { row with paused, resolved }

/-- `paused` and `resolved` of a market change. -/
def Database.flag (db : Database) (cid : Bytes32) (paused resolved : Bool) : Database :=
  { db with
    markets := Keyed.modify MarketRow.conditionId db.markets cid (·.flag paused resolved) }

/-! ### Steps -/

/-- `drafts` are listings past the gates of `prepare` and not yet committed, `prepared` those
it committed, as it committed them. -/
structure State where
  chain : List ChainMarket
  db : Database
  drafts : List ListingRow
  prepared : List ListingRow
  sessions : List Session

def State.onchain (s : State) (cid : Bytes32) : Option ChainMarket :=
  Keyed.get ChainMarket.conditionId s.chain cid

inductive Event where
  /-- A market is created, with any calldata. -/
  | listed (market : ChainMarket)
  /-- `listing_prepare` up to its insert. -/
  | drafted (account : Address) (salt : Bytes32) (question criteria : Text)
      (closeTime seedUsdc : Nat) (bounds : ListingBounds) (now : Nat)
  /-- `listing_prepare` commits and answers. -/
  | prepared (draft : Nat)
  /-- `listing_confirm` up to its review. -/
  | confirming (user : Address) (cid : Bytes32) (criteria : Text)
  | indexing (cid : Bytes32)
  /-- `POST /markets` for a market that is on the chain, or that it has just created. -/
  | mirroring (cid : Bytes32) (criteria : Text)
  /-- A transaction makes its next statement. -/
  | ran (session now : Nat) (read : Bool) (pending : List Text)
  | died (session : Nat)
  /-- `paused` and `resolved` change. -/
  | flagged (cid : Bytes32) (paused resolved : Bool)

/-- The row `listing_prepare` adds. -/
def draft (account : Address) (salt : Bytes32) (question criteria : Text)
    (closeTime seedUsdc : Nat) : ListingRow where
  conditionId := site.conditionIdFor (site.userQuestionId account salt)
  creator := account
  salt := some salt
  question := strip site.unicode question
  resolutionCriteria := strip site.unicode criteria
  criteriaHash := some (criteriaHash site (strip site.unicode criteria))
  closeTime := closeTime
  seedUsdc := seedUsdc
  status := .prepared
  rejectReason := ""

/-- The criteria text of `listing_confirm`: the first candidate whose hash is on the chain. -/
def chooseCriteria (seen : Option ListingRow) (body : Text) (hash : Bytes32) : Option Text :=
  let candidates := [(seen.map ListingRow.resolutionCriteria).getD [],
    strip site.unicode body].filter (· ≠ [])
  candidates.find? fun criteria => criteriaHash site criteria = hash

/-- The statement of a transaction before its commit. -/
def Session.advance (s : State) (now : Nat) (read : Bool) (pending : List Text)
    (t : Session) : Option Session :=
  let next := { t with pc := t.task.after t.pc }
  match t.pc with
  | .insertMarket =>
      if s.sessions.any fun other => decide (other.cid = t.cid) && other.newMarket.isSome then none
      else if (s.db.market t.cid).isSome then some next
      else some { next with newMarket := some t.task.marketRow }
  | .insertListing =>
      if s.sessions.any fun other => decide (other.cid = t.cid) && other.newListing.isSome then
        none
      else if (s.db.listing t.cid).isSome then some next
      else some { next with newListing := some t.task.listingRow }
  | .loadMarket => some { next with market := t.newMarket.or (s.db.market t.cid) }
  | .loadListing => some { next with listing := t.newListing.or (s.db.listing t.cid) }
  | .review => some { next with verdict := t.review site s.db now read pending }
  | .commit => none

def step (s : State) : Event → Option State
  | .listed market =>
      if (s.onchain market.conditionId).isSome then none
      else some { s with chain := s.chain ++ [market] }
  | .drafted account salt question criteria closeTime seedUsdc bounds now =>
      let row := draft site account salt question criteria closeTime seedUsdc
      match validateListing site.unicode row.question row.resolutionCriteria closeTime seedUsdc
          bounds now with
      | .error _ => none
      | .ok () =>
          if isDuplicate site.unicode row.question (openQuestions s.db now none) then none
          else some { s with drafts := s.drafts ++ [row] }
  | .prepared i =>
      match s.drafts[i]? with
      | some row =>
          -- The salt is drawn for this listing, so no market has been created with it.
          if (s.onchain row.conditionId).isSome ∨ (s.db.listing row.conditionId).isSome then none
          else some { s with
            db := { s.db with listings := s.db.listings ++ [row] }
            drafts := s.drafts.eraseIdx i
            prepared := s.prepared ++ [row] }
      | none => none
  | .confirming user cid criteria =>
      match s.onchain cid with
      | some onchain =>
          if onchain.marketType ≠ marketTypeUser ∨ onchain.creator ≠ user then none
          else
            let seen := s.db.listing cid
            match chooseCriteria site seen criteria onchain.criteriaHash with
            | some chosen => some { s with
                sessions := s.sessions ++ [(Task.confirm onchain seen chosen).start] }
            | none => none
      | none => none
  | .indexing cid =>
      match s.onchain cid with
      | some onchain => some { s with sessions := s.sessions ++ [(Task.index onchain).start] }
      | none => none
  | .mirroring cid criteria =>
      match s.onchain cid with
      | some onchain =>
          some { s with sessions := s.sessions ++ [(Task.mirror onchain criteria).start] }
      | none => none
  | .ran i now read pending =>
      match s.sessions[i]? with
      | some t =>
          match t.pc, t.market with
          | .commit, some loaded =>
              -- A key it inserted is locked, so no other row has taken it.
              if t.newMarket.isSome ∧ (s.db.market t.cid).isSome ∨
                  t.newListing.isSome ∧ (s.db.listing t.cid).isSome then none
              else some { s with
                db := t.commit site s.db loaded
                sessions := s.sessions.eraseIdx i }
          | _, _ => (t.advance site s now read pending).map fun t =>
              { s with sessions := s.sessions.set i t }
      | none => none
  | .died i => some { s with sessions := s.sessions.eraseIdx i }
  | .flagged cid paused resolved => some { s with db := s.db.flag cid paused resolved }

/-- An empty database, before any request. -/
structure Initial (s : State) : Prop where
  markets : s.db.markets = []
  listings : s.db.listings = []
  drafts : s.drafts = []
  prepared : s.prepared = []
  sessions : s.sessions = []

end OverUnder.Backend.Listings
