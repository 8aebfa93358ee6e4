/-
Module: OverUnder.Oracles.Listing
Purpose: The listing stage of `oracles/listing/run.py` and `oracles/listing/questions.py`: one run
  as a program over the API, the chain, the tick budget and the signing of the operator token.
  Rows and answers are typed as the API types them, so the checks on their shape are left out;
  the clock is the exact value of the float; logging is left out.
Trusted boundary: human-reviewed spec
Main exports: Game, Failure, Op, Answer, Config, winnerQuestion, questionId, listedCid, gameStatus,
  stale, blockingGames, Tally, checkLink, clearLink, listGame, relist, weekTurn, Report, run
-/
import Mathlib
import OverUnder.Library.Interaction
import OverUnder.Oracles.Candidates

namespace OverUnder.Oracles.Listing

open OverUnder.Library OverUnder.Oracles.Candidates
open Program (attempt perform raise)

/-- A row of the schedule. -/
structure Game where
  id : String
  season : Int
  week : Int
  away : String
  home : String
  kickoff : Int
  status : Option String
  listedConditionId : Option String
deriving DecidableEq

/-- `game.get("status") or "scheduled"`. -/
def Game.statusOr (game : Game) : String :=
  match game.status with
  | none => "scheduled"
  | some status => if status = "" then "scheduled" else status

/-- The key a row is grouped by. -/
def Game.key (game : Game) : Int × Int := (game.season, game.week)

/-! ### `listing/questions.py` -/

def winnerQuestion (home away : String) : String := home ++ " vs " ++ away ++ ": " ++ home ++ " win?"

/-- The text `question_id` hashes. -/
def questionPayload (game : Game) : String :=
  "ou:nfl:" ++ toString game.season ++ ":" ++ toString game.week ++ ":" ++ game.away ++ "@" ++
    game.home ++ ":" ++ toString game.kickoff

/-- What the body of a create holds. -/
structure CreateBody where
  question : String
  resolutionCriteria : String
  closeTime : Int
  questionId : String
  seedUsdc : Int
  marketType : Nat
deriving DecidableEq

/-- `_schedule_body`, the one row of an upsert. -/
structure ScheduleBody where
  away : String
  home : String
  kickoff : Int
  week : Int
  season : Int
  status : String
  listedConditionId : String
deriving DecidableEq

def scheduleBody (game : Game) (listedCid : String) : ScheduleBody :=
  ⟨game.away, game.home, game.kickoff, game.week, game.season, game.statusOr, listedCid⟩

/-- What is read of an exception: its text, and of an HTTP error the status with the detail of its
JSON body, where that is a text. -/
structure Failure where
  text : String
  response : Option (Nat × Option String)
deriving DecidableEq

/-- `_conflict_detail`. -/
def Failure.conflictDetail (e : Failure) : Option String :=
  match e.response with
  | none => none
  | some (status, detail) => if status = 409 then some (detail.getD "conflict") else none

/-- What a run asks of the world. -/
inductive Op where
  | markets
  | schedule
  | detail (cid : String)
  | closeTime (cid : String)
  | exhausted
  | mintToken
  | create (body : CreateBody) (token : String)
  | upsert (body : ScheduleBody) (token : String)
deriving DecidableEq

/-- A detail is read down to the status of its score; a create to the id of its market. -/
def Answer : Op → Type
  | .markets => List Card
  | .schedule => List Game
  | .detail _ => Option String
  | .closeTime _ => Int
  | .exhausted => Bool
  | .mintToken => String
  | .create _ _ => Option String
  | .upsert _ _ => Unit

abbrev Job (α : Type) := Program Op Answer Failure α

def getMarkets : Job (List Card) := perform Op.markets

def getSchedule : Job (List Game) := perform Op.schedule

def getDetail (cid : String) : Job (Option String) := perform (Op.detail cid)

def onchainCloseTime (cid : String) : Job Int := perform (Op.closeTime cid)

def exhausted : Job Bool := perform Op.exhausted

def mintOperatorJwt : Job String := perform Op.mintToken

def postMarket (body : CreateBody) (token : String) : Job (Option String) :=
  perform (Op.create body token)

def postSchedule (body : ScheduleBody) (token : String) : Job Unit := perform (Op.upsert body token)

/-- The environment of a run: `seed` and `grace` are the integers in the variables, if they are
integers; `digest` is the hash of `question_id` under the key; `chainOn` is that a chain was given
or is configured. -/
structure Config where
  lower : String → String
  digest : String → String
  seed : Option Int
  grace : Option Int
  clock : ℚ
  chainOn : Bool

variable (cfg : Config)

/-- `question_id` of a row. -/
def questionId (game : Game) : String := cfg.digest (questionPayload game)

/-- `MIN_LEAD_SECONDS`. -/
def minLeadSeconds : Int := 600

/-- `seed_usdc`. -/
def seedUsdc : Job Int :=
  match cfg.seed with
  | none => raise ⟨"OU_SEED_USDC must be an integer", none⟩
  | some value => if value ≤ 0 then raise ⟨"OU_SEED_USDC must be > 0", none⟩ else pure value

/-- `stale_grace_seconds`. -/
def staleGraceSeconds : Job Int :=
  match cfg.grace with
  | none => raise ⟨"OU_LISTING_STALE_GRACE_SECONDS must be an integer", none⟩
  | some value =>
      if value < 0 then raise ⟨"OU_LISTING_STALE_GRACE_SECONDS must be >= 0", none⟩ else pure value

/-! ### What the answers are read for -/

/-- `sports_primaries`. -/
def sportsPrimaries (cards : List Card) : List Market :=
  (cards.map Card.primary).filter (isSportsPrimary cfg.lower)

/-- The primaries that count for the keys and the questions. -/
def keyedPrimaries (cards : List Card) : List Market :=
  (sportsPrimaries cfg cards).filter fun market => market.conditionId ≠ "" && market.question ≠ ""

/-- `cards_by_key`: `setdefault` keeps the first of a key, as `List.lookup` finds it. -/
def cardsByKey (cards : List Card) : List ((String × Int) × String) :=
  ((keyedPrimaries cfg cards).filter fun market => market.closeTime ≠ 0).map fun market =>
    ((market.question, market.closeTime), market.conditionId)

/-- `visible_cids`. -/
def visibleCids (cards : List Card) : List String :=
  ((sportsPrimaries cfg cards).filter fun market => market.conditionId ≠ "").map fun market =>
    cfg.lower market.conditionId

/-- `_listed_cid`. -/
def listedCid (cards : List Card) (game : Game) : Option String :=
  match game.listedConditionId with
  | none => (cardsByKey cfg cards).lookup (winnerQuestion game.home game.away, game.kickoff)
  | some cid =>
      if cid = "" then (cardsByKey cfg cards).lookup (winnerQuestion game.home game.away, game.kickoff)
      else some cid

/-- `_game_status`, given the live status of each market. -/
def gameStatus (cards : List Card) (statusByCid : List (String × Option String)) (game : Game) :
    Option String :=
  match listedCid cfg cards game with
  | none => game.status
  | some cid =>
      match (statusByCid.lookup cid).join with
      | some live => some live
      | none => game.status

/-- `DONE_STATUSES`. -/
def doneStatuses : List String := ["final", "postponed", "cancelled"]

/-- `status in DONE_STATUSES`. -/
def isDone : Option String → Bool
  | none => false
  | some status => doneStatuses.contains status

/-- `status in STALE_STATUSES`. -/
def isOpen : Option String → Bool
  | none => true
  | some status => ["scheduled", "in_progress"].contains status

/-- `_stale`. -/
def stale (grace : Int) (game : Game) (status : Option String) : Bool :=
  isOpen status && decide (((game.kickoff + grace : Int) : ℚ) < cfg.clock)

inductive LinkState where
  | ok
  | orphan
  | paused
  | unknown
deriving DecidableEq

/-- A row, with the status it was judged by. -/
structure Brief where
  game : Game
  status : Option String

/-- The lists a run reports, and its locals: the states of the links looked up, the ids no longer
to be created, and the token. -/
structure Tally where
  created : List (String × Option String × Int) := []
  skipped : List String := []
  tooLate : List String := []
  inactive : List String := []
  errors : List (String × String) := []
  squatted : List (String × String × String) := []
  blocked : List ((Int × Int) × List Brief) := []
  assumedDone : List ((Int × Int) × Brief) := []
  collisions : List (String × Int × Int) := []
  orphaned : List (String × String × Int × Int) := []
  pausedLinks : List (String × String) := []
  linkErrors : List (String × String) := []
  deferred : List String := []
  linkState : List (String × LinkState) := []
  seenIds : List String := []
  token : Option String := none

/-- What a run has fetched before it looks at the weeks. -/
structure Fetched where
  cards : List Card
  rows : List Game
  statusByCid : List (String × Option String)
  grace : Int

variable (f : Fetched)

/-- The rows of a season and week, `grouped[key]`. -/
def Fetched.group (key : Int × Int) : List Game := f.rows.filter fun game => game.key = key

def Fetched.status (game : Game) : Option String := gameStatus cfg f.cards f.statusByCid game

/-- `_blocking_games`. -/
def Fetched.blockingGames (games : List Game) : List Game :=
  games.filter fun game =>
    !(isDone (f.status cfg game) || stale cfg f.grace game (f.status cfg game))

/-- The rows of a week that count as done by their age alone. -/
def Fetched.agedGames (games : List Game) : List Game :=
  games.filter fun game =>
    !isDone (f.status cfg game) && stale cfg f.grace game (f.status cfg game)

def Fetched.brief (game : Game) : Brief := ⟨game, f.status cfg game⟩

/-! ### One game -/

/-- The chain's word on a market: its close time is not 0. -/
def readLink (cid : String) (st : Tally) : Job (LinkState × Tally) :=
  if cfg.chainOn then do
    match ← attempt (onchainCloseTime cid) with
    | .error e => return (.unknown, { st with linkErrors := st.linkErrors ++ [(cid, e.text)] })
    | .ok closeTime =>
        if closeTime = 0 then return (.orphan, st)
        else if (visibleCids cfg f.cards).contains (cfg.lower cid) then return (.ok, st)
        else return (.paused, st)
  else return (.unknown, st)

/-- `check_link`. -/
def checkLink (cid : String) (st : Tally) : Job (LinkState × Tally) :=
  match st.linkState.lookup cid with
  | some state => return (state, st)
  | none => do
      let (state, st) ← readLink cfg f cid st
      return (state, { st with linkState := (cid, state) :: st.linkState })

/-- `operator_token`. -/
def operatorToken (st : Tally) : Job (String × Tally) :=
  match st.token with
  | some token => return (token, st)
  | none => do
      let token ← mintOperatorJwt
      return (token, { st with token := some token })

/-- `clear_link`: the token is kept when the upsert fails after it was minted. -/
def clearLink (game : Game) (q : String) (st : Tally) : Job Tally := do
  match ← attempt (operatorToken st) with
  | .error e => return { st with errors := st.errors ++ [(q, "unlink orphan: " ++ e.text)] }
  | .ok (token, st) =>
      match ← attempt (postSchedule (scheduleBody game "") token) with
      | .error e => return { st with errors := st.errors ++ [(q, "unlink orphan: " ++ e.text)] }
      | .ok () => return st

/-- The body `list_game` posts. -/
def createBody (game : Game) (q : String) (seed : Int) : CreateBody :=
  { question := q
    resolutionCriteria := "NFL winner; YES if named team wins"
    closeTime := game.kickoff
    questionId := questionId cfg game
    seedUsdc := seed
    marketType := 0 }

/-- The link of a new market, `if cid:` in `list_game`; a failed upsert is logged only. -/
def linkCreated (game : Game) (token : String) (cid : Option String) : Job Unit :=
  match cid with
  | none => return ()
  | some cid =>
      if cid = "" then return ()
      else do
        let _ ← attempt (postSchedule (scheduleBody game cid) token)
        return ()

/-- `list_game` from the create on. -/
def postGame (game : Game) (q : String) (st : Tally) : Job (Bool × Tally) := do
  let (token, st) ← operatorToken st
  let seed ← seedUsdc cfg
  let body := createBody cfg game q seed
  match ← attempt (postMarket body token) with
  | .error e =>
      match e.conflictDetail with
      | some conflict =>
          return (false, { st with
            squatted := st.squatted ++ [(q, body.questionId, conflict)]
            seenIds := body.questionId :: st.seenIds })
      | none => return (false, { st with errors := st.errors ++ [(q, e.text)] })
  | .ok cid => do
      linkCreated game token cid
      return (true, { st with
        seenIds := body.questionId :: st.seenIds
        created := st.created ++ [(q, cid, body.closeTime)] })

/-- The note on a question that is listed for another game. -/
def noteCollision (game : Game) (q : String) (st : Tally) : Tally :=
  if ((keyedPrimaries cfg f.cards).map Market.question).contains q then
    { st with collisions := st.collisions ++ [(q, game.season, game.week)] }
  else st

/-- `list_game`: whether a market was created. -/
def listGame (game : Game) (q : String) (st : Tally) : Job (Bool × Tally) :=
  if st.seenIds.contains (questionId cfg game) then
    return (false, { st with skipped := st.skipped ++ [q] })
  else
    let st := noteCollision cfg f game q st
    if game.statusOr ≠ "scheduled" then
      return (false, { st with inactive := st.inactive ++ [q] })
    else if (game.kickoff : ℚ) ≤ cfg.clock + minLeadSeconds then
      return (false, { st with tooLate := st.tooLate ++ [q] })
    else do
      let spent ← exhausted
      if spent then return (false, { st with deferred := st.deferred ++ [q] })
      else postGame cfg game q st

/-- `list_game`, and the link of its row cleared when it came to nothing. -/
def relistOrphan (game : Game) (q : String) (st : Tally) : Job Tally := do
  let (created, st) ← listGame cfg f game q st
  if !created && game.listedConditionId.getD "" ≠ "" then clearLink game q st else return st

/-- A turn of the loop over the rows of the next week. -/
def relist (st : Tally) (game : Game) : Job Tally := do
  let q := winnerQuestion game.home game.away
  match listedCid cfg f.cards game with
  | none => do
      let (_, st) ← listGame cfg f game q st
      return st
  | some linked => do
      let (state, st) ← checkLink cfg f linked st
      let st := if state = .paused then { st with pausedLinks := st.pausedLinks ++ [(q, linked)] }
        else st
      if state ≠ .orphan then return { st with skipped := st.skipped ++ [q] }
      else
        relistOrphan cfg f game q
          { st with orphaned := st.orphaned ++ [(q, linked, game.season, game.week)] }

/-! ### The weeks -/

/-- A turn of the loop over the weeks. -/
def weekTurn (st : Tally) (key : Int × Int) : Job Tally :=
  let games := f.group key
  let next := f.group (key.1, key.2 + 1)
  if next = [] then return st
  else
    let st := { st with assumedDone :=
      st.assumedDone ++ (f.agedGames cfg games).map fun game => (key, f.brief cfg game) }
    let blocking := f.blockingGames cfg games
    if games = [] ∨ blocking ≠ [] then
      return { st with blocked := st.blocked ++ [(key, blocking.map (f.brief cfg))] }
    else next.foldlM (relist cfg f) st

/-- `sorted(grouped)`. -/
def Fetched.weeks : List (Int × Int) :=
  (f.rows.map Game.key).dedup.insertionSort fun a b => a.1 < b.1 ∨ a.1 = b.1 ∧ a.2 ≤ b.2

/-- The markets whose live status is fetched. -/
def linkedCids (cards : List Card) (rows : List Game) : List String :=
  (rows.filterMap (listedCid cfg cards)).dedup.insertionSort (· ≤ ·)

/-- A turn of the loop over the details; one that raised counts as no score. -/
def fetchStatus (statuses : List (String × Option String)) (cid : String) :
    Job (List (String × Option String)) := do
  match ← attempt (getDetail cid) with
  | .error _ => return (cid, none) :: statuses
  | .ok status => return (cid, status) :: statuses

structure Report where
  ok : Bool
  tally : Tally
  linkCheck : String

/-- What `run` returns at the end of its loops. -/
def report (st : Tally) : Report :=
  { ok := st.errors.isEmpty
    tally := st
    linkCheck := if cfg.chainOn then (if st.linkErrors.isEmpty then "on" else "errors") else "off" }

/-- `run`. -/
def run : Job Report := do
  let grace ← staleGraceSeconds cfg
  let cards ← getMarkets
  let rows ← getSchedule
  let statuses ← (linkedCids cfg cards rows).foldlM fetchStatus []
  let f : Fetched := ⟨cards, rows, statuses, grace⟩
  let st ← (f.weeks).foldlM (weekTurn cfg f) {}
  return report cfg st

end OverUnder.Oracles.Listing
