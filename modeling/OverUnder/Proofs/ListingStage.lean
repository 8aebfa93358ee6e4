/-
Module: OverUnder.Proofs.ListingStage
Purpose: What one run of the listing stage may write, whatever the API and the chain answer: a
  market is created only for a scheduled row of a week whose previous week is over, with time to
  spare, without a live market and once; a link is written only for a market just created, and
  cleared only from a market the chain does not know.
Trusted boundary: none
Main exports: Listable, Linkable, Known, run_guarded, creates_listable, links_linkable
-/
import Mathlib
import OverUnder.Library.Transcripts
import OverUnder.Oracles.Listing

namespace OverUnder.Oracles.Listing

open OverUnder.Library OverUnder.Oracles.Candidates
open Program (attempt perform raise)

abbrev Log := List (Exchange Op Answer Failure)

variable (cfg : Config)

/-! ### What a run was told -/

/-- The live status an answered detail stands for. -/
def liveStatus : Except Failure (Option String) → Option String
  | .ok status => status
  | .error _ => none

/-- The status of a row, as the answers so far have it. -/
def StatusTold (log : Log) (cards : List Card) (game : Game) (status : Option String) : Prop :=
  match listedCid cfg cards game with
  | none => status = game.status
  | some cid => ∃ r : Except Failure (Option String),
      ⟨.detail cid, r⟩ ∈ log ∧ status = (liveStatus r).or game.status

/-- A season's week has rows, and each is done, or stale past the grace period. -/
structure WeekOver (log : Log) (cards : List Card) (rows : List Game) (grace : Int)
    (key : Int × Int) : Prop where
  some_row : ∃ game ∈ rows, game.key = key
  over_rows : ∀ game ∈ rows, game.key = key → ∃ status, StatusTold cfg log cards game status ∧
    (isDone status = true ∨ stale cfg grace game status = true)

/-- The API took the create, or said that the condition was prepared by someone else. -/
def Settled : Except Failure (Option String) → Prop
  | .ok _ => True
  | .error e => e.conflictDetail.isSome = true

/-- After these exchanges, the create of `body` is one for this row. -/
structure Listable (log : Log) (cards : List Card) (rows : List Game) (game : Game)
    (body : CreateBody) (token : String) : Prop where
  cards_told : ⟨.markets, .ok cards⟩ ∈ log
  rows_told : ⟨.schedule, .ok rows⟩ ∈ log
  fetched : game ∈ rows
  scheduled : game.statusOr = "scheduled"
  ahead : cfg.clock + minLeadSeconds < game.kickoff
  body_eq : ∃ seed, cfg.seed = some seed ∧ 0 < seed ∧
    body = createBody cfg game (winnerQuestion game.home game.away) seed
  week_over : ∃ grace, cfg.grace = some grace ∧ 0 ≤ grace ∧
    WeekOver cfg log cards rows grace (game.season, game.week - 1)
  unlisted : ∀ cid, listedCid cfg cards game = some cid → ⟨.closeTime cid, .ok (0 : Int)⟩ ∈ log
  in_budget : ∃ earlier signing, log = earlier ++ ⟨.exhausted, .ok false⟩ :: signing ∧
    ∀ e ∈ signing, e.op = .mintToken
  signed : ⟨.mintToken, .ok token⟩ ∈ log
  once : ∀ body' token' (r : Except Failure (Option String)), ⟨.create body' token', r⟩ ∈ log →
    body'.questionId = body.questionId → ¬Settled r

/-- After these exchanges, the upsert of `body` links a market just created for a row, or clears
a row's own link to a market that the chain does not know. -/
def Linkable (log : Log) (body : ScheduleBody) (token : String) : Prop :=
  ∃ (rows : List Game) (game : Game), ⟨.schedule, .ok rows⟩ ∈ log ∧ game ∈ rows ∧ ⟨.mintToken, .ok token⟩ ∈ log ∧
    ((∃ cid earlier created, cid ≠ "" ∧ body = scheduleBody game cid ∧
        log = earlier ++ [⟨.create created token, .ok (some cid)⟩] ∧
        created.questionId = questionId cfg game ∧ created.closeTime = game.kickoff) ∨
      (∃ cid, cid ≠ "" ∧ game.listedConditionId = some cid ∧ body = scheduleBody game "" ∧
        ⟨.closeTime cid, .ok (0 : Int)⟩ ∈ log))

/-- Creates are listable and upserts linkable; the rest only reads or signs. -/
def Allowed (log : Log) : Op → Prop
  | .create body token => ∃ cards rows game, Listable cfg log cards rows game body token
  | .upsert body token => Linkable cfg log body token
  | _ => True

/-! ### What the locals of a run stand for -/

variable {cfg} {f : Fetched} {st : Tally} {log : Log}

/-- What was fetched is what was told. -/
structure Fetched.FromLog (cfg : Config) (f : Fetched) (log : Log) : Prop where
  cards_told : ⟨.markets, .ok f.cards⟩ ∈ log
  rows_told : ⟨.schedule, .ok f.rows⟩ ∈ log
  grace_read : cfg.grace = some f.grace ∧ 0 ≤ f.grace
  status_told : ∀ game ∈ f.rows, StatusTold cfg log f.cards game (f.status cfg game)

/-- The locals follow from the log: a link is an orphan for a reading of 0, an id is done with once
its create was settled, and a token was minted. -/
structure Known (cfg : Config) (f : Fetched) (st : Tally) (log : Log) : Prop where
  fetched : f.FromLog cfg log
  orphans : ∀ cid, st.linkState.lookup cid = some .orphan → ⟨.closeTime cid, .ok (0 : Int)⟩ ∈ log
  settled : ∀ body token (r : Except Failure (Option String)), ⟨.create body token, r⟩ ∈ log →
    Settled r → body.questionId ∈ st.seenIds
  minted : ∀ token, st.token = some token → ⟨.mintToken, .ok token⟩ ∈ log

theorem StatusTold.append {cards : List Card} {game : Game} {status : Option String} {more : Log}
    (told : StatusTold cfg log cards game status) :
    StatusTold cfg (log ++ more) cards game status := by
  unfold StatusTold at told ⊢
  cases linked : listedCid cfg cards game with
  | none =>
      rw [linked] at told
      exact told
  | some cid =>
      rw [linked] at told
      rcases told with ⟨r, answered, same⟩
      exact ⟨r, List.mem_append_left _ answered, same⟩

theorem Fetched.FromLog.append {more : Log} (fetched : f.FromLog cfg log) :
    f.FromLog cfg (log ++ more) where
  cards_told := List.mem_append_left _ fetched.cards_told
  rows_told := List.mem_append_left _ fetched.rows_told
  grace_read := fetched.grace_read
  status_told := fun game here => (fetched.status_told game here).append

namespace Known

variable {st' : Tally}

/-- The lists of the report say nothing about the log. -/
theorem of_locals (known : Known cfg f st log) (links : st'.linkState = st.linkState)
    (ids : st'.seenIds = st.seenIds) (token : st'.token = st.token) : Known cfg f st' log where
  fetched := known.fetched
  orphans := links ▸ known.orphans
  settled := ids ▸ known.settled
  minted := token ▸ known.minted

/-- Only a create has to be remembered. -/
theorem append {e : Exchange Op Answer Failure} (known : Known cfg f st log)
    (quiet : ∀ body token, e.op ≠ .create body token) : Known cfg f st (log ++ [e]) where
  fetched := known.fetched.append
  orphans := fun cid state => List.mem_append_left _ (known.orphans cid state)
  settled := by
    intro body token r answered done
    rcases List.mem_append.mp answered with before | last
    · exact known.settled body token r before done
    · cases List.mem_singleton.mp last
      exact absurd rfl (quiet body token)
  minted := fun token held => List.mem_append_left _ (known.minted token held)

theorem append_upsert (known : Known cfg f st log) (body : ScheduleBody) (token : String)
    (r : Except Failure Unit) : Known cfg f st (log ++ [⟨.upsert body token, r⟩]) := by
  apply known.append
  intro body token same
  cases same

/-- A create that failed for another reason leaves its id open. -/
theorem append_failed {body : CreateBody} {token : String} {e : Failure}
    (known : Known cfg f st log) (other : e.conflictDetail = none) :
    Known cfg f st (log ++ [⟨.create body token, .error e⟩]) where
  fetched := known.fetched.append
  orphans := fun cid state => List.mem_append_left _ (known.orphans cid state)
  settled := by
    intro body' token' r answered done
    rcases List.mem_append.mp answered with before | last
    · exact known.settled body' token' r before done
    · cases List.mem_singleton.mp last
      simp [Settled, other] at done
  minted := fun token held => List.mem_append_left _ (known.minted token held)

/-- A create that was settled puts its id aside. -/
theorem append_settled {body : CreateBody} {token : String}
    {r : Except Failure (Option String)} (known : Known cfg f st log)
    (links : st'.linkState = st.linkState) (ids : st'.seenIds = body.questionId :: st.seenIds)
    (held : st'.token = st.token) :
    Known cfg f st' (log ++ [⟨.create body token, r⟩]) where
  fetched := known.fetched.append
  orphans := fun cid state => List.mem_append_left _ (known.orphans cid (links ▸ state))
  settled := by
    intro body' token' r' answered done
    rw [ids]
    rcases List.mem_append.mp answered with before | last
    · exact List.mem_cons_of_mem _ (known.settled body' token' r' before done)
    · cases List.mem_singleton.mp last
      exact List.mem_cons_self ..
  minted := fun token here => List.mem_append_left _ (known.minted token (held ▸ here))

end Known

/-! ### One game -/

/-- A row of a week whose previous week is over, and without a live market. -/
structure Open (cfg : Config) (f : Fetched) (log : Log) (game : Game) : Prop where
  fetched : game ∈ f.rows
  week_over : WeekOver cfg log f.cards f.rows f.grace (game.season, game.week - 1)
  unlisted : ∀ cid, listedCid cfg f.cards game = some cid → ⟨.closeTime cid, .ok (0 : Int)⟩ ∈ log

theorem WeekOver.append {cards : List Card} {rows : List Game} {grace : Int} {key : Int × Int}
    {more : Log} (over_told : WeekOver cfg log cards rows grace key) :
    WeekOver cfg (log ++ more) cards rows grace key where
  some_row := over_told.some_row
  over_rows := by
    intro game here same
    rcases over_told.over_rows game here same with ⟨status, told, ended⟩
    exact ⟨status, told.append, ended⟩

variable {game : Game} {q : String}

theorem Open.append {more : Log} (ready : Open cfg f log game) : Open cfg f (log ++ more) game where
  fetched := ready.fetched
  week_over := ready.week_over.append
  unlisted := fun cid linked => List.mem_append_left _ (ready.unlisted cid linked)

/-- A token is minted at most once, and changes nothing else. -/
structure Signs (cfg : Config) (f : Fetched) (st : Tally) (log : Log)
    (r : Except Failure (String × Tally)) (log' : Log) : Prop where
  signing : ∃ signing, log' = log ++ signing ∧ ∀ e ∈ signing, e.op = .mintToken
  fails : ∀ e, r = .error e → Known cfg f st log'
  signs : ∀ token st', r = .ok (token, st') → Known cfg f st' log' ∧
    st'.seenIds = st.seenIds ∧ ⟨.mintToken, .ok token⟩ ∈ log'

theorem operatorToken_guarded (known : Known cfg f st log) :
    Guarded (Allowed cfg) (operatorToken st) (Signs cfg f st log) log := by
  unfold operatorToken
  cases held : st.token with
  | some token =>
      constructor
      · exact ⟨[], (List.append_nil log).symm, fun e none => absurd none List.not_mem_nil⟩
      · intro e failed
        cases failed
      · intro token' st' returned
        cases returned
        exact ⟨known, rfl, known.minted token held⟩
  | none =>
      refine ⟨trivial, fun r => ?_⟩
      have asked : Known cfg f st (log ++ [⟨.mintToken, r⟩]) := by
        apply known.append
        intro body token same
        cases same
      have only : ∃ signing, log ++ [(⟨.mintToken, r⟩ : Exchange Op Answer Failure)] =
          log ++ signing ∧ ∀ e ∈ signing, e.op = .mintToken := by
        refine ⟨_, rfl, ?_⟩
        intro e here
        rw [List.mem_singleton.mp here]
      cases r with
      | error e =>
          constructor
          · exact only
          · intro e' failed
            exact asked
          · intro token st' returned
            cases returned
      | ok token =>
          constructor
          · exact only
          · intro e failed
            cases failed
          · intro token' st' returned
            cases returned
            have last : (⟨.mintToken, .ok token⟩ : Exchange Op Answer Failure) ∈
                log ++ [⟨.mintToken, .ok token⟩] :=
              List.mem_append_right _ (List.mem_singleton_self _)
            refine ⟨⟨asked.fetched, asked.orphans, asked.settled, ?_⟩, rfl, last⟩
            intro token' same
            cases same
            exact last

theorem clearLink_guarded {cid : String} (known : Known cfg f st log) (fetched : game ∈ f.rows)
    (own : game.listedConditionId = some cid) (named : cid ≠ "")
    (orphan : ⟨.closeTime cid, .ok (0 : Int)⟩ ∈ log) :
    Guarded (Allowed cfg) (clearLink game q st) (Returns (Known cfg f)) log := by
  unfold clearLink
  apply Guarded.bind (Guarded.attempt (operatorToken_guarded known))
  intro r log' signs
  rcases signs.signing with ⟨signing, rfl, minting⟩
  cases r with
  | error e => exact Guarded.pure ((signs.fails e rfl).of_locals rfl rfl rfl)
  | ok pair =>
      rcases pair with ⟨token, st'⟩
      rcases signs.signs token st' rfl with ⟨known', _, minted⟩
      have linkable : Linkable cfg (log ++ signing) (scheduleBody game "") token :=
        ⟨f.rows, game, known'.fetched.rows_told, fetched, minted,
          .inr ⟨cid, named, own, rfl, List.mem_append_left _ orphan⟩⟩
      apply Guarded.bind (Guarded.attempt (Guarded.perform linkable))
      intro r log' same
      subst same
      have known'' := known'.append_upsert (scheduleBody game "") token r
      cases r with
      | error e => exact Guarded.pure (known''.of_locals rfl rfl rfl)
      | ok done => exact Guarded.pure known''

/-- What `list_game` leaves: the locals still follow from the log. -/
def Keeps (cfg : Config) (f : Fetched) (result : Bool × Tally) (log : Log) : Prop :=
  Known cfg f result.2 log

theorem seedUsdc_guarded : Guarded (Allowed cfg) (seedUsdc cfg)
    (Returns fun seed log' => log' = log ∧ cfg.seed = some seed ∧ 0 < seed) log := by
  unfold seedUsdc
  cases read : cfg.seed with
  | none => exact Guarded.raise
  | some value =>
      dsimp only
      split
      · exact Guarded.raise
      · exact Guarded.pure ⟨rfl, rfl, by omega⟩

theorem linkCreated_guarded {body : CreateBody} {token : String} {cid : Option String}
    (known : Known cfg f st (log ++ [⟨.create body token, .ok cid⟩])) (fetched : game ∈ f.rows)
    (minted : ⟨.mintToken, .ok token⟩ ∈ log) (id : body.questionId = questionId cfg game)
    (closes : body.closeTime = game.kickoff) :
    Guarded (Allowed cfg) (linkCreated game token cid) (Returns fun _ => Known cfg f st)
      (log ++ [⟨.create body token, .ok cid⟩]) := by
  unfold linkCreated
  cases cid with
  | none => exact Guarded.pure known
  | some cid =>
      dsimp only
      split
      · exact Guarded.pure known
      · rename_i named
        have linkable : Linkable cfg (log ++ [⟨.create body token, .ok (some cid)⟩])
            (scheduleBody game cid) token :=
          ⟨f.rows, game, known.fetched.rows_told, fetched, List.mem_append_left _ minted,
            .inl ⟨cid, log, body, named, rfl, rfl, id, closes⟩⟩
        apply Guarded.bind (Guarded.attempt (Guarded.perform linkable))
        intro r log' same
        subst same
        exact Guarded.pure (known.append_upsert (scheduleBody game cid) token r)

/-- From the create on: the budget was just asked, and everything else was checked. -/
theorem postGame_guarded {earlier : Log} (known : Known cfg f st log) (ready : Open cfg f log game)
    (asked : log = earlier ++ [⟨.exhausted, .ok false⟩]) (scheduled : game.statusOr = "scheduled")
    (ahead : cfg.clock + minLeadSeconds < game.kickoff)
    (fresh : questionId cfg game ∉ st.seenIds) :
    Guarded (Allowed cfg) (postGame cfg game (winnerQuestion game.home game.away) st)
      (Returns (Keeps cfg f)) log := by
  unfold postGame
  apply Guarded.bind (operatorToken_guarded known).returns
  intro pair log' signs
  rcases pair with ⟨token, st'⟩
  rcases signs.signing with ⟨signing, rfl, minting⟩
  rcases signs.signs token st' rfl with ⟨known', ids, minted⟩
  apply Guarded.bind seedUsdc_guarded
  intro seed log' read
  rcases read with ⟨rfl, seed_read, positive⟩
  have unsettled : ∀ body' token' (r : Except Failure (Option String)),
      ⟨.create body' token', r⟩ ∈ log ++ signing → body'.questionId = questionId cfg game →
      ¬Settled r := by
    intro body' token' r answered same done
    have seen := known'.settled body' token' r answered done
    rw [same, ids] at seen
    exact fresh seen
  have listable : Listable cfg (log ++ signing) f.cards f.rows game
      (createBody cfg game (winnerQuestion game.home game.away) seed) token := {
    cards_told := known'.fetched.cards_told
    rows_told := known'.fetched.rows_told
    fetched := ready.fetched
    scheduled := scheduled
    ahead := ahead
    body_eq := ⟨seed, seed_read, positive, rfl⟩
    week_over := ⟨f.grace, known.fetched.grace_read.1, known.fetched.grace_read.2,
      ready.week_over.append⟩
    unlisted := ready.append.unlisted
    in_budget := ⟨earlier, signing, by rw [asked, List.append_assoc]; rfl, minting⟩
    signed := minted
    once := unsettled }
  apply Guarded.bind (Guarded.attempt (Guarded.perform ⟨f.cards, f.rows, game, listable⟩))
  intro r log' same
  subst same
  cases r with
  | error e =>
      cases conflict : e.conflictDetail with
      | some detail =>
          simp only [conflict]
          exact Guarded.pure (known'.append_settled rfl rfl rfl)
      | none =>
          simp only [conflict]
          exact Guarded.pure ((known'.append_failed conflict).of_locals rfl rfl rfl)
  | ok cid =>
      let st'' : Tally := { st' with
        seenIds := questionId cfg game :: st'.seenIds
        created := st'.created ++
          [(winnerQuestion game.home game.away, (show Option String from cid), game.kickoff)] }
      have created : Known cfg f st'' (log ++ signing ++
          [⟨.create (createBody cfg game (winnerQuestion game.home game.away) seed) token,
            .ok cid⟩]) := known'.append_settled rfl rfl rfl
      apply Guarded.bind (linkCreated_guarded created ready.fetched minted rfl rfl)
      intro _ log' known''
      exact Guarded.pure known''

theorem listGame_guarded (known : Known cfg f st log) (ready : Open cfg f log game) :
    Guarded (Allowed cfg) (listGame cfg f game (winnerQuestion game.home game.away) st)
      (Returns (Keeps cfg f)) log := by
  unfold listGame
  split
  · exact Guarded.pure (known.of_locals rfl rfl rfl)
  · rename_i unseen
    have noted :
        Known cfg f (noteCollision cfg f game (winnerQuestion game.home game.away) st) log ∧
        (noteCollision cfg f game (winnerQuestion game.home game.away) st).seenIds =
          st.seenIds := by
      unfold noteCollision
      split
      · exact ⟨known.of_locals rfl rfl rfl, rfl⟩
      · exact ⟨known, rfl⟩
    rcases noted with ⟨known', ids⟩
    dsimp only
    split
    · exact Guarded.pure (known'.of_locals rfl rfl rfl)
    · rename_i scheduled
      split
      · exact Guarded.pure (known'.of_locals rfl rfl rfl)
      · rename_i late
        refine Guarded.bind (Guarded.perform ?_).returns ?_
        · trivial
        intro spent log' same
        subst same
        have asked := known'.append (e := ⟨.exhausted, .ok spent⟩) (by intro _ _ same; cases same)
        cases spent with
        | true => exact Guarded.pure (asked.of_locals rfl rfl rfl)
        | false =>
            apply postGame_guarded asked ready.append rfl
              (not_not.mp scheduled) (not_le.mp late)
            rw [ids]
            simpa using unseen

/-! ### The links -/

/-- What a look at a link leaves: an orphan was read as one. -/
def Looks (cfg : Config) (f : Fetched) (cid : String) (result : LinkState × Tally) (log : Log) :
    Prop :=
  Known cfg f result.2 log ∧ (result.1 = .orphan → ⟨.closeTime cid, .ok (0 : Int)⟩ ∈ log)

theorem readLink_guarded {cid : String} (known : Known cfg f st log) :
    Guarded (Allowed cfg) (readLink cfg f cid st) (Returns (Looks cfg f cid)) log := by
  unfold readLink
  split
  · refine Guarded.bind (Guarded.attempt (Guarded.perform ?_)) ?_
    · trivial
    intro r log' same
    subst same
    have known' : Known cfg f st (log ++ [⟨.closeTime cid, r⟩]) :=
      known.append (by intro _ _ same; cases same)
    cases r with
    | error e => exact Guarded.pure ⟨known'.of_locals rfl rfl rfl, fun orphan => by cases orphan⟩
    | ok closeTime =>
        dsimp only
        split
        · rename_i zero
          subst zero
          exact Guarded.pure ⟨known', fun _ =>
            List.mem_append_right _ (List.mem_singleton_self _)⟩
        · split
          · exact Guarded.pure ⟨known', fun orphan => by cases orphan⟩
          · exact Guarded.pure ⟨known', fun orphan => by cases orphan⟩
  · exact Guarded.pure ⟨known, fun orphan => by cases orphan⟩

theorem checkLink_guarded (known : Known cfg f st log) (cid : String) :
    Guarded (Allowed cfg) (checkLink cfg f cid st) (Returns (Looks cfg f cid)) log := by
  unfold checkLink
  cases remembered : st.linkState.lookup cid with
  | some state =>
      apply Guarded.pure
      refine ⟨known, ?_⟩
      intro orphan
      exact known.orphans cid (remembered.trans (congrArg some orphan))
  | none =>
      apply Guarded.bind (readLink_guarded known)
      intro result log' looks
      rcases result with ⟨state, st'⟩
      rcases looks with ⟨known', orphan⟩
      refine Guarded.pure ⟨⟨known'.fetched, ?_, known'.settled, known'.minted⟩, orphan⟩
      intro cid' held
      rw [List.lookup_cons] at held
      split at held
      · rename_i same
        rw [eq_of_beq same]
        exact orphan (Option.some.inj held)
      · exact known'.orphans cid' held

/-- The link a row carries itself is the one it is listed under. -/
theorem listedCid_own (cfg : Config) (own : game.listedConditionId.getD "" ≠ "")
    (cards : List Card) :
    ∃ cid, cid ≠ "" ∧ game.listedConditionId = some cid ∧ listedCid cfg cards game = some cid := by
  unfold listedCid
  cases link : game.listedConditionId with
  | none =>
      rw [link] at own
      exact absurd rfl own
  | some cid =>
      rw [link] at own
      exact ⟨cid, own, rfl, if_neg own⟩

theorem relistOrphan_guarded (known : Known cfg f st log) (ready : Open cfg f log game) :
    Guarded (Allowed cfg) (relistOrphan cfg f game (winnerQuestion game.home game.away) st)
      (Returns (Known cfg f)) log := by
  unfold relistOrphan
  apply Guarded.bind (listGame_guarded known ready).grows
  intro result log' kept
  rcases result with ⟨created, st'⟩
  rcases kept with ⟨known', more, rfl⟩
  dsimp only
  split
  · rename_i clears
    have own : game.listedConditionId.getD "" ≠ "" := by
      intro none
      simp [none] at clears
    rcases listedCid_own cfg own f.cards with ⟨cid, named, link, listed⟩
    exact clearLink_guarded known' ready.fetched link named (ready.append.unlisted cid listed)
  · exact Guarded.pure known'

theorem relist_guarded (known : Known cfg f st log) (fetched : game ∈ f.rows)
    (week_over : WeekOver cfg log f.cards f.rows f.grace (game.season, game.week - 1)) :
    Guarded (Allowed cfg) (relist cfg f st game) (Returns (Known cfg f)) log := by
  unfold relist
  dsimp only
  cases linked : listedCid cfg f.cards game with
  | none =>
      have ready : Open cfg f log game := {
        fetched := fetched
        week_over := week_over
        unlisted := by
          intro cid listed
          cases linked.symm.trans listed }
      apply Guarded.bind (listGame_guarded known ready)
      intro result log' known'
      exact Guarded.pure known'
  | some cid =>
      apply Guarded.bind (checkLink_guarded known cid).grows
      intro result log' looks
      rcases result with ⟨state, st'⟩
      rcases looks with ⟨⟨known', orphan⟩, more, rfl⟩
      have paused : Known cfg f (if state = .paused then { st' with pausedLinks :=
          st'.pausedLinks ++ [(winnerQuestion game.home game.away, cid)] } else st') (log ++ more) := by
        split
        · exact known'.of_locals rfl rfl rfl
        · exact known'
      dsimp only
      split
      · exact Guarded.pure (paused.of_locals rfl rfl rfl)
      · rename_i lost
        apply relistOrphan_guarded
        · exact paused.of_locals rfl rfl rfl
        · exact {
            fetched := fetched
            week_over := week_over.append
            unlisted := by
              intro cid' listed
              cases linked.symm.trans listed
              exact orphan (not_not.mp lost) }

/-! ### The weeks -/

theorem Fetched.mem_group {key : Int × Int} :
    game ∈ f.group key ↔ game ∈ f.rows ∧ game.key = key := by
  simp [Fetched.group]

/-- A week with rows, none of which blocks, is over. -/
theorem weekOver_of_free {key : Int × Int} (fetched : f.FromLog cfg log) (rows : f.group key ≠ [])
    (free : f.blockingGames cfg (f.group key) = []) :
    WeekOver cfg log f.cards f.rows f.grace key where
  some_row := by
    rcases List.exists_mem_of_ne_nil _ rows with ⟨game, here⟩
    exact ⟨game, Fetched.mem_group.mp here⟩
  over_rows := by
    intro game here same
    refine ⟨_, fetched.status_told game here, ?_⟩
    have passes := List.filter_eq_nil_iff.mp free game (Fetched.mem_group.mpr ⟨here, same⟩)
    simpa [or_iff_not_imp_left] using passes

theorem weekTurn_guarded {key : Int × Int} (known : Known cfg f st log) :
    Guarded (Allowed cfg) (weekTurn cfg f st key) (Returns (Known cfg f)) log := by
  unfold weekTurn
  dsimp only
  split
  · exact Guarded.pure known
  · split
    · exact Guarded.pure (known.of_locals rfl rfl rfl)
    · rename_i ended
      rw [not_or, not_not] at ended
      have week_over := weekOver_of_free known.fetched ended.1 ended.2
      refine Guarded.mono (Guarded.foldlM (fun rest st log =>
        (Known cfg f st log ∧ WeekOver cfg log f.cards f.rows f.grace key) ∧
          ∀ game ∈ rest, game ∈ f.rows ∧ game.key = (key.1, key.2 + 1)) ?_ ?_) ?_
      · intro st game rest log kept
        rcases kept with ⟨⟨known, week_over⟩, left⟩
        rcases left game (List.mem_cons_self ..) with ⟨here, same⟩
        have previous : (game.season, game.week - 1) = key := by
          rcases Prod.mk.inj same with ⟨season, week⟩
          apply Prod.ext
          · exact season
          · simp [week]
        apply (relist_guarded known here (previous ▸ week_over)).grows.mono
        intro r log' holds st' returned
        rcases holds st' returned with ⟨known', more, rfl⟩
        exact ⟨⟨known', week_over.append⟩, fun game here => left game (List.mem_cons_of_mem _ here)⟩
      · exact ⟨⟨known.of_locals rfl rfl rfl, week_over⟩, fun game here => Fetched.mem_group.mp here⟩
      · intro r log' holds st' returned
        exact (holds st' returned).1.1

/-! ### The run -/

/-- The details fetched so far: each linked market is still to come, or its entry is its answer;
and nothing was created yet. -/
structure Fetching (cfg : Config) (cards : List Card) (rows : List Game) (rest : List String)
    (statuses : List (String × Option String)) (log : Log) : Prop where
  entries : ∀ cid ∈ linkedCids cfg cards rows, cid ∈ rest ∨
    ∃ r : Except Failure (Option String), statuses.lookup cid = some (liveStatus r) ∧
      ⟨.detail cid, r⟩ ∈ log
  quiet : ∀ e ∈ log, ∀ body token, e.op ≠ .create body token

theorem fetchStatus_guarded {cards : List Card} {rows : List Game} {cid : String}
    {rest : List String} {statuses : List (String × Option String)}
    (fetching : Fetching cfg cards rows (cid :: rest) statuses log) :
    Guarded (Allowed cfg) (fetchStatus statuses cid)
      (Returns (Fetching cfg cards rows rest)) log := by
  unfold fetchStatus
  refine Guarded.bind (Guarded.attempt (Guarded.perform ?_)) ?_
  · trivial
  intro r log' same
  subst same
  have fetched : Fetching cfg cards rows rest ((cid, liveStatus r) :: statuses)
      (log ++ [⟨.detail cid, r⟩]) := by
    constructor
    · intro cid' here
      rw [List.lookup_cons]
      by_cases this : cid' = cid
      · subst this
        exact .inr ⟨r, by simp, List.mem_append_right _ (List.mem_singleton_self _)⟩
      · rcases fetching.entries cid' here with left | ⟨r', entry, answered⟩
        · exact .inl (List.mem_of_ne_of_mem this left)
        · refine .inr ⟨r', ?_, List.mem_append_left _ answered⟩
          simp [beq_eq_false_iff_ne.mpr this, entry]
    · intro e here body token same
      rcases List.mem_append.mp here with before | last
      · exact fetching.quiet e before body token same
      · rw [List.mem_singleton.mp last] at same
        cases same
  cases r with
  | error e => exact Guarded.pure fetched
  | ok status => exact Guarded.pure fetched

theorem mem_linkedCids {cards : List Card} {rows : List Game} {cid : String} (here : game ∈ rows)
    (linked : listedCid cfg cards game = some cid) : cid ∈ linkedCids cfg cards rows := by
  unfold linkedCids
  rw [List.mem_insertionSort, List.mem_dedup, List.mem_filterMap]
  exact ⟨game, here, linked⟩

/-- Once every detail is fetched, each row is judged by what was told. -/
theorem status_told_of_fetching {cards : List Card} {rows : List Game}
    {statuses : List (String × Option String)}
    (fetching : Fetching cfg cards rows [] statuses log) (here : game ∈ rows) :
    StatusTold cfg log cards game (gameStatus cfg cards statuses game) := by
  unfold StatusTold gameStatus
  cases linked : listedCid cfg cards game with
  | none => rfl
  | some cid =>
      rcases fetching.entries cid (mem_linkedCids here linked) with left | ⟨r, entry, answered⟩
      · cases left
      · refine ⟨r, answered, ?_⟩
        dsimp only
        rw [entry]
        cases liveStatus r <;> rfl

theorem staleGraceSeconds_guarded : Guarded (Allowed cfg) (staleGraceSeconds cfg)
    (Returns fun grace log' => log' = log ∧ cfg.grace = some grace ∧ 0 ≤ grace) log := by
  unfold staleGraceSeconds
  cases read : cfg.grace with
  | none => exact Guarded.raise
  | some value =>
      dsimp only
      split
      · exact Guarded.raise
      · exact Guarded.pure ⟨rfl, rfl, by omega⟩

/-- Whatever a run is told, it creates only listable markets and writes only linkable links. -/
theorem run_guarded : Guarded (Allowed cfg) (run cfg) (Returns fun _ _ => True) [] := by
  unfold run
  apply Guarded.bind staleGraceSeconds_guarded
  intro grace log read
  rcases read with ⟨rfl, grace_read⟩
  refine Guarded.bind (Guarded.perform ?_).returns ?_
  · trivial
  intro cards log same
  subst same
  refine Guarded.bind (Guarded.perform ?_).returns ?_
  · trivial
  intro rows log same
  subst same
  apply Guarded.bind (Guarded.foldlM (Fetching cfg cards rows)
    (fun statuses cid rest log fetching => fetchStatus_guarded fetching)
    ⟨fun cid here => .inl here, by simp⟩).grows
  intro statuses log fetching
  rcases fetching with ⟨fetching, grown⟩
  have known : Known cfg ⟨cards, rows, statuses, grace⟩ {} log := {
    fetched := {
      cards_told := grown.subset (List.mem_cons_self ..)
      rows_told := grown.subset (List.mem_cons_of_mem _ (List.mem_cons_self ..))
      grace_read := grace_read
      status_told := fun game here => status_told_of_fetching fetching here }
    orphans := fun cid held => by cases held
    settled := fun body token r answered => absurd rfl (fetching.quiet _ answered body token)
    minted := fun token held => by cases held }
  apply Guarded.bind (Guarded.foldlM
    (fun _ st log => Known cfg ⟨cards, rows, statuses, grace⟩ st log)
    (fun st key rest log known => weekTurn_guarded known) known)
  intro st log _
  exact Guarded.pure trivial

/-- In every run, whatever it is told: a create is for a scheduled row whose previous week is over,
more than ten minutes before its kickoff, without a live market, within the budget, and not settled
before in this run. -/
theorem creates_listable {body : CreateBody} {token : String}
    {next : Except Failure (Option String) → Job Report}
    (told : Transcript (run cfg) log (.call (.create body token) next)) :
    ∃ cards rows game, Listable cfg log cards rows game body token := run_guarded.sound told

/-- In every run, whatever it is told: an upsert links the market just created for its row, or clears
a row's own link to a market whose close time was read as 0. -/
theorem links_linkable {body : ScheduleBody} {token : String}
    {next : Except Failure Unit → Job Report}
    (told : Transcript (run cfg) log (.call (.upsert body token) next)) :
    Linkable cfg log body token := run_guarded.sound told

def Config.sample : Config where
  lower := String.toLower
  digest payload := "0x" ++ payload
  seed := some 200000000
  grace := some 28800
  clock := 1000
  chainOn := true

def Game.sampleOver : Game := ⟨"1", 2025, 1, "DAL", "PHI", 500, some "final", none⟩

def Game.sampleNext : Game := ⟨"2", 2025, 2, "NYG", "WAS", 5000, none, none⟩

def Game.sampleOrphan : Game := ⟨"3", 2025, 2, "KC", "LAC", 900, none, some "0xold"⟩

def Log.sample : Log :=
  [⟨.markets, .ok ([] : List Card)⟩, ⟨.schedule, .ok [Game.sampleOver, Game.sampleNext]⟩,
    ⟨.exhausted, .ok false⟩, ⟨.mintToken, .ok "jwt"⟩]

def Log.sampleOrphan : Log :=
  [⟨.markets, .ok ([] : List Card)⟩, ⟨.schedule, .ok [Game.sampleOver, Game.sampleOrphan]⟩,
    ⟨.detail "0xold", .ok (some "scheduled")⟩, ⟨.closeTime "0xold", .ok (0 : Int)⟩,
    ⟨.mintToken, .ok "jwt"⟩]

theorem Log.sample_pending : (run .sample).pending Log.sample =
    some (.create (createBody .sample .sampleNext "WAS vs NYG: WAS win?" 200000000) "jwt") := by
  decide +kernel

theorem Log.sampleOrphan_pending : (run .sample).pending Log.sampleOrphan =
    some (.upsert (scheduleBody .sampleOrphan "") "jwt") := by
  decide +kernel

theorem sample_creates_listable : ∃ cards rows game, Listable .sample Log.sample cards rows game
    (createBody .sample .sampleNext "WAS vs NYG: WAS win?" 200000000) "jwt" := by
  rcases Transcript.of_pending Log.sample_pending with ⟨next, told⟩
  exact creates_listable told

theorem sample_links_linkable :
    Linkable .sample Log.sampleOrphan (scheduleBody .sampleOrphan "") "jwt" := by
  rcases Transcript.of_pending Log.sampleOrphan_pending with ⟨next, told⟩
  exact links_linkable told

end OverUnder.Oracles.Listing
