/-
Module: OverUnder.Proofs.PublicListings
Purpose: A user's market is public only as reviewed: whatever transactions interleave, a
  confirmed listing has the question and close time of the chain, the criteria text committed
  there, a question that passes its check, and what was prepared. A commit that writes another
  text over the committed one is the exception.
Trusted boundary: none
Main exports: commit_market_self, commit_listing_self, commit_ok, listings_step, Reviewed,
  AllReviewed, public_listings_reviewed, mirror_overwrites
-/
import OverUnder.Proofs.ListingSessions
import OverUnder.Library.Reachable

namespace OverUnder.Backend.Listings

open OverUnder.Vyper (Address Bytes32)
open OverUnder.Library ListingGates

variable {site : Site} {s s' : State} {t : Session} {c : ChainMarket} {cid : Bytes32}

/-! ### Commits -/

/-- A flushed column is the current one, or the one that was set to something new. -/
theorem column_cases {α : Type} [DecidableEq α] (loaded set current : α) :
    set = loaded ∧ column loaded set current = current ∨
      set ≠ loaded ∧ column loaded set current = set := by
  unfold column
  split
  · next same => exact .inl ⟨same, rfl⟩
  · next changed => exact .inr ⟨changed, rfl⟩

theorem column_eq {α : Type} [DecidableEq α] {loaded set current value : α}
    (set_eq : set = value) (current_eq : current = value) :
    column loaded set current = value := by
  rcases column_cases loaded set current with ⟨-, same⟩ | ⟨-, changed⟩
  · exact same.trans current_eq
  · exact changed.trans set_eq

theorem RowOf.flush {loaded set current : MarketRow} (setRow : RowOf c set)
    (currentRow : RowOf c current) : RowOf c (loaded.flush set current) :=
  ⟨column_eq setRow.question currentRow.question, column_eq setRow.closeTime currentRow.closeTime,
    column_eq setRow.marketType currentRow.marketType⟩

/-- What a transaction sets is what the chain says. -/
theorem SessionOk.setMarket_of {loaded : MarketRow} (ok : SessionOk site s t)
    (found : t.market = some loaded) :
    (t.setMarket site loaded).conditionId = t.cid ∧
      RowOf t.task.onchain (t.setMarket site loaded) := by
  have ⟨same, row⟩ := ok.market loaded found
  unfold Session.setMarket
  split
  · next onchain seen criteria confirm =>
    have ⟨user, _, _⟩ := ok.confirms onchain seen criteria confirm
    rw [confirm] at row ⊢
    exact ⟨same, rfl, rfl, user.symm⟩
  · split
    · exact ⟨same, row.question, row.closeTime, row.marketType⟩
    · exact ⟨same, row⟩
  · next onchain criteria mirror =>
    split
    · exact ⟨same, row⟩
    · rw [mirror]
      exact ⟨same, rfl, rfl, rfl⟩

/-- A listing is confirmed by a transaction that passed its review, with the text it
reviewed. -/
theorem Session.setListing_confirms {seen : ListingRow} {loaded : MarketRow}
    (confirms : (t.setListing seen).status = .confirmed) (changes : seen.status ≠ .confirmed) :
    t.verdict = .reviewed none ∧
      (t.setMarket site loaded).resolutionCriteria = t.criteria site := by
  unfold Session.setListing at confirms
  simp only at confirms
  split at confirms
  · next criteria task verdict =>
    refine ⟨verdict, ?_⟩
    simp only [Session.setMarket, Session.criteria, task, verdict, if_true]
  · cases confirms
  · next task verdict =>
    refine ⟨verdict, ?_⟩
    simp only [Session.setMarket, task, verdict, if_true]
  · cases confirms
  · exact absurd confirms changes
  · exact absurd confirms changes

theorem Session.setListing_conditionId {seen : ListingRow} :
    (t.setListing seen).conditionId = seen.conditionId := by
  unfold Session.setListing
  simp only
  split
  all_goals rfl

theorem Keeps.flush {p loaded set current : ListingRow} (setKeeps : Keeps p set)
    (currentKeeps : Keeps p current) : Keeps p (loaded.flush set current) :=
  ⟨currentKeeps.salted, column_eq setKeeps.question currentKeeps.question,
    column_eq setKeeps.closeTime currentKeeps.closeTime,
    column_eq setKeeps.seedUsdc currentKeeps.seedUsdc⟩

/-- No transaction changes what was prepared. -/
theorem SessionOk.setListing_keeps {p seen : ListingRow} (ok : SessionOk site s t)
    (mem : p ∈ s.prepared) (same : p.conditionId = t.cid) (keeps : Keeps p seen) :
    Keeps p (t.setListing seen) := by
  have agrees : t.verdict = .reviewed none → t.task.onchain.question = p.question ∧
      t.task.onchain.closeTime = p.closeTime ∧ t.task.onchain.seedUsdc = p.seedUsdc :=
    fun passed => (ok.passed passed).1.prepared p mem same
  unfold Session.setListing
  simp only
  split
  · next verdict =>
    have ⟨question, closeTime, seedUsdc⟩ := agrees verdict
    exact ⟨keeps.salted, question, closeTime, seedUsdc⟩
  · exact ⟨keeps.salted, keeps.question, keeps.closeTime, keeps.seedUsdc⟩
  · next verdict =>
    have ⟨question, closeTime, seedUsdc⟩ := agrees verdict
    exact ⟨keeps.salted, question, closeTime, seedUsdc⟩
  · exact ⟨keeps.salted, keeps.question, keeps.closeTime, keeps.seedUsdc⟩
  · refine ⟨keeps.salted, keeps.question, keeps.closeTime, ?_⟩
    have fromPrepare : isBackendPrepared (some seen) = true := by
      simp only [isBackendPrepared, Option.any_some, keeps.salted, Bool.true_or]
    simp only [fromPrepare, if_true]
    exact keeps.seedUsdc
  · exact keeps

theorem MarketRow.flush_conditionId {loaded set : MarketRow} (current : MarketRow) :
    (loaded.flush set current).conditionId = current.conditionId := rfl

theorem ListingRow.flush_conditionId {loaded set : ListingRow} (current : ListingRow) :
    (loaded.flush set current).conditionId = current.conditionId := rfl

/-- A transaction that can commit: what it inserted is not there yet. -/
structure Commits (s : State) (t : Session) (loaded : MarketRow) : Prop where
  market : t.market = some loaded
  freshMarket : t.newMarket.isSome = true → s.db.market t.cid = none
  freshListing : t.newListing.isSome = true → s.db.listing t.cid = none

variable {loaded : MarketRow}

/-- The row of the market after a commit: what was set to another text is there, and a
committed text stays unless it is written over. -/
theorem commit_market_self (inv : Sessions site s) (ok : SessionOk site s t)
    (commits : Commits s t loaded) :
    ∃ m, (t.commit site s.db loaded).market t.cid = some m ∧ RowOf t.task.onchain m ∧
      (Matches site t.task.onchain (t.setMarket site loaded).resolutionCriteria →
        Matches site t.task.onchain m.resolutionCriteria) ∧
      (¬ Overwrites site t loaded → ∀ now, s.db.market t.cid = some now →
        Matches site t.task.onchain now.resolutionCriteria →
          Matches site t.task.onchain m.resolutionCriteria) := by
  have ⟨same, setRow⟩ := ok.setMarket_of commits.market
  simp only [Database.market, Session.commit, Session.commitMarket]
  split
  · next inserted =>
    have fresh := commits.freshMarket inserted
    refine ⟨t.setMarket site loaded, ?_, setRow, id, fun _ now there => ?_⟩
    · rw [Keyed.get_insertIgnore, if_pos same]
      change (s.db.market t.cid).or _ = _
      rw [fresh, Option.none_or]
    · change s.db.market t.cid = some now at there
      rw [fresh] at there
      cases there
  · next existing =>
    have existing : t.newMarket = none := Option.not_isSome_iff_eq_none.mp existing
    rcases ok.current loaded commits.market existing with ⟨now, there, since⟩
    rcases inv.rows _ _ there with ⟨c, onchain, nowRow⟩
    cases ok.onchain.symm.trans onchain
    have written := column_cases loaded.resolutionCriteria
      (t.setMarket site loaded).resolutionCriteria now.resolutionCriteria
    refine ⟨loaded.flush (t.setMarket site loaded) now, ?_, setRow.flush nowRow, fun matching => ?_,
      fun spared other there' matching => ?_⟩
    · rw [Keyed.get_modify MarketRow.flush_conditionId]
      change (s.db.market t.cid).map _ = _
      rw [there, Option.map_some, if_pos rfl]
    · rcases written with ⟨kept, column⟩ | ⟨-, column⟩
      · simp only [MarketRow.flush, column]
        exact since (kept ▸ matching)
      · simp only [MarketRow.flush, column]
        exact matching
    · change s.db.market t.cid = some other at there'
      cases there.symm.trans there'
      rcases written with ⟨-, column⟩ | ⟨changes, column⟩
      · simp only [MarketRow.flush, column]
        exact matching
      · simp only [MarketRow.flush, column]
        by_contra differs
        exact spared ⟨existing, changes, differs⟩

theorem commit_market_other {k : Bytes32} (ok : SessionOk site s t)
    (commits : Commits s t loaded) (other : k ≠ t.cid) :
    (t.commit site s.db loaded).market k = s.db.market k := by
  have ⟨same, _⟩ := ok.setMarket_of commits.market
  simp only [Database.market, Session.commit, Session.commitMarket]
  split
  · rw [Keyed.get_insertIgnore, same, if_neg (Ne.symm other), Option.or_none]
  · rw [Keyed.get_modify MarketRow.flush_conditionId]
    simp only [other, if_false, Option.map_id']

theorem commit_listing_self (ok : SessionOk site s t) (commits : Commits s t loaded) :
    (t.commit site s.db loaded).listing t.cid = match t.listing with
      | none => s.db.listing t.cid
      | some seen => if t.newListing.isSome then some (t.setListing seen)
          else (s.db.listing t.cid).map (seen.flush (t.setListing seen)) := by
  simp only [Database.listing, Session.commit, Session.commitListing]
  cases found : t.listing with
  | none => rfl
  | some seen =>
      obtain ⟨same, -⟩ := ok.listing seen found
      simp only
      split
      · next inserted =>
        have fresh := commits.freshListing inserted
        rw [Keyed.get_insertIgnore, if_pos (Session.setListing_conditionId.trans same)]
        change (s.db.listing t.cid).or _ = _
        rw [fresh, Option.none_or]
      · rw [Keyed.get_modify ListingRow.flush_conditionId]
        simp only [if_true]

theorem commit_listing_other {k : Bytes32} (ok : SessionOk site s t) (other : k ≠ t.cid) :
    (t.commit site s.db loaded).listing k = s.db.listing k := by
  simp only [Database.listing, Session.commit, Session.commitListing]
  cases found : t.listing with
  | none => rfl
  | some seen =>
      obtain ⟨same, -⟩ := ok.listing seen found
      simp only
      split
      · rw [Keyed.get_insertIgnore, Session.setListing_conditionId, same, if_neg (Ne.symm other),
          Option.or_none]
      · rw [Keyed.get_modify ListingRow.flush_conditionId]
        simp only [other, if_false, Option.map_id']

/-- A commit keeps what was prepared. -/
theorem commit_keeps {p l : ListingRow} (ok : SessionOk site s t) (commits : Commits s t loaded)
    (mem : p ∈ s.prepared) (there : s.db.listing p.conditionId = some l) (keeps : Keeps p l) :
    ∃ l', (t.commit site s.db loaded).listing p.conditionId = some l' ∧ Keeps p l' := by
  by_cases same : p.conditionId = t.cid
  · rw [same] at there ⊢
    rw [commit_listing_self ok commits]
    split
    · exact ⟨l, there, keeps⟩
    · next seen found =>
      have ⟨_, seenKeeps, _⟩ := ok.listing seen found
      split
      · next inserted =>
        rw [commits.freshListing inserted] at there
        cases there
      · rw [there]
        exact ⟨_, rfl, (ok.setListing_keeps mem same (seenKeeps p mem same)).flush keeps⟩
  · rw [commit_listing_other ok same]
    exact ⟨l, there, keeps⟩

/-- After a commit that leaves the listing confirmed, it was confirmed before or is by this
transaction. -/
theorem commit_confirmed {l : ListingRow} (ok : SessionOk site s t)
    (commits : Commits s t loaded)
    (there : (t.commit site s.db loaded).listing t.cid = some l) (confirmed : l.status = .confirmed) :
    (∃ now, s.db.listing t.cid = some now ∧ now.status = .confirmed ∧
      ∀ seen, t.listing = some seen → (t.setListing seen).status = seen.status) ∨
    t.verdict = .reviewed none ∧
      (t.setMarket site loaded).resolutionCriteria = t.criteria site := by
  rw [commit_listing_self ok commits] at there
  split at there
  · next found =>
    exact .inl ⟨l, there, confirmed, fun seen loaded => by rw [found] at loaded; cases loaded⟩
  · next seen found =>
    split at there
    · next inserted =>
      cases there
      have ⟨_, _, indexed⟩ := ok.listing seen found
      exact .inr (Session.setListing_confirms confirmed (by simp [indexed inserted]))
    · rw [Option.map_eq_some_iff] at there
      rcases there with ⟨now, there, rfl⟩
      rcases column_cases seen.status (t.setListing seen).status now.status with
        ⟨kept, column⟩ | ⟨changes, column⟩
      · refine .inl ⟨now, there, column.symm.trans confirmed, fun other also => ?_⟩
        cases found.symm.trans also
        exact kept
      · have confirms := column.symm.trans confirmed
        exact .inr (Session.setListing_confirms confirms fun already =>
          changes (confirms.trans already.symm))

/-- A careful commit keeps the invariant. -/
theorem commit_ok {i now : Nat} {read : Bool} {pending : List Text} (inv : Sessions site s)
    (found : s.sessions[i]? = some t) (last : t.pc = .commit) (commits : Commits s t loaded)
    (careful : Careful site s (.ran i now read pending)) :
    Sessions site { s with
      db := t.commit site s.db loaded
      sessions := s.sessions.eraseIdx i } := by
  have ok := inv.sessions t (List.mem_of_getElem? found)
  have careful := careful t loaded found last commits.market
  rcases commit_market_self inv ok commits with ⟨m, there, mRow, setMatches, spared⟩
  refine ⟨?_, inv.drafts, ?_, ?_, ?_⟩
  · intro k row found
    by_cases same : k = t.cid
    · subst same
      cases there.symm.trans found
      exact ⟨_, ok.onchain, mRow⟩
    · rw [commit_market_other ok commits same] at found
      exact inv.rows k row found
  · intro p mem
    rcases inv.kept p mem with ⟨l, there, keeps⟩
    exact commit_keeps ok commits mem there keeps
  · intro k l found confirmed
    by_cases same : k = t.cid
    · subst same
      rcases commit_confirmed ok commits found confirmed with
        ⟨before, listed, already, silent⟩ | ⟨passed, written⟩
      · rcases inv.isPublic _ before listed already with ⟨c, now, onchain, present, matching, sound⟩
        cases ok.onchain.symm.trans onchain
        refine ⟨_, m, ok.onchain, there, spared (fun overwrites => ?_) now present matching, sound⟩
        rcases (careful overwrites).1 before listed already with ⟨seen, loaded, changes⟩
        exact changes (silent seen loaded)
      · have ⟨sound, matching⟩ := ok.passed passed
        exact ⟨_, m, ok.onchain, there, setMatches (written ▸ matching), sound⟩
    · rw [commit_listing_other ok same] at found
      rw [commit_market_other ok commits same]
      exact inv.isPublic k l found confirmed
  · intro u mem
    rcases List.mem_eraseIdx_iff_getElem?.mp mem with ⟨j, other, position⟩
    have running := inv.sessions u (List.mem_of_getElem? position)
    refine running.mono (fun _ _ => id) (fun p mem => .inl mem) ?_
    intro row present found existing before
    by_cases same : u.cid = t.cid
    · have chain := running.onchain
      rw [same] at before chain ⊢
      have agree : t.task.onchain = u.task.onchain :=
        Option.some.inj (ok.onchain.symm.trans chain)
      rw [← agree]
      refine ⟨m, there, fun matching present => ?_⟩
      by_cases overwrites : Overwrites site t loaded
      · exact absurd matching
          ((careful overwrites).2 j u row other position same existing found)
      · exact spared overwrites _ before present
    · rw [commit_market_other ok commits same]
      exact ⟨present, before, fun _ => id⟩

/-! ### Other steps -/

/-- A change that leaves the database and what was prepared alone. -/
theorem Sessions.reframe (inv : Sessions site s) (db : s'.db = s.db)
    (prepared : s'.prepared = s.prepared)
    (chain : ∀ cid c, s.onchain cid = some c → s'.onchain cid = some c)
    (drafts : ∀ d ∈ s'.drafts, d.salt.isSome = true ∧ d.status = .prepared)
    (sessions : ∀ t ∈ s'.sessions, t ∈ s.sessions ∨ SessionOk site s t) :
    Sessions site s' := by
  refine ⟨?_, drafts, ?_, ?_, ?_⟩
  · intro cid m there
    rw [db] at there
    rcases inv.rows cid m there with ⟨c, onchain, row⟩
    exact ⟨c, chain _ _ onchain, row⟩
  · rw [prepared, db]
    exact inv.kept
  · rw [prepared, db]
    intro cid l there confirmed
    rcases inv.isPublic cid l there confirmed with ⟨c, m, onchain, present, known⟩
    exact ⟨c, m, chain _ _ onchain, present, known⟩
  · intro t mem
    have ok : SessionOk site s t := by
      rcases sessions t mem with mem | ok
      · exact inv.sessions t mem
      · exact ok
    refine ok.mono chain (fun p mem => .inl (prepared ▸ mem)) fun _ now _ _ there => ?_
    rw [db]
    exact ⟨now, there, fun _ => id⟩

theorem Sessions.listed {market : ChainMarket} (inv : Sessions site s) :
    Sessions site { s with chain := s.chain ++ [market] } := by
  refine inv.reframe rfl rfl ?_ inv.drafts fun t => .inl
  intro cid c onchain
  change Keyed.get _ (s.chain ++ [market]) cid = some c
  rw [Keyed.get_append]
  change (s.onchain cid).or _ = some c
  rw [onchain, Option.some_or]

/-- A listing that is prepared is of a market that is not there yet. -/
theorem Sessions.prepare {row : ListingRow} {drafts : List ListingRow} (inv : Sessions site s)
    (mem : row ∈ s.drafts) (rest : ∀ d ∈ drafts, d ∈ s.drafts)
    (unlisted : s.onchain row.conditionId = none)
    (absent : s.db.listing row.conditionId = none) :
    Sessions site { s with
      db := { s.db with listings := s.db.listings ++ [row] }
      drafts := drafts
      prepared := s.prepared ++ [row] } := by
  have ⟨salted, status⟩ := inv.drafts row mem
  have listing : ∀ cid, Database.listing { s.db with listings := s.db.listings ++ [row] } cid =
      (s.db.listing cid).or (if row.conditionId = cid then some row else none) := by
    intro cid
    rw [Database.listing, Keyed.get_append, Keyed.get_singleton]
    rfl
  refine ⟨inv.rows, fun d mem => inv.drafts d (rest d mem), ?_, ?_, ?_⟩
  · intro p mem
    rw [listing]
    rcases List.mem_append.mp mem with mem | mem
    · rcases inv.kept p mem with ⟨l, there, keeps⟩
      exact ⟨l, by rw [there, Option.some_or], keeps⟩
    · cases List.mem_singleton.mp mem
      exact ⟨row, by rw [absent, Option.none_or, if_pos rfl], salted, rfl, rfl, rfl⟩
  · intro cid l there confirmed
    rw [listing] at there
    rcases Option.or_eq_some_iff.mp there with there | ⟨-, fresh⟩
    · rcases inv.isPublic cid l there confirmed with ⟨c, m, onchain, present, matching, sound⟩
      refine ⟨c, m, onchain, present, matching, sound.question, fun p mem same => ?_⟩
      rcases List.mem_append.mp mem with mem | mem
      · exact sound.prepared p mem same
      · cases List.mem_singleton.mp mem
        rw [same, Keyed.get_key onchain, onchain] at unlisted
        cases unlisted
    · rw [Option.ite_none_right_eq_some] at fresh
      cases fresh.2
      rw [status] at confirmed
      cases confirmed
  · intro t mem
    refine (inv.sessions t mem).mono (fun _ _ => id) (fun p mem => ?_)
      fun _ now _ _ there => ⟨now, there, fun _ => id⟩
    rcases List.mem_append.mp mem with mem | mem
    · exact .inl mem
    · cases List.mem_singleton.mp mem
      exact .inr unlisted

theorem MarketRow.flag_conditionId {paused resolved : Bool} (row : MarketRow) :
    (row.flag paused resolved).conditionId = row.conditionId := rfl

theorem flag_market {db : Database} {paused resolved : Bool} {k : Bytes32} :
    (db.flag cid paused resolved).market k = (db.market k).map fun row =>
      if k = cid then row.flag paused resolved else row :=
  Keyed.get_modify MarketRow.flag_conditionId

theorem flag_row {paused resolved : Bool} {k : Bytes32} {row : MarketRow} :
    (if k = cid then row.flag paused resolved else row).resolutionCriteria =
        row.resolutionCriteria ∧
      (RowOf c row → RowOf c (if k = cid then row.flag paused resolved else row)) := by
  split
  · exact ⟨rfl, fun of => ⟨of.question, of.closeTime, of.marketType⟩⟩
  · exact ⟨rfl, id⟩

/-- Changing the flags of a row changes nothing a review looks at. -/
theorem Sessions.flagged {paused resolved : Bool} (inv : Sessions site s) :
    Sessions site { s with db := s.db.flag cid paused resolved } := by
  refine ⟨?_, inv.drafts, inv.kept, ?_, ?_⟩
  · intro k m found
    rw [flag_market, Option.map_eq_some_iff] at found
    rcases found with ⟨row, there, rfl⟩
    rcases inv.rows k row there with ⟨c, onchain, rowOf⟩
    exact ⟨c, onchain, flag_row.2 rowOf⟩
  · intro k l there confirmed
    rcases inv.isPublic k l there confirmed with ⟨c, m, onchain, present, matching, sound⟩
    refine ⟨c, _, onchain, by rw [flag_market, present, Option.map_some], ?_, sound⟩
    rw [(flag_row (c := c)).1]
    exact matching
  · intro t mem
    refine (inv.sessions t mem).mono (fun _ _ => id) (fun p => .inl) fun _ now _ _ there => ?_
    refine ⟨_, by rw [flag_market, there, Option.map_some], fun _ matching => ?_⟩
    rw [(flag_row (c := t.task.onchain)).1]
    exact matching

/-- A careful step keeps the invariant. -/
theorem listings_step {event : Event} (inv : Sessions site s) (careful : Careful site s event)
    (taken : step site s event = some s') : Sessions site s' := by
  cases event with
  | listed market =>
      simp only [step, Option.ite_none_left_eq_some, Option.some.injEq] at taken
      rcases taken with ⟨-, rfl⟩
      exact inv.listed
  | drafted account salt question criteria closeTime seedUsdc bounds now =>
      simp only [step] at taken
      split at taken
      · cases taken
      · rw [Option.ite_none_left_eq_some] at taken
        rcases taken with ⟨-, taken⟩
        cases taken
        refine inv.reframe rfl rfl (fun _ _ => id) (fun d mem => ?_) fun t => .inl
        rcases List.mem_append.mp mem with mem | mem
        · exact inv.drafts d mem
        · cases List.mem_singleton.mp mem
          exact ⟨rfl, rfl⟩
  | prepared i =>
      simp only [step] at taken
      split at taken
      · next row found =>
        rw [Option.ite_none_left_eq_some, not_or] at taken
        rcases taken with ⟨⟨unlisted, absent⟩, taken⟩
        cases taken
        exact inv.prepare (List.mem_of_getElem? found) (fun d => List.mem_of_mem_eraseIdx)
          (Option.not_isSome_iff_eq_none.mp unlisted) (Option.not_isSome_iff_eq_none.mp absent)
      · cases taken
  | confirming user cid criteria =>
      simp only [step] at taken
      split at taken
      · next onchain known =>
        rw [Option.ite_none_left_eq_some, not_or, not_not] at taken
        rcases taken with ⟨⟨isUser, -⟩, taken⟩
        split at taken
        · next chosen found =>
          cases taken
          have same := Keyed.get_key known
          refine inv.reframe rfl rfl (fun _ _ => id) inv.drafts fun t mem => ?_
          rcases List.mem_append.mp mem with mem | mem
          · exact .inl mem
          · cases List.mem_singleton.mp mem
            refine .inr (.start (same ▸ known) ?_)
            rintro _ _ _ ⟨⟩
            refine ⟨isUser, fun _ => chooseCriteria_matches found, fun p mem also => ?_⟩
            rcases inv.kept p mem with ⟨l, there, keeps⟩
            have also : p.conditionId = cid := also.trans same
            exact ⟨l, also ▸ there, keeps⟩
        · cases taken
      · cases taken
  | indexing cid =>
      simp only [step] at taken
      split at taken
      · next onchain known =>
        cases taken
        refine inv.reframe rfl rfl (fun _ _ => id) inv.drafts fun t mem => ?_
        rcases List.mem_append.mp mem with mem | mem
        · exact .inl mem
        · cases List.mem_singleton.mp mem
          exact .inr (.start (Keyed.get_key known ▸ known) (by rintro _ _ _ ⟨⟩))
      · cases taken
  | mirroring cid criteria =>
      simp only [step] at taken
      split at taken
      · next onchain known =>
        cases taken
        refine inv.reframe rfl rfl (fun _ _ => id) inv.drafts fun t mem => ?_
        rcases List.mem_append.mp mem with mem | mem
        · exact .inl mem
        · cases List.mem_singleton.mp mem
          exact .inr (.start (Keyed.get_key known ▸ known) (by rintro _ _ _ ⟨⟩))
      · cases taken
  | ran i now read pending =>
      simp only [step] at taken
      split at taken
      · next t found =>
        split at taken
        · next loaded last market =>
          rw [Option.ite_none_left_eq_some, not_or] at taken
          rcases taken with ⟨⟨freshMarket, freshListing⟩, taken⟩
          cases taken
          refine commit_ok inv found last ⟨market, fun inserted => ?_, fun inserted => ?_⟩ careful
          · rw [not_and, Option.not_isSome_iff_eq_none] at freshMarket
            exact freshMarket inserted
          · rw [not_and, Option.not_isSome_iff_eq_none] at freshListing
            exact freshListing inserted
        · rw [Option.map_eq_some_iff] at taken
          rcases taken with ⟨t', moved, rfl⟩
          refine inv.reframe rfl rfl (fun _ _ => id) inv.drafts fun u mem => ?_
          rcases List.mem_or_eq_of_mem_set mem with mem | rfl
          · exact .inl mem
          · exact .inr (advance_ok inv (inv.sessions t (List.mem_of_getElem? found)) moved)
      · cases taken
  | died i =>
      cases taken
      exact inv.reframe rfl rfl (fun _ _ => id) inv.drafts
        fun t mem => .inl (List.mem_of_mem_eraseIdx mem)
  | flagged cid paused resolved =>
      cases taken
      exact inv.flagged

/-! ### Runs -/

/-- A market row says what the chain says, with the committed text, and the chain's question
passes its check and is what was prepared, as are the close time and the seed. -/
def Reviewed (site : Site) (s : State) (m : MarketRow) : Prop :=
  ∃ c, s.onchain m.conditionId = some c ∧ m.question = c.question ∧ m.closeTime = c.closeTime ∧
    criteriaHash site m.resolutionCriteria = c.criteriaHash ∧ Sound site s.prepared c

/-- The user-listed markets whose listing is confirmed are reviewed. -/
def AllReviewed (site : Site) (s : State) : Prop :=
  ∀ cid m l, s.db.market cid = some m → m.marketType = marketTypeUser →
    s.db.listing cid = some l → l.status = .confirmed → Reviewed site s m

theorem Sessions.allReviewed (inv : Sessions site s) : AllReviewed site s := by
  intro cid m l there isUser listed confirmed
  rcases inv.isPublic cid l listed confirmed with ⟨c, now, onchain, present, matching, sound⟩
  cases there.symm.trans present
  rcases inv.rows cid m there with ⟨d, known, row⟩
  cases onchain.symm.trans known
  refine ⟨c, ?_, row.question, row.closeTime, matching (row.marketType ▸ isUser), sound⟩
  rw [Keyed.get_key there]
  exact onchain

theorem Sessions.initially (initial : Initial s) : Sessions site s where
  rows := by
    intro cid m there
    rw [Database.market, initial.markets] at there
    cases there
  drafts := by
    intro d mem
    rw [initial.drafts] at mem
    cases mem
  kept := by
    intro p mem
    rw [initial.prepared] at mem
    cases mem
  isPublic := by
    intro cid l there
    rw [Database.listing, initial.listings] at there
    cases there
  sessions := by
    intro t mem
    rw [initial.sessions] at mem
    cases mem

/-- In a run of careful steps only reviewed listings are public. -/
theorem public_listings_reviewed (site : Site) {start s : State} {events : List Event}
    (initial : Initial start)
    (path : Run (fun s event s' => Careful site s event ∧ step site s event = some s')
      start events s) : AllReviewed site s :=
  (path.invariant (Sessions.initially initial) fun _ _ _ inv taken =>
    listings_step inv taken.1 taken.2).allReviewed

/-! ### A text written over -/

/-- ASCII texts, hashed without collisions up to thirty characters. -/
def Site.sample : Site where
  unicode := ⟨Char.isWhitespace, fun c => c.isAlphanum || c = '_', List.map Char.toLower⟩
  keccak := fun text => BitVec.ofNat 256 (text.foldl (fun n c => n * 257 + c.toNat + 1) 0)
  userQuestionId := fun account salt => salt + account.setWidth 256
  conditionIdFor := id

def ChainMarket.sample : ChainMarket where
  conditionId := 16
  question := "Will it rain in Paris?".toList
  closeTime := 2000000000
  marketType := marketTypeUser
  creator := 9
  criteriaHash := Listings.criteriaHash .sample "Meteo records decide.".toList
  seedUsdc := 10000000

def State.sample : State := ⟨[], ⟨[], []⟩, [], [], []⟩

theorem State.sample_initial : Initial .sample :=
  ⟨rfl, rfl, rfl, rfl, rfl⟩

/-- A transaction alone makes some statements. -/
def Event.alone (statements : Nat) : List Event :=
  List.replicate statements (.ran 0 1900000000 true [])

/-- A listing is created and confirmed; then the operator posts its question id with another
text. -/
def Event.reposted : List Event :=
  [.listed .sample, .confirming 9 16 "Meteo records decide.".toList] ++ Event.alone 6 ++
    [.mirroring 16 "Ask the operator.".toList] ++ Event.alone 3

/-- Whether the public listing of market 16 has other criteria than its hash says. -/
def State.unhashed (s : State) : Bool :=
  match s.db.market 16, s.db.listing 16, s.onchain 16 with
  | some m, some l, some c => decide (m.marketType = marketTypeUser ∧
      l.status = .confirmed ∧ m.conditionId = 16 ∧
        criteriaHash .sample m.resolutionCriteria ≠ c.criteriaHash)
  | _, _, _ => false

theorem State.not_reviewed_of_unhashed {s : State} (found : s.unhashed = true) :
    ¬ AllReviewed .sample s := by
  intro all
  unfold State.unhashed at found
  split at found
  · next m l c there listed onchain =>
    rcases of_decide_eq_true found with ⟨isUser, confirmed, same, differs⟩
    rcases all 16 m l there isUser listed confirmed with ⟨d, known, -, -, hashed, -⟩
    rw [same] at known
    cases onchain.symm.trans known
    exact differs hashed
  · cases found

/-- The confirmed listing has the operator's text. -/
theorem mirror_overwrites : ∃ s : State,
    Run (fun s event s' => step .sample s event = some s') .sample Event.reposted s ∧
      ¬ AllReviewed .sample s := by
  have ends : (Event.reposted.foldlM (step .sample) State.sample).map State.unhashed =
      some true := by decide +kernel
  rw [Option.map_eq_some_iff] at ends
  rcases ends with ⟨s, ran, found⟩
  exact ⟨s, Run.of_foldlM (fun _ _ _ taken => taken) ran, State.not_reviewed_of_unhashed found⟩

/-- A listing is prepared and created. The operator posts its question id twice, with two texts;
then it is indexed, which writes the reviewed text over the second, and posted once more without a
text. -/
def Event.indexed : List Event :=
  [.drafted 9 7 "Will it rain in Paris? ".toList "Meteo records decide.".toList
      2000000000 10000000 ⟨1000000, 3600, 200000000⟩ 1900000000,
    .prepared 0, .listed .sample, .mirroring 16 "Ask the operator.".toList] ++ Event.alone 3 ++
    [.mirroring 16 "Ask again.".toList] ++ Event.alone 3 ++ [.indexing 16] ++ Event.alone 6 ++
    [.mirroring 16 []] ++ Event.alone 3

/-- A commit over a row that was there keeps its text, or is of a transaction alone whose listing
is not confirmed. -/
def Event.tame (site : Site) (s : State) : Event → Bool
  | .ran i _ _ _ => (s.sessions[i]?).all fun t =>
      t.newMarket.isSome || decide (t.pc ≠ .commit) ||
        (t.market.all fun loaded =>
          decide ((t.setMarket site loaded).resolutionCriteria = loaded.resolutionCriteria)) ||
        decide (s.sessions.length = 1) &&
          (s.db.listing t.cid).all fun l => decide (l.status ≠ .confirmed)
  | _ => true

theorem Event.tame_careful {event : Event} (tame : event.tame site s = true) :
    Careful site s event := by
  cases event with
  | ran i now read pending =>
      intro t loaded found last load overwrites
      simp only [Event.tame, found, Option.all_some, overwrites.existing, Option.isSome_none, last,
        ne_eq, not_true_eq_false, decide_false, Bool.or_false, Bool.false_or, load,
        overwrites.changes, Bool.and_eq_true, decide_eq_true_eq] at tame
      rcases tame with ⟨alone, unconfirmed⟩
      constructor
      · intro l there confirmed
        rw [there, Option.all_some] at unconfirmed
        exact absurd confirmed (of_decide_eq_true unconfirmed)
      · intro j u m other beside
        have first := (List.getElem?_eq_some_iff.mp found).1
        have second := (List.getElem?_eq_some_iff.mp beside).1
        omega
  | _ => trivial

theorem public_listings_reviewed_sample : ∃ s : State,
    (s.db.listing 16).map ListingRow.status = some .confirmed ∧
      (s.db.market 16).map MarketRow.resolutionCriteria = some "Meteo records decide.".toList ∧
      AllReviewed .sample s := by
  have ends : (Event.indexed.foldlM (fun (s : State) (event : Event) =>
      if event.tame .sample s then step .sample s event else none) State.sample).map
        (fun s => ((s.db.listing 16).map ListingRow.status,
          (s.db.market 16).map MarketRow.resolutionCriteria)) =
        some (some .confirmed, some "Meteo records decide.".toList) := by
    decide +kernel
  rw [Option.map_eq_some_iff] at ends
  rcases ends with ⟨s, ran, reached⟩
  have path : Run (fun s event s' => Careful .sample s event ∧ step .sample s event = some s')
      State.sample Event.indexed s :=
    .of_tested (fun _ _ => Event.tame_careful) ran
  exact ⟨s, congrArg Prod.fst reached, congrArg Prod.snd reached,
    public_listings_reviewed .sample State.sample_initial path⟩

end OverUnder.Backend.Listings
