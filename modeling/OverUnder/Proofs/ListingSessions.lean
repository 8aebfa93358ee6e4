/-
Module: OverUnder.Proofs.ListingSessions
Purpose: What holds of the database and of each transaction on user listings in flight, and
  that the statements before a commit keep it.
Trusted boundary: none
Main exports: Matches, Keeps, Sound, RowOf, reviewUserListing_sound, SessionOk, Sessions,
  Overwrites, Careful, SessionOk.mono, advance_ok
-/
import OverUnder.Backend.Listings

namespace OverUnder.Backend.Listings

open OverUnder.Vyper (Address Bytes32)
open OverUnder.Library ListingGates

variable {site : Site} {s s' : State} {t : Session} {c : ChainMarket} {cid : Bytes32}

/-! ### What the review is about -/

/-- A criteria text is the one a user's market committed to. -/
def Matches (site : Site) (c : ChainMarket) (text : Text) : Prop :=
  c.marketType = marketTypeUser → criteriaHash site text = c.criteriaHash

/-- A listing still has what was prepared. -/
structure Keeps (p l : ListingRow) : Prop where
  salted : l.salt.isSome = true
  question : l.question = p.question
  closeTime : l.closeTime = p.closeTime
  seedUsdc : l.seedUsdc = p.seedUsdc

/-- The chain's question passes its check, and what was prepared is what is on the chain. -/
structure Sound (site : Site) (prepared : List ListingRow) (c : ChainMarket) : Prop where
  question : checkQuestion site.unicode c.question = .ok ()
  prepared : ∀ p ∈ prepared, p.conditionId = c.conditionId →
    c.question = p.question ∧ c.closeTime = p.closeTime ∧ c.seedUsdc = p.seedUsdc

/-- A row has what the chain says of its market. -/
structure RowOf (c : ChainMarket) (m : MarketRow) : Prop where
  question : m.question = c.question
  closeTime : m.closeTime = c.closeTime
  marketType : m.marketType = c.marketType

theorem checkListedQuestion_ok {u : Unicode} {question : Text} {asked : List Text}
    (done : checkListedQuestion u question asked = .ok ()) : checkQuestion u question = .ok () := by
  unfold checkListedQuestion at done
  split at done
  · cases done
  · cases checked : checkQuestion u question with
    | ok _ => rfl
    | error gate =>
        rw [checked] at done
        cases done

theorem preparedMismatch_none {prepared onchain : Text × Nat × Nat}
    (same : preparedMismatch prepared onchain = none) : onchain = prepared := by
  unfold preparedMismatch at same
  split at same
  · cases same
  next question =>
  split at same
  · cases same
  next closeTime =>
  split at same
  · cases same
  next seed =>
  exact Prod.ext (not_not.mp question) (Prod.ext (not_not.mp closeTime) (not_not.mp seed))

/-- What a passed review has established. -/
theorem reviewUserListing_sound {prepared : List ListingRow} {seen : Option ListingRow}
    {criteria : Text} {asked : List Text}
    (kept : ∀ p ∈ prepared, p.conditionId = c.conditionId → ∃ l, seen = some l ∧ Keeps p l)
    (passed : reviewUserListing site seen c criteria asked = none) : Sound site prepared c := by
  unfold reviewUserListing at passed
  simp only at passed
  split at passed
  · cases passed
  next agrees =>
  split at passed
  · cases passed
  split at passed
  · cases passed
  next checked =>
  refine ⟨checkListedQuestion_ok checked, fun p mem same => ?_⟩
  rcases kept p mem same with ⟨l, rfl, keeps⟩
  have fromPrepare : isBackendPrepared (some l) = true := by
    simp only [isBackendPrepared, Option.any_some, keeps.salted, Bool.true_or]
  simp only [fromPrepare, if_true] at agrees
  have agrees := preparedMismatch_none agrees
  rw [keeps.question, keeps.closeTime, keeps.seedUsdc] at agrees
  simp only [Prod.mk.injEq] at agrees
  exact agrees

theorem chooseCriteria_matches {seen : Option ListingRow} {body chosen : Text} {hash : Bytes32}
    (found : chooseCriteria site seen body hash = some chosen) :
    criteriaHash site chosen = hash := by
  simpa using List.find?_some found

/-! ### The invariant -/

/-- What holds of a transaction in flight. -/
structure SessionOk (site : Site) (s : State) (t : Session) : Prop where
  onchain : s.onchain t.cid = some t.task.onchain
  confirms : ∀ onchain seen criteria, t.task = .confirm onchain seen criteria →
    onchain.marketType = marketTypeUser ∧ Matches site onchain criteria ∧
      ∀ p ∈ s.prepared, p.conditionId = t.cid → ∃ l, seen = some l ∧ Keeps p l
  newMarket : ∀ m, t.newMarket = some m → m.conditionId = t.cid ∧ RowOf t.task.onchain m
  market : ∀ m, t.market = some m → m.conditionId = t.cid ∧ RowOf t.task.onchain m
  /-- If the row had the committed text when it was loaded, it has it now. -/
  current : ∀ m, t.market = some m → t.newMarket = none → ∃ now, s.db.market t.cid = some now ∧
    (Matches site t.task.onchain m.resolutionCriteria →
      Matches site t.task.onchain now.resolutionCriteria)
  newListing : ∀ l, t.newListing = some l → l.conditionId = t.cid ∧ l.status = .indexed ∧
    ∀ p ∈ s.prepared, p.conditionId ≠ t.cid
  listing : ∀ l, t.listing = some l → l.conditionId = t.cid ∧
    (∀ p ∈ s.prepared, p.conditionId = t.cid → Keeps p l) ∧
    (t.newListing.isSome = true → l.status = .indexed)
  passed : t.verdict = .reviewed none →
    Sound site s.prepared t.task.onchain ∧ Matches site t.task.onchain (t.criteria site)
  /-- The review of the indexer is its last statement before the commit. -/
  reviewed : ∀ onchain, t.task = .index onchain → t.verdict ≠ .unread → t.pc = .commit
  /-- The listing is the last row loaded. -/
  loadedLast : t.listing ≠ none → t.pc = .commit ∨ t.pc = .review ∧ ∃ c, t.task = .index c

/-- The database and the transactions in flight. -/
structure Sessions (site : Site) (s : State) : Prop where
  rows : ∀ cid m, s.db.market cid = some m → ∃ c, s.onchain cid = some c ∧ RowOf c m
  drafts : ∀ d ∈ s.drafts, d.salt.isSome = true ∧ d.status = .prepared
  kept : ∀ p ∈ s.prepared, ∃ l, s.db.listing p.conditionId = some l ∧ Keeps p l
  isPublic : ∀ cid l, s.db.listing cid = some l → l.status = .confirmed →
    ∃ c m, s.onchain cid = some c ∧ s.db.market cid = some m ∧
      Matches site c m.resolutionCriteria ∧ Sound site s.prepared c
  sessions : ∀ t ∈ s.sessions, SessionOk site s t

/-- A commit writes a text that is not the committed one over another. -/
structure Overwrites (site : Site) (t : Session) (loaded : MarketRow) : Prop where
  existing : t.newMarket = none
  changes : (t.setMarket site loaded).resolutionCriteria ≠ loaded.resolutionCriteria
  differs : ¬ Matches site t.task.onchain (t.setMarket site loaded).resolutionCriteria

/-- A commit that writes over the text of a user's market finds the listing unconfirmed, or
rejects it, and finds no other transaction that loaded the committed text. -/
def Careful (site : Site) (s : State) : Event → Prop
  | .ran i _ _ _ => ∀ t loaded, s.sessions[i]? = some t → t.pc = .commit →
      t.market = some loaded → Overwrites site t loaded →
        (∀ l, s.db.listing t.cid = some l → l.status = .confirmed →
          ∃ seen, t.listing = some seen ∧ (t.setListing seen).status ≠ seen.status) ∧
        ∀ j u m, j ≠ i → s.sessions[j]? = some u → u.cid = t.cid → u.newMarket = none →
          u.market = some m → ¬ Matches site t.task.onchain m.resolutionCriteria
  | _ => True

/-- What the transactions in flight rely on carries over to another state. -/
theorem SessionOk.mono (ok : SessionOk site s t)
    (chain : ∀ cid c, s.onchain cid = some c → s'.onchain cid = some c)
    (prepared : ∀ p ∈ s'.prepared, p ∈ s.prepared ∨ s.onchain p.conditionId = none)
    (current : ∀ m now, t.market = some m → t.newMarket = none → s.db.market t.cid = some now →
      ∃ later, s'.db.market t.cid = some later ∧
        (Matches site t.task.onchain m.resolutionCriteria →
          Matches site t.task.onchain now.resolutionCriteria →
            Matches site t.task.onchain later.resolutionCriteria)) :
    SessionOk site s' t := by
  have old : ∀ p ∈ s'.prepared, p.conditionId = t.cid → p ∈ s.prepared := by
    intro p mem same
    rcases prepared p mem with mem | absent
    · exact mem
    · rw [same, ok.onchain] at absent
      cases absent
  refine ⟨chain _ _ ok.onchain, ?_, ok.newMarket, ok.market, ?_, ?_, ?_, ?_, ok.reviewed,
    ok.loadedLast⟩
  · intro onchain seen criteria confirm
    have ⟨user, matching, seen⟩ := ok.confirms onchain seen criteria confirm
    exact ⟨user, matching, fun p mem same => seen p (old p mem same) same⟩
  · intro m loaded existing
    rcases ok.current m loaded existing with ⟨now, there, since⟩
    rcases current m now loaded existing there with ⟨later, there, still⟩
    exact ⟨later, there, fun matching => still matching (since matching)⟩
  · intro l inserted
    have ⟨same, indexed, unprepared⟩ := ok.newListing l inserted
    exact ⟨same, indexed, fun p mem same => unprepared p (old p mem same) same⟩
  · intro l loaded
    have ⟨same, keeps, indexed⟩ := ok.listing l loaded
    exact ⟨same, fun p mem same => keeps p (old p mem same) same, indexed⟩
  · intro reviewed
    have ⟨sound, matching⟩ := ok.passed reviewed
    exact ⟨⟨sound.question, fun p mem same => sound.prepared p (old p mem same) same⟩, matching⟩

/-! ### Statements before the commit -/

/-- A transaction that has made no statement. -/
theorem SessionOk.start {task : Task}
    (onchain : s.onchain task.onchain.conditionId = some task.onchain)
    (confirms : ∀ onchain seen criteria, task = .confirm onchain seen criteria →
      onchain.marketType = marketTypeUser ∧ Matches site onchain criteria ∧
        ∀ p ∈ s.prepared, p.conditionId = task.onchain.conditionId → ∃ l, seen = some l ∧ Keeps p l) :
    SessionOk site s task.start where
  onchain := onchain
  confirms := confirms
  newMarket := by intro m inserted; cases inserted
  market := by intro m loaded; cases loaded
  current := by intro m loaded; cases loaded
  newListing := by intro l inserted; cases inserted
  listing := by intro l loaded; cases loaded
  passed := by intro reviewed; cases reviewed
  reviewed := by intro onchain task looked; exact absurd rfl looked
  loadedLast := by intro loaded; exact absurd rfl loaded

theorem Task.marketRow_of {task : Task} : RowOf task.onchain task.marketRow :=
  ⟨rfl, rfl, rfl⟩

/-- What a passed review of a transaction has established. -/
theorem SessionOk.review_sound {now : Nat} {read : Bool} {pending : List Text}
    (ok : SessionOk site s t) (passed : t.review site s.db now read pending = .reviewed none) :
    Sound site s.prepared t.task.onchain ∧ Matches site t.task.onchain (t.criteria site) := by
  have same : t.cid = t.task.onchain.conditionId := rfl
  unfold Session.review at passed
  simp only at passed
  split at passed
  · next onchain seen criteria confirm =>
    rw [Verdict.reviewed.injEq] at passed
    have ⟨_, matching, seen⟩ := ok.confirms onchain seen criteria confirm
    rw [same, confirm] at seen
    rw [Session.criteria, confirm]
    exact ⟨reviewUserListing_sound seen passed, matching⟩
  · next onchain listing index loaded =>
    split at passed
    · cases passed
    split at passed
    · next hashed =>
      rw [Verdict.reviewed.injEq] at passed
      have ⟨_, keeps, _⟩ := ok.listing listing loaded
      rw [same, index] at keeps
      rw [Session.criteria, index, loaded]
      refine ⟨reviewUserListing_sound (fun p mem same => ⟨listing, rfl, keeps p mem same⟩) passed,
        fun _ => ?_⟩
      rw [criteriaHash, strip_strip]
      exact hashed.2
    · cases passed
  · cases passed

/-- A statement before the commit keeps what holds of the transaction. -/
theorem advance_ok {now : Nat} {read : Bool} {pending : List Text} {t' : Session}
    (inv : Sessions site s) (ok : SessionOk site s t)
    (moved : t.advance site s now read pending = some t') : SessionOk site s t' := by
  unfold Session.advance at moved
  simp only at moved
  -- Before its review the indexer has no verdict; before the last load there is no listing.
  have unread : ∀ onchain, t.task = .index onchain → t.pc ≠ .commit → t.verdict = .unread := by
    intro onchain index early
    by_contra looked
    exact early (ok.reviewed onchain index looked)
  have unloaded : t.pc ≠ .commit → t.pc ≠ .review → t.listing = none := by
    intro early before
    by_contra loaded
    rcases ok.loadedLast loaded with late | ⟨late, -⟩
    · exact early late
    · exact before late
  split at moved
  · next pc =>
    have unread := fun onchain index => unread onchain index (by simp [pc])
    have unloaded := unloaded (by simp [pc]) (by simp [pc])
    split at moved
    · cases moved
    split at moved
    · cases moved
      exact ⟨ok.onchain, ok.confirms, ok.newMarket, ok.market, ok.current, ok.newListing,
        ok.listing, ok.passed, fun onchain index looked => absurd (unread onchain index) looked,
        fun loaded => absurd unloaded loaded⟩
    · cases moved
      refine ⟨ok.onchain, ok.confirms, ?_, ok.market, ?_, ok.newListing, ok.listing, ok.passed,
        fun onchain index looked => absurd (unread onchain index) looked,
        fun loaded => absurd unloaded loaded⟩
      · intro m inserted
        cases inserted
        exact ⟨rfl, Task.marketRow_of⟩
      · intro m loaded existing
        cases existing
  · next pc =>
    have unread := fun onchain index => unread onchain index (by simp [pc])
    have unloaded := unloaded (by simp [pc]) (by simp [pc])
    split at moved
    · cases moved
    split at moved
    · cases moved
      exact ⟨ok.onchain, ok.confirms, ok.newMarket, ok.market, ok.current, ok.newListing,
        ok.listing, ok.passed, fun onchain index looked => absurd (unread onchain index) looked,
        fun loaded => absurd unloaded loaded⟩
    · next absent =>
      cases moved
      refine ⟨ok.onchain, ok.confirms, ok.newMarket, ok.market, ok.current, ?_, ?_, ok.passed,
        fun onchain index looked => absurd (unread onchain index) looked,
        fun loaded => absurd unloaded loaded⟩
      · intro l inserted
        cases inserted
        refine ⟨rfl, rfl, fun p mem same => ?_⟩
        rcases inv.kept p mem with ⟨l, there, -⟩
        change p.conditionId = t.cid at same
        rw [same] at there
        exact absent (by rw [there]; rfl)
      · intro l loaded
        exact absurd (unloaded.symm.trans loaded) (by simp)
  · next pc =>
    have unread := fun onchain index => unread onchain index (by simp [pc])
    have unloaded := unloaded (by simp [pc]) (by simp [pc])
    cases moved
    refine ⟨ok.onchain, ok.confirms, ok.newMarket, ?_, ?_, ok.newListing, ok.listing, ok.passed,
      fun onchain index looked => absurd (unread onchain index) looked,
      fun loaded => absurd unloaded loaded⟩
    · intro m loaded
      rcases Option.or_eq_some_iff.mp loaded with inserted | ⟨-, there⟩
      · exact ok.newMarket m inserted
      · rcases inv.rows _ m there with ⟨c, onchain, row⟩
        cases ok.onchain.symm.trans onchain
        exact ⟨Keyed.get_key there, row⟩
    · intro m loaded existing
      simp only at loaded existing
      rw [existing, Option.none_or] at loaded
      exact ⟨m, loaded, id⟩
  · next pc =>
    have unread := fun onchain index => unread onchain index (by simp [pc])
    cases moved
    refine ⟨ok.onchain, ok.confirms, ok.newMarket, ok.market, ok.current, ok.newListing, ?_, ?_,
      fun onchain index looked => absurd (unread onchain index) looked, ?_⟩
    · intro l loaded
      rcases Option.or_eq_some_iff.mp loaded with inserted | ⟨none, there⟩
      · have ⟨same, indexed, unprepared⟩ := ok.newListing l inserted
        exact ⟨same, fun p mem also => absurd also (unprepared p mem), fun _ => indexed⟩
      · refine ⟨Keyed.get_key there, fun p mem same => ?_, fun inserted => ?_⟩
        · rcases inv.kept p mem with ⟨other, found, keeps⟩
          rw [same] at found
          cases there.symm.trans found
          exact keeps
        · simp only [none] at inserted
          cases inserted
    · intro reviewed
      have ⟨sound, matching⟩ := ok.passed reviewed
      cases task : t.task with
      | index onchain =>
          rw [unread onchain task] at reviewed
          cases reviewed
      | confirm | mirror =>
          simp only [Session.criteria, task] at sound matching ⊢
          exact ⟨sound, matching⟩
    · intro _
      cases task : t.task with
      | index onchain => exact .inr ⟨by simp [pc, Task.after], onchain, rfl⟩
      | confirm | mirror => exact .inl (by simp [pc, Task.after])
  · next pc =>
    cases moved
    refine ⟨ok.onchain, ok.confirms, ok.newMarket, ok.market, ok.current, ok.newListing,
      ok.listing, fun passed => ok.review_sound passed, ?_, ?_⟩
    · intro onchain index looked
      simp only at index
      rw [index, pc]
      rfl
    · intro loaded
      rcases ok.loadedLast loaded with late | ⟨-, onchain, index⟩
      · rw [pc] at late
        cases late
      · rw [index, pc]
        exact .inl rfl
  · cases moved

end OverUnder.Backend.Listings
