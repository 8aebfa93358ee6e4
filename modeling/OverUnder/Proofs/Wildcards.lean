/-
Module: OverUnder.Proofs.Wildcards
Purpose: When the wildcard rows of the market factory stay under their parents: as long as
  every wildcard names a parent, every import brings the parents along, and no market is
  created over an imported row.
Trusted boundary: none
Main exports: Sheltered, Platform.Lawful, Platform.Minded, wildcards_stay_under_parents
-/
import OverUnder.Library.Reachable
import OverUnder.Proofs.FactoryRows
import OverUnder.Proofs.MarketCreation

namespace OverUnder.Contracts

open OverUnder.Vyper
open OverUnder.Library
open MarketFactory

variable {site : PlatformSite} {w next : Platform} {x x' : MarketFactory} {c : Bytes32}

namespace MarketFactory

/-- A row is no wildcard or has its parent's row, which does not close earlier. -/
def Under (exist : Bytes32 → Bool) (rows : Bytes32 → MarketFactory.Market)
    (row : MarketFactory.Market) : Prop :=
  row.marketType = 1 → exist row.parentConditionId = true ∧
    row.closeTime ≤ (rows row.parentConditionId).closeTime

/-- Every wildcard stays under its parent. -/
def Sheltered (x : MarketFactory) : Prop :=
  ∀ c, x.marketExists c = true → Under x.marketExists x.markets (x.markets c)

/-- The legacy factories satisfy the same law, as the call finds them. -/
def LegacySheltered (site : PlatformSite) : Prop :=
  ∀ legacyFactory c row, Legacy site legacyFactory c row → row.marketType = 1 →
    ∃ parent, Legacy site legacyFactory row.parentConditionId parent ∧
      row.closeTime ≤ parent.closeTime

/-- Rows that keep their type, parent and closing time, or are new, keep the law. -/
theorem Sheltered.of_rows (inv : Sheltered x)
    (kept : ∀ c, x.marketExists c = true → x'.marketExists c = true ∧
      (x'.markets c).marketType = (x.markets c).marketType ∧
      (x'.markets c).parentConditionId = (x.markets c).parentConditionId ∧
      (x'.markets c).closeTime = (x.markets c).closeTime)
    (added : ∀ c, x.marketExists c = false → x'.marketExists c = true →
      Under x'.marketExists x'.markets (x'.markets c)) : Sheltered x' := by
  intro c present
  by_cases before : x.marketExists c = true
  · rcases kept c before with ⟨-, type, parent, closeTime⟩
    intro wildcard
    rw [type] at wildcard
    rcases inv c before wildcard with ⟨there, under⟩
    rcases kept _ there with ⟨still, -, -, same⟩
    rw [parent, closeTime, same]
    exact ⟨still, under⟩
  · exact added c (Bool.eq_false_of_not_eq_true before) present

end MarketFactory

/-- What keeps wildcards under their parents, of one call. -/
def Platform.Minded (site : PlatformSite) (w : Platform) (action : Platform.Action) : Prop :=
  match action.tx with
  | .factory (.importLegacyMarkets legacyFactory conditionIds) =>
      ∀ c ∈ conditionIds, w.factory.marketExists c = false →
        ∀ row, Legacy site legacyFactory c row → row.marketType = 1 →
          (w.factory.marketExists row.parentConditionId = true ∧
            row.closeTime ≤ (w.factory.markets row.parentConditionId).closeTime) ∨
          (w.factory.marketExists row.parentConditionId = false ∧
            row.parentConditionId ∈ conditionIds)
  | .factory tx =>
      (tx.marketType = 1 → tx.parent ≠ 0) ∧
        ∀ questionId, tx.questionId site action.sender = some questionId →
          w.factory.marketExists (site.ctf.hashes.conditionId site.oracle.self questionId) = false
  | _ => True

/-- A call that does not revert, with what other factories answer in it. -/
structure Platform.Lawful (addresses : PlatformSite) (w : Platform)
    (label : PlatformSite × Platform.Action) (next : Platform) : Prop where
  same : label.1.oracle = addresses.oracle ∧ label.1.amm = addresses.amm ∧
    label.1.factory = addresses.factory ∧ label.1.userQuestionId = addresses.userQuestionId
  legacy : LegacySheltered label.1
  step : Platform.Step label.1 w label.2 next

namespace MarketFactory

/-- A new row under its parent. -/
theorem Lists.sheltered {timestamp : Nat} {cid : Bytes32} {row : MarketFactory.Market}
    (listed : Lists site w next timestamp cid row)
    (missing : w.factory.marketExists cid = false)
    (child : row.marketType = 1 → row.parentConditionId ≠ 0) (inv : Sheltered w.factory) :
    Sheltered next.factory := by
  have kept : ∀ c, w.factory.marketExists c = true → next.factory.marketExists c = true ∧
      next.factory.markets c = w.factory.markets c := by
    intro c present
    have other : c ≠ cid := by
      rintro rfl
      exact absurd (missing ▸ present) nofun
    rw [listed.marketExists, listed.markets, Function.update_of_ne other,
      Function.update_of_ne other]
    exact ⟨present, rfl⟩
  refine inv.of_rows (fun c present => ?_) fun c absent present => ?_
  · rcases kept c present with ⟨still, same⟩
    rw [same]
    exact ⟨still, rfl, rfl, rfl⟩
  · have here : c = cid := by
      by_contra other
      rw [listed.marketExists, Function.update_of_ne other] at present
      exact absurd (absent ▸ present) nofun
    intro wildcard
    rw [here, listed.markets, Function.update_self] at wildcard
    rcases listed.parent (child wildcard) with ⟨there, under⟩
    rcases kept _ there with ⟨still, same⟩
    have rows : next.factory.markets c = row := by
      rw [here, listed.markets, Function.update_self]
    rw [rows, same]
    exact ⟨still, under⟩

theorem Sheltered.step {action : Platform.Action} (inv : Sheltered w.factory)
    (legacy : LegacySheltered site) (minded : Platform.Minded site w action)
    (done : Platform.perform site w action = .ok next) : Sheltered next.factory := by
  rcases action with ⟨sender, timestamp, tx⟩
  rcases perform_rows done with same | ⟨tx, rfl, change⟩
  · rw [same]
    exact inv
  cases change with
  | @lists questionId row asked listed parent type =>
      have call : (tx.marketType = 1 → tx.parent ≠ 0) ∧ w.factory.marketExists
          (site.ctf.hashes.conditionId site.oracle.self questionId) = false := by
        cases tx with
        | importLegacyMarkets => cases asked
        | _ => exact ⟨minded.1, minded.2 questionId asked⟩
      refine listed.sheltered call.2 (fun wildcard => ?_) inv
      rw [parent]
      exact call.1 (type.symm.trans wildcard)
  | settings unasked books rows =>
      rw [books]
      refine inv.of_rows (fun c present => ?_) fun c absent present => ?_
      · rw [rows.marketExists, rows.markets]
        exact ⟨present, rfl, rfl, rfl⟩
      · rw [rows.marketExists] at present
        exact absurd (absent ▸ present) nofun
  | @imports legacyFactory conditionIds call factory books rows =>
      subst call
      rw [books]
      refine inv.of_rows (fun c present => ?_) fun c absent present wildcard => ?_
      · rcases (importRows_row rows c).1 present with ⟨still, same⟩
        rw [same]
        exact ⟨still, rfl, rfl, rfl⟩
      · rcases (importRows_row rows c).2.1 absent present with ⟨listed, copied⟩
        rcases minded c listed absent _ copied wildcard with ⟨there, under⟩ | ⟨missing, along⟩
        · rcases (importRows_row rows _).1 there with ⟨still, same⟩
          rw [same]
          exact ⟨still, under⟩
        · -- The parent's row is copied in the same call, from the same factory.
          rcases importRows_row rows (factory.markets c).parentConditionId with ⟨-, added, all⟩
          rcases added missing (all along) with ⟨-, source⟩
          rcases legacy _ _ _ copied wildcard with ⟨above, answer, under⟩
          have same := source.row.symm.trans answer.row
          rw [Except.ok.inj same]
          exact ⟨all along, under⟩
  | @pauses conditionId paused call books =>
      rw [books]
      refine inv.of_rows (fun c present => ?_) fun c absent present => ?_
      · refine ⟨present, ?_⟩
        simp only [flag]
        by_cases here : c = conditionId
        · rw [here, Function.update_self]
          exact ⟨rfl, rfl, rfl⟩
        · rw [Function.update_of_ne here]
          exact ⟨rfl, rfl, rfl⟩
      · exact absurd (absent ▸ present) nofun

end MarketFactory

/-- In a run whose calls all mind the parents, every wildcard row has a parent row in the
factory that closes no earlier. -/
theorem wildcards_stay_under_parents {calls : List (PlatformSite × Platform.Action)}
    {first : Platform} {operator generator : Address}
    (deployed : first.factory = .deployed operator generator)
    (path : Run (fun w label next => Platform.Minded label.1 w label.2 ∧
      Platform.Lawful site w label next) first calls w)
    (present : w.factory.marketExists c = true) (wildcard : (w.factory.markets c).marketType = 1) :
    w.factory.marketExists (w.factory.markets c).parentConditionId = true ∧
      (w.factory.markets c).closeTime ≤
        (w.factory.markets (w.factory.markets c).parentConditionId).closeTime := by
  have inv : Sheltered w.factory := by
    refine path.invariant (I := fun w => Sheltered w.factory) ?_ ?_
    · intro c present
      rw [deployed] at present
      cases present
    · rintro w label next inv ⟨minded, lawful⟩
      exact inv.step lawful.legacy minded lawful.step.done
  exact inv c present wildcard

/-! ### A sample parent and child -/

/-- A call that is no import minds the parents, as can be computed. -/
def Platform.minds (site : PlatformSite) (w : Platform) (action : Platform.Action) : Bool :=
  match action.tx with
  | .factory (.importLegacyMarkets ..) => false
  | .factory tx =>
      decide (tx.marketType = 1 → tx.parent ≠ 0) &&
        match tx.questionId site action.sender with
        | some questionId =>
            !w.factory.marketExists (site.ctf.hashes.conditionId site.oracle.self questionId)
        | none => true
  | _ => true

theorem Platform.minded_of_minds {action : Platform.Action}
    (minds : Platform.minds site w action = true) : Platform.Minded site w action := by
  rcases action with ⟨sender, timestamp, tx⟩
  cases tx with
  | tokens tx => trivial
  | amm tx => trivial
  | oracle tx => trivial
  | factory tx =>
      cases tx with
      | importLegacyMarkets legacyFactory conditionIds => cases minds
      | _ =>
          simp only [Platform.minds, Bool.and_eq_true, decide_eq_true_eq] at minds
          refine ⟨minds.1, fun questionId asked => ?_⟩
          have fresh := minds.2
          rw [asked] at fresh
          simpa only [Bool.not_eq_true'] using fresh

/-- Run a call of the sample platform that minds the parents. -/
def Platform.sampleCall (w : Platform) (label : PlatformSite × Platform.Action) :
    Call Platform := do
  require (Platform.minds label.1 w label.2 = true)
  Platform.perform label.1 w label.2

/-- The operator lists a primary market on question 7, and maybe a child of `parent`. -/
def Platform.sampleFamily (parent : Bytes32) : List (PlatformSite × Platform.Action) :=
  [⟨5, 0, .amm (.setFactory 21)⟩, ⟨5, 0, .oracle (.setFactory 21)⟩,
    ⟨5, 0, .tokens (.usdc (.faucet 10000))⟩, ⟨5, 0, .tokens (.usdc (.approve 21 10000))⟩,
    ⟨5, 0, .factory (.createPrimaryMarket 7 1000 .empty 10000)⟩,
    ⟨5, 0, .factory (.createWildcardMarket 8 parent 900 .empty 0)⟩].map (.sample, ·)

theorem Platform.sample_external (parent : Bytes32) : ∀ label ∈ Platform.sampleFamily parent,
    label.1 = .sample ∧ PlatformSite.sample.External label.2.sender := by
  have operator : PlatformSite.sample.External 5 := by decide
  intro label made
  rcases List.mem_map.mp made with ⟨action, listed, rfl⟩
  simp only [List.mem_cons, List.not_mem_nil, or_false] at listed
  rcases listed with rfl | rfl | rfl | rfl | rfl | rfl
  all_goals exact ⟨rfl, operator⟩

theorem Platform.sample_lawful : LegacySheltered .sample := by
  rintro legacyFactory c row ⟨listed, -⟩
  cases listed

/-- The theorem after a primary market and its child. -/
theorem wildcards_stay_under_sample_parent : ∃ w : Platform,
    w.factory.marketExists 8 = true ∧
      w.factory.marketExists (w.factory.markets 8).parentConditionId = true ∧
      (w.factory.markets 8).closeTime ≤
        (w.factory.markets (w.factory.markets 8).parentConditionId).closeTime := by
  obtain ⟨w, done⟩ := ok_of_isOk
    (x := (Platform.sampleFamily 7).foldlM Platform.sampleCall .sample) (by decide +kernel)
  have rows : ((Platform.sampleFamily 7).foldlM Platform.sampleCall .sample).toOption.map
      (fun w => decide (w.factory.marketExists 8 = true ∧ (w.factory.markets 8).marketType = 1)) =
      some true := by
    decide +kernel
  rw [done] at rows
  simp only [Except.toOption, Option.map_some, Option.some.injEq, decide_eq_true_eq] at rows
  have steps : ∀ (w : Platform) (label : PlatformSite × Platform.Action) (next : Platform),
      label.1 = .sample ∧ PlatformSite.sample.External label.2.sender →
      Platform.sampleCall w label = .ok next →
      Platform.Minded label.1 w label.2 ∧ Platform.Lawful .sample w label next := by
    rintro w ⟨site, action⟩ next ⟨rfl, external⟩ done
    simp only [Platform.sampleCall, bind_ok, require_ok, exists_const] at done
    exact ⟨Platform.minded_of_minds done.1,
      ⟨⟨rfl, rfl, rfl, rfl⟩, Platform.sample_lawful, ⟨external, done.2⟩⟩⟩
  exact ⟨w, rows.1, wildcards_stay_under_parents rfl
    (Run.execute steps (Platform.sample_external _) done) rows.1 rows.2⟩

/-- A wildcard that names no parent gets a row without one. -/
theorem wildcard_without_parent : ∃ w : Platform,
    Run (Platform.Lawful .sample) .sample (Platform.sampleFamily 0) w ∧
      w.factory.marketExists 8 = true ∧ (w.factory.markets 8).marketType = 1 ∧
      w.factory.marketExists (w.factory.markets 8).parentConditionId = false := by
  have steps : ∀ (w : Platform) (label : PlatformSite × Platform.Action) (next : Platform),
      label.1 = .sample ∧ PlatformSite.sample.External label.2.sender →
      Platform.perform label.1 w label.2 = .ok next → Platform.Lawful .sample w label next := by
    rintro w ⟨site, action⟩ next ⟨rfl, external⟩ done
    exact ⟨⟨rfl, rfl, rfl, rfl⟩, Platform.sample_lawful, ⟨external, done⟩⟩
  obtain ⟨w, done⟩ := ok_of_isOk (x := (Platform.sampleFamily 0).foldlM
    (fun w label => Platform.perform label.1 w label.2) .sample) (by decide +kernel)
  have rows : ((Platform.sampleFamily 0).foldlM
      (fun w label => Platform.perform label.1 w label.2) .sample).toOption.map
      (fun w => decide (w.factory.marketExists 8 = true ∧ (w.factory.markets 8).marketType = 1 ∧
        w.factory.marketExists (w.factory.markets 8).parentConditionId = false)) = some true := by
    decide +kernel
  rw [done] at rows
  simp only [Except.toOption, Option.map_some, Option.some.injEq, decide_eq_true_eq] at rows
  exact ⟨w, Run.execute steps (Platform.sample_external _) done, rows⟩

end OverUnder.Contracts
