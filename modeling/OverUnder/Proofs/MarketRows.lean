/-
Module: OverUnder.Proofs.MarketRows
Purpose: The rows of the market factory over whole runs: a call that creates a market leaves the
  row it asked for, and a row whose condition is prepared stays, but for its pause flag. What is
  imported are rows under their own condition ids, of conditions of these outcome tokens.
Trusted boundary: none
Main exports: Tx.row, exec_row, SameMarket, HasMarket, hasMarket_step, Rooted, Platform.Proceeds,
  reachable_rooted
-/
import OverUnder.Library.Reachable
import OverUnder.Proofs.FactoryRows
import OverUnder.Proofs.MarketCreation

namespace OverUnder.Contracts

open OverUnder.Vyper
open OverUnder.Library

namespace MarketFactory

variable {site : PlatformSite} {w next : Platform}
variable {sender : Address} {timestamp : Nat} {c : Bytes32}

/-- The row of the market that a call creates. -/
def Tx.row (site : PlatformSite) (sender : Address) : Tx → Option MarketFactory.Market
  | .createPrimaryMarket questionId closeTime question _ =>
      some ⟨site.ctf.hashes.conditionId site.oracle.self questionId, 0, closeTime, 0, false,
        question⟩
  | .createWildcardMarket questionId parent closeTime question _ =>
      some ⟨site.ctf.hashes.conditionId site.oracle.self questionId, parent, closeTime, 1, false,
        question⟩
  | .createPermissionlessMarket salt closeTime question _ _ =>
      some ⟨site.ctf.hashes.conditionId site.oracle.self (site.userQuestionId sender salt), 0,
        closeTime, marketTypeUser, false, question⟩
  | _ => none

/-- The row of a question's market is under the condition of the question. -/
theorem Tx.row_of_questionId {tx : Tx} {questionId : Bytes32}
    (asked : tx.questionId site sender = some questionId) :
    ∃ row, tx.row site sender = some row ∧
      row.conditionId = site.ctf.hashes.conditionId site.oracle.self questionId := by
  cases tx with
  | createPrimaryMarket =>
      cases asked
      exact ⟨_, rfl, rfl⟩
  | createWildcardMarket =>
      cases asked
      exact ⟨_, rfl, rfl⟩
  | createPermissionlessMarket =>
      cases asked
      exact ⟨_, rfl, rfl⟩
  | _ => cases asked

/-- The factory has the row of a market whose condition is prepared. -/
structure Holds (w : Platform) (row : MarketFactory.Market) : Prop where
  present : w.factory.marketExists row.conditionId = true
  stored : w.factory.markets row.conditionId = row
  prepared : w.tokens.ctf.outcomeSlots row.conditionId ≠ 0

/-- What follows `_create` keeps the row. -/
theorem Lists.holds {row : MarketFactory.Market} {w1 : Platform} {cid : Bytes32}
    (listed : Lists site w w1 timestamp cid row) (named : row.conditionId = cid)
    (markets : next.factory.markets = w1.factory.markets)
    (marketExists : next.factory.marketExists = w1.factory.marketExists)
    (slots : next.tokens.ctf.outcomeSlots = w1.tokens.ctf.outcomeSlots) : Holds next row := by
  subst named
  constructor
  · rw [marketExists, listed.marketExists]
    exact Function.update_self _ _ _
  · rw [markets, listed.markets]
    exact Function.update_self _ _ _
  · rw [slots, listed.prepared]
    decide

/-- A call that creates a market leaves its row. -/
theorem exec_row {tx : Tx} {row : MarketFactory.Market} (asked : tx.row site sender = some row)
    (done : exec site w sender timestamp tx = .ok next) : Holds next row := by
  cases tx with
  | createPrimaryMarket questionId closeTime question seedUsdc =>
      cases asked
      simp only [exec, creating, createPrimaryMarket, bind_ok, require_ok, pure_ok,
        exists_const] at done
      rcases done with ⟨⟨cid, w'⟩, ⟨-, -, ⟨cid', w1⟩, created, w2, pulled, w3, seeded, same⟩, rfl⟩
      rcases Prod.mk.inj same with ⟨rfl, rfl⟩
      rcases create_lists created with ⟨rfl, listed⟩
      rcases pull_factory pulled with ⟨rows, -, ctf⟩
      rcases seed_factory seeded with ⟨rows', -, slots⟩
      apply listed.holds rfl
      · rw [rows', rows]
      · rw [rows', rows]
      · rw [slots, ctf]
  | createWildcardMarket questionId parent closeTime question seedUsdc =>
      cases asked
      simp only [exec, creating, createWildcardMarket, seedWhen, bind_ok, require_ok, pure_ok,
        exists_const] at done
      rcases done with ⟨⟨cid, w'⟩, ⟨-, ⟨cid', w1⟩, created, w2, funded, same⟩, rfl⟩
      rcases Prod.mk.inj same with ⟨rfl, rfl⟩
      rcases create_lists created with ⟨rfl, listed⟩
      split at funded
      · simp only [bind_ok] at funded
        rcases funded with ⟨w3, pulled, seeded⟩
        rcases pull_factory pulled with ⟨rows, -, ctf⟩
        rcases seed_factory seeded with ⟨rows', -, slots⟩
        apply listed.holds rfl
        · rw [rows', rows]
        · rw [rows', rows]
        · rw [slots, ctf]
      · rw [pure_ok] at funded
        rw [funded]
        exact listed.holds rfl rfl rfl rfl
  | createPermissionlessMarket salt closeTime question criteriaHash seedUsdc =>
      cases asked
      simp only [exec, creating, createPermissionlessMarket, bind_ok, pure_ok] at done
      rcases done with ⟨⟨cid, w'⟩, ⟨-, -, ⟨cid', w1⟩, created, owed, -, w2, pulled, w3, paid, w4,
        seeded, same⟩, rfl⟩
      rcases Prod.mk.inj same with ⟨rfl, rfl⟩
      rcases create_lists created with ⟨rfl, listed⟩
      rcases pull_factory pulled with ⟨rows, -, ctf⟩
      rcases payFee_factory paid with ⟨rows', -, ctf'⟩
      rcases seed_factory seeded with ⟨rows'', -, slots⟩
      apply listed.holds rfl
      · rw [rows'', rows', rows]
      · rw [rows'', rows', rows]
      · rw [slots, ctf', ctf]
  | _ => cases asked

/-! ### Rows stay -/

/-- Two rows of one market; the pause flag may differ. -/
structure SameMarket (m m' : MarketFactory.Market) : Prop where
  conditionId : m'.conditionId = m.conditionId
  parent : m'.parentConditionId = m.parentConditionId
  closeTime : m'.closeTime = m.closeTime
  marketType : m'.marketType = m.marketType
  question : m'.question = m.question

theorem SameMarket.refl (m : MarketFactory.Market) : SameMarket m m := ⟨rfl, rfl, rfl, rfl, rfl⟩

theorem SameMarket.trans {m m' m'' : MarketFactory.Market} (first : SameMarket m m')
    (second : SameMarket m' m'') : SameMarket m m'' :=
  ⟨second.conditionId.trans first.conditionId, second.parent.trans first.parent,
    second.closeTime.trans first.closeTime, second.marketType.trans first.marketType,
    second.question.trans first.question⟩

/-- The factory has the market under a prepared condition. -/
structure HasMarket (w : Platform) (c : Bytes32) (m : MarketFactory.Market) : Prop where
  present : w.factory.marketExists c = true
  same : SameMarket m (w.factory.markets c)
  prepared : w.tokens.ctf.outcomeSlots c ≠ 0

theorem Holds.hasMarket {row : MarketFactory.Market} (held : Holds w row) :
    HasMarket w row.conditionId row := by
  refine ⟨held.present, ?_, held.prepared⟩
  rw [held.stored]
  exact .refl row

end MarketFactory

open MarketFactory (Named Holds SameMarket HasMarket importRows_row perform_rows exec_row)

variable {site : PlatformSite} {w next : Platform} {action : Platform.Action} {operator : Address}
variable {c : Bytes32} {m : MarketFactory.Market}

/-- A prepared condition stays prepared. -/
theorem step_prepared (step : Platform.Step site w action next)
    (prepared : w.tokens.ctf.outcomeSlots c ≠ 0) : next.tokens.ctf.outcomeSlots c ≠ 0 := by
  rw [step_slots step c]
  split
  · decide
  · exact prepared

/-- A listed market stays listed whatever is called. -/
theorem hasMarket_step (step : Platform.Step site w action next) (listed : HasMarket w c m) :
    HasMarket next c m := by
  have prepared := step_prepared step listed.prepared
  rcases perform_rows step.done with same | ⟨tx, call, change⟩
  · refine ⟨?_, ?_, prepared⟩
    · rw [same]
      exact listed.present
    · rw [same]
      exact listed.same
  cases change with
  | @lists questionId row asked added parent type =>
      have other : c ≠ site.ctf.hashes.conditionId site.oracle.self questionId := by
        intro here
        apply listed.prepared
        rw [here]
        exact added.fresh
      constructor
      · rw [added.marketExists, Function.update_of_ne other]
        exact listed.present
      · rw [added.markets, Function.update_of_ne other]
        exact listed.same
      · exact prepared
  | settings unasked books rows =>
      rw [books] at prepared ⊢
      constructor
      · rw [rows.marketExists]
        exact listed.present
      · rw [rows.markets]
        exact listed.same
      · exact prepared
  | imports call books rows =>
      rw [books] at prepared ⊢
      rcases (importRows_row rows c).1 listed.present with ⟨still, same⟩
      refine ⟨still, ?_, prepared⟩
      rw [same]
      exact listed.same
  | @pauses conditionId paused call books =>
      rw [books] at prepared ⊢
      refine ⟨listed.present, ?_, prepared⟩
      simp only [MarketFactory.flag]
      by_cases here : c = conditionId
      · subst here
        rw [Function.update_self]
        exact listed.same.trans ⟨rfl, rfl, rfl, rfl, rfl⟩
      · rw [Function.update_of_ne here]
        exact listed.same

/-- Every market is under its own condition id, which is prepared. -/
def Rooted (w : Platform) : Prop :=
  ∀ c, w.factory.marketExists c = true →
    (w.factory.markets c).conditionId = c ∧ w.tokens.ctf.outcomeSlots c ≠ 0

/-- What a legacy factory answers for the ids of an import is under its own condition id, which
is prepared in these outcome tokens. -/
def Platform.ImportsRooted (site : PlatformSite) (w : Platform) (action : Platform.Action) : Prop :=
  ∀ legacyFactory conditionIds,
    action.tx = .factory (.importLegacyMarkets legacyFactory conditionIds) →
      ∀ c ∈ conditionIds, ∀ row, MarketFactory.Legacy site legacyFactory c row →
        row.conditionId = c ∧ w.tokens.ctf.outcomeSlots c ≠ 0

theorem Rooted.step (rooted : Rooted w) (step : Platform.Step site w action next)
    (legacy : Platform.ImportsRooted site w action) : Rooted next := by
  intro c present
  by_cases before : w.factory.marketExists c = true
  · rcases rooted c before with ⟨named, prepared⟩
    have listed := hasMarket_step step ⟨before, .refl _, prepared⟩
    exact ⟨listed.same.conditionId.trans named, listed.prepared⟩
  -- The row is new.
  rcases perform_rows step.done with same | ⟨tx, call, change⟩
  · rw [same] at present
    exact absurd present before
  cases change with
  | @lists questionId row asked added parent type =>
      have here : c = site.ctf.hashes.conditionId site.oracle.self questionId := by
        by_contra other
        rw [added.marketExists, Function.update_of_ne other] at present
        exact before present
      rcases MarketFactory.Tx.row_of_questionId asked with ⟨row', created, named⟩
      have done := step.done
      unfold Platform.perform at done
      rw [call] at done
      have held := exec_row created done
      rw [← here] at named
      rw [← named, held.stored]
      exact ⟨rfl, held.prepared⟩
  | settings unasked books rows =>
      rw [books, rows.marketExists] at present
      exact absurd present before
  | @imports legacyFactory conditionIds imported factory books rows =>
      subst imported
      have absent := Bool.eq_false_of_not_eq_true before
      rw [books] at present ⊢
      rcases (importRows_row rows c).2.1 absent present with ⟨member, copied⟩
      exact legacy legacyFactory conditionIds call c member _ copied
  | pauses call books =>
      rw [books] at present
      exact absurd present before

/-- Any call; what is imported is rooted. -/
def Platform.Proceeds (site : PlatformSite) (w next : Platform) : Prop :=
  ∃ action, Platform.Step site w action next ∧ Platform.ImportsRooted site w action

theorem Platform.Deployed.rooted {first : Platform}
    (deployed : Platform.Deployed site operator first) : Rooted first := by
  rcases deployed.factory with ⟨generator, books⟩
  intro c present
  rw [books] at present
  cases present

theorem reachable_rooted
    (reached : Reachable (Platform.Deployed site operator) (Platform.Proceeds site) w) :
    Named site ∧ site.External operator ∧ Sound site operator w ∧ Rooted w := by
  refine reached.invariant (I := fun w => Named site ∧ site.External operator ∧
    Sound site operator w ∧ Rooted w) ?_ ?_
  · intro first deployed
    exact ⟨deployed.named, deployed.operated, deployed.sound, deployed.rooted⟩
  · rintro w next ⟨named, operated, sound, rooted⟩ ⟨action, step, legacy⟩
    exact ⟨named, operated, sound.step named step, rooted.step step legacy⟩

end OverUnder.Contracts
