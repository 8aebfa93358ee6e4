/-
Module: OverUnder.Proofs.FactoryRows
Purpose: What one call can do to the rows of the market factory: add one with its condition
  and its registration, copy some from a legacy factory, or flip a pause flag.
Trusted boundary: none
Main exports: SameRows, Lists, exec_rows, perform_rows, importRows_row
-/
import OverUnder.Proofs.MarketFrames

namespace OverUnder.Contracts.MarketFactory

open OverUnder.Vyper

variable {site : PlatformSite} {w next : Platform} {x x' : MarketFactory}
variable {sender : Address} {timestamp amount fee : Nat} {c cid : Bytes32}

/-- The rows stay as they are. -/
structure SameRows (x x' : MarketFactory) : Prop where
  markets : x'.markets = x.markets
  marketExists : x'.marketExists = x.marketExists

/-- `_create` adds the row of a condition that was neither prepared nor registered. -/
structure Lists (site : PlatformSite) (w next : Platform) (timestamp : Nat) (cid : Bytes32)
    (row : MarketFactory.Market) : Prop where
  fresh : w.tokens.ctf.outcomeSlots cid = 0
  prepared : next.tokens.ctf.outcomeSlots cid = 2
  unregistered : w.oracle.closeTime cid = 0
  registered : next.oracle.closeTime = Function.update w.oracle.closeTime cid row.closeTime
  later : timestamp < row.closeTime
  parent : row.parentConditionId ≠ 0 → w.factory.marketExists row.parentConditionId = true ∧
    row.closeTime ≤ (w.factory.markets row.parentConditionId).closeTime
  markets : next.factory.markets = Function.update w.factory.markets cid row
  marketExists : next.factory.marketExists = Function.update w.factory.marketExists cid true

/-- `_create` alone. -/
theorem create_lists {questionId parent : Bytes32} {closeTime marketType : Nat}
    {question : Question}
    (done : create site w timestamp questionId parent closeTime marketType question =
      .ok (cid, next)) :
    cid = site.ctf.hashes.conditionId site.oracle.self questionId ∧
      Lists site w next timestamp cid ⟨cid, parent, closeTime, marketType, false, question⟩ := by
  rcases create_spec done with ⟨rfl, created⟩
  simp only [create, bind_ok, require_ok, pure_ok, Prod.mk.injEq, exists_const] at done
  rcases done with ⟨later, _, checked, ⟨cid', tokens⟩, prepared, oracle, registered, same, rfl⟩
  rcases ConditionalTokens.prepareCondition_spec prepared with ⟨rfl, -, -, -⟩
  refine ⟨rfl, created.fresh, ?_, created.unregistered, ?_, later, fun some => ?_, rfl, rfl⟩
  · rw [created.ctf]
    exact Function.update_self _ _ _
  · exact congrArg ConsensusOracle.closeTime created.oracle
  · simp only [checkParent, if_pos some, bind_ok, require_ok, exists_const] at checked
    exact ⟨checked.1, checked.2.1⟩

/-! ### The money of a creation touches no row -/

theorem pull_factory (done : pull site w sender amount = .ok next) :
    next.factory = w.factory ∧ next.oracle = w.oracle ∧ next.tokens.ctf = w.tokens.ctf := by
  simp only [pull, bind_ok, pure_ok] at done
  rcases done with ⟨usdc, -, rfl⟩
  exact ⟨rfl, rfl, rfl⟩

theorem payFee_factory (done : payFee site w fee = .ok next) :
    next.factory = w.factory ∧ next.oracle = w.oracle ∧ next.tokens.ctf = w.tokens.ctf := by
  unfold payFee at done
  split at done
  · simp only [bind_ok, pure_ok] at done
    rcases done with ⟨usdc, -, rfl⟩
    exact ⟨rfl, rfl, rfl⟩
  · rw [pure_ok] at done
    rw [done]
    exact ⟨rfl, rfl, rfl⟩

theorem seed_factory (done : seed site w sender timestamp cid amount = .ok next) :
    next.factory = w.factory ∧ next.oracle = w.oracle ∧
      next.tokens.ctf.outcomeSlots = w.tokens.ctf.outcomeSlots := by
  have frame := seed_frame done
  rcases seed_parts done with ⟨m, -, rfl⟩
  exact ⟨rfl, rfl, frame.slots⟩

/-- What follows `_create` carries its row along. -/
theorem Lists.later_unchanged {row : MarketFactory.Market} {w1 : Platform}
    (listed : Lists site w w1 timestamp cid row) (rows : SameRows w1.factory next.factory)
    (oracle : next.oracle = w1.oracle)
    (slots : next.tokens.ctf.outcomeSlots = w1.tokens.ctf.outcomeSlots) :
    Lists site w next timestamp cid row := by
  refine ⟨listed.fresh, ?_, listed.unregistered, ?_, listed.later, listed.parent, ?_, ?_⟩
  · rw [slots, listed.prepared]
  · rw [oracle, listed.registered]
  · rw [rows.markets, listed.markets]
  · rw [rows.marketExists, listed.marketExists]

/-- The parent a call names for the market it creates. -/
def Tx.parent : Tx → Bytes32
  | .createWildcardMarket _ parentConditionId .. => parentConditionId
  | _ => 0

/-- The type of the market a call creates. -/
def Tx.marketType : Tx → Nat
  | .createWildcardMarket .. => 1
  | .createPermissionlessMarket .. => marketTypeUser
  | _ => 0

/-- The factory with the pause flag of one row set. -/
def flag (x : MarketFactory) (conditionId : Bytes32) (paused : Bool) : MarketFactory :=
  { x with markets :=
      Function.update x.markets conditionId { x.markets conditionId with paused } }

/-- What a call to the factory does to its rows. -/
inductive RowsChange (site : PlatformSite) (w next : Platform) (sender : Address)
    (timestamp : Nat) (tx : Tx) : Prop where
  | lists {questionId : Bytes32} {row : MarketFactory.Market}
      (asked : tx.questionId site sender = some questionId)
      (listed : Lists site w next timestamp
        (site.ctf.hashes.conditionId site.oracle.self questionId) row)
      (parent : row.parentConditionId = tx.parent) (type : row.marketType = tx.marketType)
  | settings (unasked : tx.questionId site sender = none) {factory : MarketFactory}
      (books : next = { w with factory }) (rows : SameRows w.factory factory)
  | imports {legacyFactory : Address} {conditionIds : List Bytes32}
      (call : tx = .importLegacyMarkets legacyFactory conditionIds) {factory : MarketFactory}
      (books : next = { w with factory })
      (rows : importRows site legacyFactory w.factory conditionIds = .ok factory)
  | pauses {conditionId : Bytes32} {paused : Bool} (call : tx = .setPaused conditionId paused)
      (books : next = { w with factory := flag w.factory conditionId paused })

theorem exec_rows {tx : Tx} (done : exec site w sender timestamp tx = .ok next) :
    RowsChange site w next sender timestamp tx := by
  cases tx with
  | setWildcardGenerator account =>
      simp only [exec, configure, setWildcardGenerator, bind_ok, require_ok, pure_ok,
        exists_const] at done
      rcases done with ⟨factory, ⟨-, rfl⟩, rfl⟩
      exact .settings rfl rfl ⟨rfl, rfl⟩
  | setListingConfig minSeedUsdc listingFeeUsdc feeRecipient minLeadTime maxHorizon cooldown =>
      simp only [exec, configure, setListingConfig, bind_ok, require_ok, pure_ok,
        exists_const] at done
      rcases done with ⟨factory, ⟨-, -, -, -, -, rfl⟩, rfl⟩
      exact .settings rfl rfl ⟨rfl, rfl⟩
  | setPermissionless enabled =>
      simp only [exec, configure, setPermissionless, bind_ok, require_ok, pure_ok,
        exists_const] at done
      rcases done with ⟨factory, ⟨-, rfl⟩, rfl⟩
      exact .settings rfl rfl ⟨rfl, rfl⟩
  | setLister account allowed =>
      simp only [exec, configure, setLister, bind_ok, require_ok, pure_ok, exists_const] at done
      rcases done with ⟨factory, ⟨-, -, rfl⟩, rfl⟩
      exact .settings rfl rfl ⟨rfl, rfl⟩
  | setPaused conditionId paused =>
      simp only [exec, configure, setPaused, bind_ok, require_ok, pure_ok, exists_const] at done
      rcases done with ⟨factory, ⟨-, -, rfl⟩, rfl⟩
      exact .pauses rfl rfl
  | importLegacyMarkets legacyFactory conditionIds =>
      simp only [exec, configure, importLegacyMarkets, bind_ok, require_ok, pure_ok,
        exists_const] at done
      rcases done with ⟨factory, ⟨-, -, -, rows⟩, rfl⟩
      exact .imports rfl rfl rows
  | createPrimaryMarket questionId closeTime question seedUsdc =>
      simp only [exec, creating, createPrimaryMarket, bind_ok, require_ok, pure_ok,
        exists_const] at done
      rcases done with ⟨⟨cid, w'⟩, ⟨-, -, ⟨cid', w1⟩, created, w2, pulled, w3, seeded, same⟩, rfl⟩
      rcases Prod.mk.inj same with ⟨rfl, rfl⟩
      rcases create_lists created with ⟨rfl, listed⟩
      rcases pull_factory pulled with ⟨rows, oracle, ctf⟩
      rcases seed_factory seeded with ⟨rows', oracle', slots⟩
      refine .lists rfl (listed.later_unchanged ?_ (oracle'.trans oracle) ?_) rfl rfl
      · rw [rows', rows]
        exact ⟨rfl, rfl⟩
      · rw [slots, ctf]
  | createWildcardMarket questionId parent closeTime question seedUsdc =>
      simp only [exec, creating, createWildcardMarket, seedWhen, bind_ok, require_ok, pure_ok,
        exists_const] at done
      rcases done with ⟨⟨cid, w'⟩, ⟨-, ⟨cid', w1⟩, created, w2, funded, same⟩, rfl⟩
      rcases Prod.mk.inj same with ⟨rfl, rfl⟩
      rcases create_lists created with ⟨rfl, listed⟩
      split at funded
      · simp only [bind_ok] at funded
        rcases funded with ⟨w3, pulled, seeded⟩
        rcases pull_factory pulled with ⟨rows, oracle, ctf⟩
        rcases seed_factory seeded with ⟨rows', oracle', slots⟩
        refine .lists rfl (listed.later_unchanged ?_ (oracle'.trans oracle) ?_) rfl rfl
        · rw [rows', rows]
          exact ⟨rfl, rfl⟩
        · rw [slots, ctf]
      · rw [pure_ok] at funded
        rw [funded]
        exact .lists rfl listed rfl rfl
  | createPermissionlessMarket salt closeTime question criteriaHash seedUsdc =>
      simp only [exec, creating, createPermissionlessMarket, bind_ok, pure_ok] at done
      rcases done with ⟨⟨cid, w'⟩, ⟨-, -, ⟨cid', w1⟩, created, owed, -, w2, pulled, w3, paid, w4,
        seeded, same⟩, rfl⟩
      rcases Prod.mk.inj same with ⟨rfl, rfl⟩
      rcases create_lists created with ⟨rfl, listed⟩
      rcases pull_factory pulled with ⟨rows, oracle, ctf⟩
      rcases payFee_factory paid with ⟨rows', oracle', ctf'⟩
      rcases seed_factory seeded with ⟨rows'', oracle'', slots⟩
      have lists : Lists site w next timestamp
          (site.ctf.hashes.conditionId site.oracle.self (site.userQuestionId sender salt))
          ⟨site.ctf.hashes.conditionId site.oracle.self (site.userQuestionId sender salt), 0,
            closeTime, marketTypeUser, false, question⟩ := by
        refine ⟨listed.fresh, ?_, listed.unregistered, ?_, listed.later, listed.parent, ?_, ?_⟩
        · rw [slots, ctf', ctf]
          exact listed.prepared
        · rw [oracle'', oracle', oracle]
          exact listed.registered
        · rw [rows'', rows', rows]
          exact listed.markets
        · rw [rows'', rows', rows]
          exact listed.marketExists
      exact .lists rfl lists rfl rfl

/-- A call to another contract leaves the factory alone. -/
theorem perform_rows {action : Platform.Action}
    (done : Platform.perform site w action = .ok next) :
    next.factory = w.factory ∨ ∃ tx, action.tx = .factory tx ∧
      RowsChange site w next action.sender action.timestamp tx := by
  rcases action with ⟨sender, timestamp, tx⟩
  cases tx with
  | tokens tx =>
      simp only [Platform.perform, bind_ok, pure_ok] at done
      rcases done with ⟨tokens, -, rfl⟩
      exact .inl rfl
  | amm tx =>
      simp only [Platform.perform, bind_ok, pure_ok] at done
      rcases done with ⟨m, -, rfl⟩
      exact .inl rfl
  | oracle tx =>
      simp only [Platform.perform, bind_ok, pure_ok] at done
      rcases done with ⟨court, -, rfl⟩
      exact .inl rfl
  | factory tx => exact .inr ⟨tx, rfl, exec_rows done⟩

/-! ### Imports -/

/-- A legacy factory answers for a row. -/
structure Legacy (site : PlatformSite) (legacyFactory : Address) (c : Bytes32)
    (row : MarketFactory.Market) : Prop where
  listed : site.legacyExists legacyFactory c = .ok true
  row : site.legacyMarkets legacyFactory c = .ok row

/-- An import keeps the rows there are; the others are the legacy factory's. -/
theorem importRows_row {legacyFactory : Address} {conditionIds : List Bytes32}
    (done : importRows site legacyFactory x conditionIds = .ok x') (c : Bytes32) :
    (x.marketExists c = true → x'.marketExists c = true ∧ x'.markets c = x.markets c) ∧
      (x.marketExists c = false → x'.marketExists c = true →
        c ∈ conditionIds ∧ Legacy site legacyFactory c (x'.markets c)) ∧
      (c ∈ conditionIds → x'.marketExists c = true) := by
  induction conditionIds generalizing x with
  | nil =>
      cases done
      exact ⟨fun present => ⟨present, rfl⟩, fun absent present => absurd (absent ▸ present) nofun,
        fun none => nomatch none⟩
  | cons cid rest ih =>
      unfold importRows at done
      split at done
      · next present =>
        rcases ih done with ⟨kept, added, all⟩
        refine ⟨kept, fun absent now => ?_, fun listed => ?_⟩
        · rcases added absent now with ⟨listed, legacy⟩
          exact ⟨.tail _ listed, legacy⟩
        · rcases List.mem_cons.mp listed with rfl | later
          · exact (kept present).1
          · exact all later
      · next missing =>
        simp only [bind_ok, require_ok, exists_const] at done
        rcases done with ⟨_, listed, rfl, row, copied, done⟩
        rcases ih done with ⟨kept, added, all⟩
        by_cases here : c = cid
        · subst here
          have now := kept (Function.update_self _ _ _)
          have copy : x'.markets c = row := now.2.trans (Function.update_self _ _ _)
          refine ⟨fun present => absurd present missing, fun _ _ => ⟨.head _, listed, ?_⟩,
            fun _ => now.1⟩
          rw [copy]
          exact copied
        · have exist : Function.update x.marketExists cid true c = x.marketExists c :=
            Function.update_of_ne here _ _
          refine ⟨fun present => ?_, fun absent now => ?_, fun listed => ?_⟩
          · rcases kept (exist.trans present) with ⟨there, same⟩
            exact ⟨there, same.trans (Function.update_of_ne here _ _)⟩
          · rcases added (exist.trans absent) now with ⟨listed, legacy⟩
            exact ⟨.tail _ listed, legacy⟩
          · rcases List.mem_cons.mp listed with same | later
            · exact absurd same here
            · exact all later

end OverUnder.Contracts.MarketFactory
