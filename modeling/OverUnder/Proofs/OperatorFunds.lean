/-
Module: OverUnder.Proofs.OperatorFunds
Purpose: A request of the operator pays for its market: with a node that answers and while only
  outsiders call the contracts, `POST /markets` for a question that is free brings the balance and
  the allowance up to the seed before it sends the creation, and ends with the market created.
Trusted boundary: none
Main exports: Refused, Serves, served, Free, wildcard_succeeds, Funded, Sane,
  creates_fund_themselves
-/
import OverUnder.Proofs.OperatorCreates

namespace OverUnder.Contracts

open OverUnder.Vyper
open OverUnder.Library
open MarketFactory (Named HasMarket create_succeeds create_spec fund_succeeds)

variable {site : PlatformSite} {operator : Address} {w next : Platform} {action : Platform.Action}
variable {c : Bytes32} {timestamp closeTime seedUsdc : Nat}

/-! ### Outsiders and rows -/

/-- Outsiders have no say in the factory's settings. -/
theorem outsider_creates (sound : Sound site operator w)
    (outsider : action.Outsider operator operator) (step : Platform.Step site w action next)
    {tx : MarketFactory.Tx} (call : action.tx = .factory tx) :
    ∃ questionId, tx.questionId site action.sender = some questionId := by
  have done := step.done
  unfold Platform.perform at done
  rw [call] at done
  rcases MarketFactory.exec_launches done with ⟨questionId, asked, -⟩ | ⟨-, mine, -⟩
  · exact ⟨questionId, asked⟩
  · exact absurd (mine.trans sound.factory) outsider.unprivileged

theorem outsider_importsRooted (sound : Sound site operator w)
    (outsider : action.Outsider operator operator) (step : Platform.Step site w action next) :
    Platform.ImportsRooted site w action := by
  intro legacyFactory conditionIds imports
  rcases outsider_creates sound outsider step imports with ⟨questionId, asked⟩
  cases asked

/-- Outsiders leave a row as it is, the pause flag included. -/
theorem outsider_row (sound : Sound site operator w) (rooted : Rooted w)
    (outsider : action.Outsider operator operator) (step : Platform.Step site w action next)
    (present : w.factory.marketExists c = true) :
    next.factory.marketExists c = true ∧ next.factory.markets c = w.factory.markets c := by
  rcases MarketFactory.perform_rows step.done with same | ⟨tx, call, change⟩
  · rw [same]
    exact ⟨present, rfl⟩
  rcases outsider_creates sound outsider step call with ⟨questionId, asked⟩
  cases change with
  | @lists questionId row asked added parent type =>
      have other : c ≠ site.ctf.hashes.conditionId site.oracle.self questionId := by
        intro here
        apply (rooted c present).2
        rw [here]
        exact added.fresh
      rw [added.marketExists, added.markets, Function.update_of_ne other,
        Function.update_of_ne other]
      exact ⟨present, rfl⟩
  | settings unasked =>
      rw [unasked] at asked
      cases asked
  | imports imported =>
      subst imported
      cases asked
  | pauses paused =>
      subst paused
      cases asked

/-! ### A market under a parent -/

/-- What a new market needs of its parent, if it has one. -/
theorem checkParent_ok {x : MarketFactory} {parent : Bytes32} :
    MarketFactory.checkParent x parent closeTime = .ok () ↔
      (parent ≠ 0 → x.marketExists parent = true ∧ closeTime ≤ (x.markets parent).closeTime ∧
        (x.markets parent).paused = false) := by
  unfold MarketFactory.checkParent
  split
  · rename_i some
    simp only [bind_ok, require_ok, exists_const]
    exact ⟨fun holds _ => holds, fun holds => holds some⟩
  · rename_i none
    exact ⟨fun _ some => absurd some none, fun _ => rfl⟩

/-- The operator's wildcard succeeds under a parent that is open. -/
theorem wildcard_succeeds {questionId parent : Bytes32} (question : Question) (named : Named site)
    (sound : Sound site operator w) (operated : site.External operator)
    (ready : Ready site w operator timestamp closeTime
      (site.ctf.hashes.conditionId site.oracle.self questionId) seedUsdc 0)
    (fresh : w.tokens.ctf.outcomeSlots
      (site.ctf.hashes.conditionId site.oracle.self questionId) = 0)
    (under : MarketFactory.checkParent w.factory parent closeTime = .ok ()) :
    ∃ next, MarketFactory.exec site w operator timestamp
      (.createWildcardMarket questionId parent closeTime question seedUsdc) = .ok next := by
  have positive : closeTime > 0 := Nat.zero_lt_of_lt ready.later
  obtain ⟨w1, created⟩ : ∃ w1, MarketFactory.create site w timestamp questionId parent closeTime 1
      question = .ok (site.ctf.hashes.conditionId site.oracle.self questionId, w1) := by
    simp only [MarketFactory.create, ConditionalTokens.prepareCondition,
      ConsensusOracle.registerMarket, bind_ok, require_ok, pure_ok, exists_const, Prod.mk.injEq]
    exact ⟨_, ready.later, (), under, _, ⟨named.oracle, fresh, rfl⟩, _,
      ⟨.inl ready.registrar.symm, positive, ready.unregistered, rfl⟩, rfl, rfl⟩
  obtain ⟨w2, w3, w4, pulled, paid, seeded⟩ := fund_succeeds timestamp named operated
    (Creation.fundable sound w.factory ready fresh (create_spec created).2)
  cases paid
  have some_seed : seedUsdc > 0 := Nat.lt_of_lt_of_le (by decide) ready.enough
  simp only [MarketFactory.exec, MarketFactory.creating, MarketFactory.createWildcardMarket,
    MarketFactory.seedWhen, if_pos some_seed, bind_ok, require_ok, pure_ok, exists_const]
  exact ⟨w4, _, ⟨.inr sound.factory.symm, _, created, w4, ⟨w2, pulled, seeded⟩, rfl⟩, rfl⟩

end OverUnder.Contracts

namespace OverUnder.Backend.OperatorCreate

open OverUnder.Vyper OverUnder.Contracts OverUnder.Library
open MarketFactory (Named SameMarket HasMarket)
open NormalMath (wad)

variable {site : PlatformSite} {operator : Address} {before : Nat} {s t w next : Platform}
variable {cid questionId : Bytes32} {body : Body} {parent : Option Bytes32}

/-! ### A node that answers -/

/-- The call reverts in some block before a time. -/
def Refused (site : PlatformSite) (operator : Address) (before : Nat) (tx : OperatorTx)
    (w : Platform) : Prop :=
  ∃ timestamp, timestamp < before ∧ ∀ call, tx.call site = some call → ∀ next,
    Platform.perform site w ⟨operator, timestamp, call⟩ ≠ .ok next

/-- Reads do not raise, and a transaction that is waited for has a receipt; one without success
says that the call reverts. -/
def Serves (site : PlatformSite) (operator : Address) (before : Nat) :
    (op : Op) → Platform → Except Exc (Answer op) → Prop
  | .transact tx, w, r => ∃ receipt : Receipt, r = .ok receipt ∧
      (receipt.status ≠ 1 → Refused site operator before tx w)
  | _, _, r => ∃ a, r = .ok a

theorem Serves.answered {op : Op} {r : Except Exc (Answer op)}
    (serves : Serves site operator before op w r) : ∃ a, r = .ok a := by
  cases op with
  | transact tx =>
      rcases serves with ⟨receipt, same, -⟩
      exact ⟨receipt, same⟩
  | _ => exact serves

/-- Between the operations outsiders call the contracts and leave a condition unprepared. -/
def served (named : Named site) (operator : Address) (before : Nat) (cid : Bytes32) :
    World Platform Op Answer Exc where
  other w next := ∃ action, Platform.Meddles site operator operator w action next ∧
    action.prepares site ≠ some cid
  valid w := Sound site operator w ∧ Rooted w
  answers op w r next := Answers site operator op w r next ∧ Serves site operator before op w r
  other_valid := by
    rintro w next ⟨sound, rooted⟩ ⟨action, meddled, -⟩
    exact ⟨sound.step named meddled.step,
      rooted.step meddled.step (outsider_importsRooted sound meddled.outsider meddled.step)⟩
  answers_valid := by
    rintro op w r next ⟨sound, rooted⟩ ⟨answered, -⟩
    refine ⟨?_, answers_rooted rooted answered⟩
    cases op with
    | load => exact answered ▸ sound
    | transact tx =>
        cases answered with
        | failed => exact sound
        | reverted => exact sound
        | mined asked step => exact sound.step named step
    | _ => exact answered.1 ▸ sound

/-! ### What a free question waits for -/

/-- The market of a question can be created, but for the money. -/
structure Free (site : PlatformSite) (cid : Bytes32) (closeTime : Nat) (parent : Option Bytes32)
    (w : Platform) : Prop where
  registrar : w.oracle.factory = site.factory
  opener : w.amm.factory = site.factory
  fresh : w.tokens.ctf.outcomeSlots cid = 0
  unregistered : w.oracle.closeTime cid = 0
  absent : (w.amm.pools cid).exists = false
  under : ∀ p, parent = some p → MarketFactory.checkParent w.factory p closeTime = .ok ()

/-- Writing the collateral token leaves the question free. -/
theorem Free.usdc {closeTime : Nat} (free : Free site cid closeTime parent w) (usdc : MockUSDC) :
    Free site cid closeTime parent { w with tokens := { w.tokens with usdc } } :=
  ⟨free.registrar, free.opener, free.fresh, free.unregistered, free.absent, free.under⟩

/-- The question is free, the operator holds at least so much, and the factory may take some. -/
structure Money (site : PlatformSite) (operator : Address) (cid : Bytes32) (closeTime : Nat)
    (parent : Option Bytes32) (held : Nat) (allows : Nat → Prop) (w : Platform) : Prop where
  free : Free site cid closeTime parent w
  held : held ≤ w.tokens.usdc.balanceOf operator
  allows : allows (w.tokens.usdc.allowance (operator, site.factory))

variable {named : Named site} {closeTime held : Nat} {allows : Nat → Prop}

/-- Outsiders neither spend the operator's money nor take the question. -/
theorem money_keeps (operated : site.External operator) :
    (served named operator before cid).Keeps
      (Money site operator cid closeTime parent held allows) := by
  rintro w next ⟨sound, rooted⟩ ⟨action, meddled, elsewhere⟩ money
  have free := money.free
  have same := outsider_step operated sound free.opener free.registrar meddled.outsider
    meddled.step elsewhere
  constructor
  · constructor
    · exact same.registrar.trans free.registrar
    · exact same.opener.trans free.opener
    · exact same.slots.trans free.fresh
    · exact same.closeTime.trans free.unregistered
    · exact same.pool.trans free.absent
    · intro p here
      apply checkParent_ok.mpr
      intro some
      rcases checkParent_ok.mp (free.under p here) some with ⟨present, earlier, active⟩
      rcases outsider_row sound rooted meddled.outsider meddled.step present with ⟨still, row⟩
      rw [row]
      exact ⟨still, earlier, active⟩
  · exact money.held.trans same.spares.balance
  · rw [same.spares.allowances]
    exact money.allows

/-- What the factory takes of the operator in a transaction. -/
def OperatorTx.pulls : OperatorTx → Nat
  | .faucet _ => 0
  | .approve _ => 0
  | .createPrimaryMarket _ _ _ seedUsdc => seedUsdc
  | .createWildcardMarket _ _ _ _ seedUsdc => seedUsdc

theorem createTx_pulls (body : Body) (questionId : Bytes32) (parent : Option Bytes32) :
    (createTx body questionId parent).pulls = body.seedUsdc := by
  cases parent with
  | none => rfl
  | some p => rfl

/-- Where a transaction is sent, the operator holds what the factory takes and has allowed it. -/
def Funded (site : PlatformSite) (operator : Address) (op : Op) (w : Platform) : Prop :=
  ∀ tx, op = .transact tx → tx.pulls ≤ w.tokens.usdc.balanceOf operator ∧
    tx.pulls ≤ w.tokens.usdc.allowance (operator, site.factory)

/-- The only exception of a request that is served. -/
def FaucetFailed (e : Exc) : Prop :=
  e = .http ⟨500, "failed to fund operator: faucet transaction failed"⟩

/-- How the parts of a request end with a node that answers. -/
abbrev Serving {α : Type} (named : Named site) (operator : Address) (before : Nat) (cid : Bytes32)
    (p : Script α) (P : α → Platform → Prop) (E : Exc → Prop) (s : Platform) : Prop :=
  Ends (served named operator before cid) (Funded site operator) p P E s

/-- An operation that is served leaves what `good` says. -/
theorem perform_serving {op : Op} {K : Platform → Prop} {P : Answer op → Platform → Prop}
    {E : Exc → Prop} (funded : ∀ w, K w → Funded site operator op w)
    (before' : (served named operator before cid).Keeps K)
    (after : ∀ a, (served named operator before cid).Keeps (P a))
    (valid : (served named operator before cid).valid s) (holds : K s)
    (good : ∀ w a next, Sound site operator w → Rooted w → K w →
      Answers site operator op w (.ok a) next → Serves site operator before op w (.ok a) →
        P a next) : Serving named operator before cid (Program.perform op) P E s := by
  apply Ends.perform (fun w _ now => funded w now) before' after valid holds
  · rintro w a next ⟨sound, rooted⟩ now ⟨answered, serves⟩
    exact good w a next sound rooted now answered serves
  · rintro w e next - - ⟨-, serves⟩
    rcases serves.answered with ⟨a, same⟩
    cases same

/-! ### The parts of the request -/

theorem load_serving (operated : site.External operator) (valid : Sound site operator s ∧ Rooted s)
    (money : Money site operator cid closeTime parent held allows s) {E : Exc → Prop} :
    Serving named operator before cid (Program.perform Op.load)
      (fun _ => Money site operator cid closeTime parent held allows) E s := by
  apply perform_serving (by rintro w - tx ⟨⟩) (money_keeps operated)
    (fun _ => money_keeps operated) valid money
  intro w _ next _ _ now same _
  exact same ▸ now

theorem oracle_serving (operated : site.External operator)
    (valid : Sound site operator s ∧ Rooted s)
    (money : Money site operator cid closeTime parent held allows s) {E : Exc → Prop} :
    Serving named operator before cid oracle (fun court w => court = site.oracle.self ∧
      Money site operator cid closeTime parent held allows w) E s := by
  apply perform_serving (by rintro w - tx ⟨⟩) (money_keeps operated)
    (fun _ => (World.Keeps.const _).and (money_keeps operated)) valid money
  intro w court next _ _ now read _
  rcases Read.answered read with ⟨rfl, rfl⟩
  exact ⟨rfl, now⟩

/-- The market of a free question is not there. -/
theorem readFactoryMarket_serving (operated : site.External operator)
    (valid : Sound site operator s ∧ Rooted s)
    (money : Money site operator cid closeTime parent held allows s) {E : Exc → Prop} :
    Serving named operator before cid (readFactoryMarket cid) (fun found w => found = none ∧
      Money site operator cid closeTime parent held allows w) E s := by
  unfold readFactoryMarket
  apply Ends.bind (Q := fun listed w => listed = false ∧
    Money site operator cid closeTime parent held allows w)
  · apply perform_serving (by rintro w - tx ⟨⟩) (money_keeps operated)
      (fun _ => (World.Keeps.const _).and (money_keeps operated)) valid money
    intro w listed next _ rooted now read _
    rcases Read.answered read with ⟨rfl, rfl⟩
    refine ⟨?_, now⟩
    by_contra present
    exact (rooted cid (Bool.eq_true_of_not_eq_false present)).2 now.free.fresh
  · rintro listed t valid ⟨rfl, now⟩
    exact Ends.pure ((World.Keeps.const _).and (money_keeps operated)) valid ⟨rfl, now⟩

theorem outcomeSlots_serving (operated : site.External operator)
    (valid : Sound site operator s ∧ Rooted s)
    (money : Money site operator cid closeTime parent held allows s) {E : Exc → Prop} :
    Serving named operator before cid (outcomeSlots cid) (fun slots w => slots = 0 ∧
      Money site operator cid closeTime parent held allows w) E s := by
  apply perform_serving (by rintro w - tx ⟨⟩) (money_keeps operated)
    (fun _ => (World.Keeps.const _).and (money_keeps operated)) valid money
  intro w slots next _ _ now read _
  rcases Read.answered read with ⟨rfl, rfl⟩
  exact ⟨now.free.fresh, now⟩

theorem lookUp_serving (operated : site.External operator)
    (same : site.ctf.hashes.conditionId site.oracle.self questionId = cid)
    (valid : Sound site operator s ∧ Rooted s)
    (money : Money site operator cid closeTime parent held allows s) {E : Exc → Prop} :
    Serving named operator before cid (lookUp site.ctf.hashes.conditionId questionId)
      (fun found w => found = .absent ∧
        Money site operator cid closeTime parent held allows w) E s := by
  unfold lookUp
  apply Ends.bind (oracle_serving operated valid money)
  rintro court t valid ⟨rfl, now⟩
  rw [same]
  apply Ends.bind (readFactoryMarket_serving operated valid now)
  rintro found t valid ⟨rfl, now⟩
  apply Ends.bind (outcomeSlots_serving operated valid now)
  rintro slots t valid ⟨rfl, now⟩
  exact Ends.pure ((World.Keeps.const _).and (money_keeps operated)) valid ⟨rfl, now⟩

theorem readMoney_serving (operated : site.External operator)
    (valid : Sound site operator s ∧ Rooted s)
    (money : Money site operator cid closeTime parent held allows s) {E : Exc → Prop} :
    Serving named operator before cid readMoney (fun read w =>
      Money site operator cid closeTime parent read.1 (fun n => n = read.2) w) E s := by
  unfold readMoney
  apply Ends.bind (Q := fun balance w =>
    Money site operator cid closeTime parent balance (fun _ => True) w)
  · apply perform_serving (by rintro w - tx ⟨⟩) (money_keeps operated)
      (fun _ => money_keeps operated) valid money
    intro w balance next _ _ now read _
    rcases Read.answered read with ⟨rfl, rfl⟩
    exact ⟨now.free, Nat.le_refl _, trivial⟩
  · intro balance t valid now
    apply Ends.bind (Q := fun allowed w =>
      Money site operator cid closeTime parent balance (fun n => n = allowed) w)
    · apply perform_serving (by rintro w - tx ⟨⟩) (money_keeps operated)
        (fun _ => money_keeps operated) valid now
      intro w allowed next _ _ now read _
      rcases Read.answered read with ⟨rfl, rfl⟩
      exact ⟨now.free, now.held, rfl⟩
    · intro allowed t valid now
      exact Ends.pure (money_keeps operated) valid now

/-! ### Its transactions -/

variable {seed allowed : Nat}

/-- The faucet gives what was asked for. -/
theorem faucet_money {timestamp amount : Nat}
    (money : Money site operator cid closeTime parent held allows w)
    (step : Platform.Step site w ⟨operator, timestamp, .tokens (.usdc (.faucet amount))⟩ next) :
    Money site operator cid closeTime parent amount allows next := by
  have done := step.done
  simp only [Platform.perform, Tokens.exec, bind_ok, pure_ok] at done
  rcases done with ⟨tokens, ⟨usdc, minted, rfl⟩, rfl⟩
  rcases MockUSDC.mint_spec minted with ⟨gained, -, -, allowance⟩
  refine ⟨money.free.usdc usdc, ?_, ?_⟩
  · rw [gained operator, if_pos rfl]
    exact Nat.le_add_left _ _
  · rw [allowance]
    exact money.allows

/-- After the faucet the operator holds the seed. -/
theorem fund_serving (operated : site.External operator)
    (valid : Sound site operator s ∧ Rooted s)
    (money : Money site operator cid closeTime parent held allows s) :
    Serving named operator before cid (fund seed held)
      (fun _ => Money site operator cid closeTime parent seed allows) FaucetFailed s := by
  unfold fund
  split
  · apply Ends.bind (Q := fun receipt w => receipt.status = 1 →
      Money site operator cid closeTime parent seed allows w)
    · have keeps : ∀ receipt : Receipt, (served named operator before cid).Keeps fun w =>
          receipt.status = 1 → Money site operator cid closeTime parent seed allows w := by
        intro receipt w next valid moved holds mined
        exact money_keeps operated w next valid moved (holds mined)
      refine orFailAny_ends (F := fun _ => False) ?_ keeps fun _ _ none => none.elim
      refine perform_serving ?_ (money_keeps operated) ?_ valid money ?_
      · rintro w - tx ⟨⟩
        exact ⟨Nat.zero_le _, Nat.zero_le _⟩
      · exact keeps
      rintro w receipt next - - now answered - mined
      cases answered with
      | reverted => cases mined
      | mined asked step =>
          cases asked
          exact faucet_money now step
    · intro receipt t valid now
      unfold require
      split
      · exact Ends.raise rfl
      · rename_i mined
        exact Ends.pure (money_keeps operated) valid (now (not_not.mp mined))
  · rename_i enough
    exact Ends.pure (money_keeps operated) valid
      ⟨money.free, (Nat.le_of_not_lt enough).trans money.held, money.allows⟩

/-- The allowance is what was approved. -/
theorem approve_money {timestamp amount : Nat}
    (money : Money site operator cid closeTime parent held allows w)
    (step : Platform.Step site w
      ⟨operator, timestamp, .tokens (.usdc (.approve site.factory amount))⟩ next) :
    Money site operator cid closeTime parent held (fun n => n = amount) next := by
  have done := step.done
  simp only [Platform.perform, Tokens.exec, MockUSDC.exec, bind_ok, pure_ok,
    Except.ok.injEq] at done
  rcases done with ⟨tokens, ⟨usdc, rfl, rfl⟩, rfl⟩
  exact ⟨money.free.usdc _, money.held, Function.update_self _ _ _⟩

/-- An approval never reverts. -/
theorem approve_not_refused {amount : Nat} :
    ¬Refused site operator before (.approve amount) w := by
  rintro ⟨timestamp, -, refused⟩
  exact refused _ rfl _ rfl

/-- After the approval the factory may take the seed. -/
theorem approve_serving (operated : site.External operator) (fits : approveAmount seed < wordSize)
    (valid : Sound site operator s ∧ Rooted s)
    (money : Money site operator cid closeTime parent seed (fun n => n = allowed) s)
    {E : Exc → Prop} :
    Serving named operator before cid (approve seed allowed)
      (fun _ => Money site operator cid closeTime parent seed (fun n => seed ≤ n)) E s := by
  unfold approve
  split
  · apply Ends.bind (Q := fun receipt w => receipt.status = 1 ∧
      Money site operator cid closeTime parent seed (fun n => seed ≤ n) w)
    · refine orFailAny_ends (F := fun _ => False) ?_
        (fun _ => (World.Keeps.const _).and (money_keeps operated)) fun _ _ none => none.elim
      refine perform_serving ?_ (money_keeps operated)
        (fun _ => (World.Keeps.const _).and (money_keeps operated)) valid money ?_
      · rintro w - tx ⟨⟩
        exact ⟨Nat.zero_le _, Nat.zero_le _⟩
      rintro w receipt next - - now answered ⟨receipt', same, refused⟩
      cases same
      cases answered with
      | reverted => exact absurd (refused (by decide)) approve_not_refused
      | mined asked step =>
          cases asked
          have approved := approve_money now step
          refine ⟨rfl, approved.free, approved.held, ?_⟩
          rw [approved.allows]
          exact Nat.le_mul_of_pos_right seed (by decide)
    · rintro receipt t valid ⟨mined, now⟩
      unfold require
      rw [if_neg (not_not.mpr mined)]
      exact Ends.pure (money_keeps operated) valid now
  · rename_i enough
    refine Ends.pure (money_keeps operated) valid ⟨money.free, money.held, ?_⟩
    rw [money.allows]
    exact Nat.le_of_not_lt enough

/-! ### The creation -/

/-- What a request for a market has to be like. -/
structure Sane (unicode : Unicode) (body : Body) (questionId : Bytes32)
    (parent : Option Bytes32) : Prop where
  enough : ammMinLp ≤ body.seedUsdc
  small : body.seedUsdc * wad < wordSize
  short : body.question.length ≤ 256
  typed : body.marketType = 0 ∨ body.marketType = 1
  asked : hex32 unicode body.questionId "question_id" = .ok questionId
  under : parentOf unicode body = .ok parent

variable {unicode : Unicode}

/-- A funded creation goes through before the market closes. -/
theorem createTx_succeeds {timestamp : Nat} (named : Named site) (operated : site.External operator)
    (sound : Sound site operator w) (sane : Sane unicode body questionId parent)
    (money : Money site operator (site.ctf.hashes.conditionId site.oracle.self questionId)
      body.closeTime parent body.seedUsdc (fun n => body.seedUsdc ≤ n) w)
    (later : timestamp < body.closeTime) :
    ∃ call next, (createTx body questionId parent).call site = some call ∧
      Platform.perform site w ⟨operator, timestamp, call⟩ = .ok next := by
  have free := money.free
  have ready : Ready site w operator timestamp body.closeTime
      (site.ctf.hashes.conditionId site.oracle.self questionId) body.seedUsdc 0 :=
    ⟨later, free.registrar, free.unregistered, free.opener, free.absent, sane.enough, sane.small,
      .inr money.allows, money.held⟩
  cases parent with
  | none =>
      have some_seed : body.seedUsdc > 0 := Nat.lt_of_lt_of_le (by decide) sane.enough
      have succeeds : (Creation.primary questionId body.closeTime ⟨body.question, sane.short⟩
          body.seedUsdc).Succeeds site w operator timestamp :=
        (Creation.succeeds_iff named sound operated operated).mpr
          ⟨⟨sound.factory.symm, some_seed⟩, ready, free.fresh⟩
      rcases succeeds with ⟨next, done⟩
      refine ⟨.factory (Creation.primary questionId body.closeTime ⟨body.question, sane.short⟩
        body.seedUsdc).tx, next, ?_, done⟩
      simp only [createTx, OperatorTx.call, dif_pos sane.short]
      rfl
  | some p =>
      rcases wildcard_succeeds ⟨body.question, sane.short⟩ named sound operated ready free.fresh
        (free.under p rfl) with ⟨next, done⟩
      refine ⟨.factory (.createWildcardMarket questionId p body.closeTime
        ⟨body.question, sane.short⟩ body.seedUsdc), next, ?_, done⟩
      simp only [createTx, OperatorTx.call, dif_pos sane.short]

/-- The creation of a market is logged once. -/
theorem createTx_logged {call : Platform.Tx}
    (asked : (createTx body questionId parent).call site = some call) :
    ∃ event, created site call = [event] := by
  cases parent with
  | none =>
      simp only [createTx, OperatorTx.call] at asked
      split at asked
      · cases asked
        exact ⟨_, rfl⟩
      · cases asked
  | some parent =>
      simp only [createTx, OperatorTx.call] at asked
      split at asked
      · cases asked
        exact ⟨_, rfl⟩
      · cases asked

/-- The row of a market that was created as asked. -/
structure Made (cid : Bytes32) (body : Body) (parent : Option Bytes32) (row : ChainRow)
    (w : Platform) : Prop where
  named : row.conditionId = cid
  listed : HasMarket w cid row.market
  asked : Asked body parent row

theorem made_keeps {row : ChainRow} :
    (served named operator before cid).Keeps (Made cid body parent row) := by
  rintro w next - ⟨action, meddled, -⟩ made
  exact ⟨made.named, hasMarket_step meddled.step made.listed, made.asked⟩

theorem sendCreate_serving (operated : site.External operator)
    (sane : Sane unicode body questionId parent)
    (same : site.ctf.hashes.conditionId site.oracle.self questionId = cid)
    (in_time : before ≤ body.closeTime) (valid : Sound site operator s ∧ Rooted s)
    (money : Money site operator cid body.closeTime parent held allows s) :
    Serving named operator before cid (sendCreate body questionId parent)
      (fun answer w => answer.1 = .created ∧ Made cid body parent answer.2 w) FaucetFailed s := by
  have fits : approveAmount body.seedUsdc < wordSize := by
    have small := sane.small
    unfold wad at small
    unfold approveAmount approveHeadroom
    omega
  unfold sendCreate
  apply Ends.bind
  · exact orFailAny_ends (F := fun _ => False) (readMoney_serving operated valid money)
      (fun _ => money_keeps operated) fun _ _ none => none.elim
  intro read t valid money
  apply Ends.bind (fund_serving operated valid money)
  intro _ t valid money
  apply Ends.bind (approve_serving operated fits valid money)
  intro _ t valid money
  apply Ends.bind (Q := fun receipt w => ∃ event, receipt = ⟨1, [event]⟩ ∧
    Made cid body parent event.row w)
  · have keeps : ∀ receipt : Receipt, (served named operator before cid).Keeps fun w =>
        ∃ event, receipt = ⟨1, [event]⟩ ∧ Made cid body parent event.row w := by
      rintro receipt w next valid moved ⟨event, only, made⟩
      exact ⟨event, only, made_keeps w next valid moved made⟩
    refine orFail_ends (F := fun _ => False) ?_ keeps fun _ _ none => none.elim
    refine perform_serving ?_ (money_keeps operated) ?_ valid money ?_
    · rintro w money tx ⟨⟩
      rw [createTx_pulls]
      exact ⟨money.held, money.allows⟩
    · exact keeps
    rintro w receipt next sound - money answered ⟨receipt', read, refused⟩
    cases read
    cases answered with
    | reverted =>
        rcases refused (by decide) with ⟨timestamp, early, fails⟩
        subst same
        rcases createTx_succeeds named operated sound sane money (early.trans_le in_time) with
          ⟨call, next, called, done⟩
        exact absurd done (fails call called next)
    | mined called step =>
        rcases createTx_logged called with ⟨event, only⟩
        have logged : event ∈ created site _ := only ▸ List.mem_singleton_self event
        rcases createTx_created called logged with ⟨named, asks⟩
        refine ⟨event, ?_, named.trans same, ?_, asks⟩
        · rw [only]
        · rw [← same, ← named]
          exact created_listed step logged
  · rintro receipt t valid ⟨event, rfl, made⟩
    apply Ends.bind (Q := fun _ => Made cid body parent event.row)
    · unfold require
      rw [if_neg (not_not.mpr rfl)]
      exact Ends.pure made_keeps valid made
    · intro _ t valid made
      exact Ends.pure ((World.Keeps.const _).and made_keeps) valid ⟨rfl, made⟩

theorem createMarket_serving (named : Named site) (operated : site.External operator)
    (sane : Sane unicode body questionId parent)
    (same : site.ctf.hashes.conditionId site.oracle.self questionId = cid)
    (in_time : before ≤ body.closeTime) (valid : Sound site operator s ∧ Rooted s)
    (free : Free site cid body.closeTime parent s) :
    Serving named operator before cid
      (createMarket unicode site.ctf.hashes.conditionId true body)
      (fun answer w => answer.1 = .created ∧ Made cid body parent answer.2 w) FaucetFailed s := by
  have money : Money site operator cid body.closeTime parent 0 (fun _ => True) s :=
    ⟨free, Nat.zero_le _, trivial⟩
  have typed : ¬(body.marketType ≠ 0 ∧ body.marketType ≠ 1) := by
    have typed := sane.typed
    omega
  unfold createMarket
  rw [if_neg (by decide), if_neg (Nat.not_lt.mpr sane.enough), if_neg typed]
  simp only [sane.asked, sane.under]
  unfold createOnChain
  apply Ends.bind (load_serving operated valid money)
  intro _ t valid money
  apply Ends.bind
  · exact orFail_ends (F := fun _ => False) (lookUp_serving operated same valid money)
      (fun _ => (World.Keeps.const _).and (money_keeps operated)) fun _ _ none => none.elim
  rintro found t valid ⟨rfl, money⟩
  exact sendCreate_serving operated sane same in_time valid money

/-- A node that answers always has an answer. -/
theorem served_answers (operated : site.External operator) (some_time : 0 < before) (op : Op)
    (w : Platform) : ∃ r next, (served named operator before cid).answers op w r next := by
  cases op with
  | transact tx =>
      by_cases mined : ∃ call next, tx.call site = some call ∧
          Platform.perform site w ⟨operator, 0, call⟩ = .ok next
      · rcases mined with ⟨call, next, called, done⟩
        refine ⟨.ok ⟨1, created site call⟩, next, .mined called ⟨operated, done⟩, _, rfl, ?_⟩
        exact fun failed => absurd rfl failed
      · refine ⟨.ok ⟨0, []⟩, w, .reverted, _, rfl, fun _ => ⟨0, some_time, ?_⟩⟩
        intro call called next done
        exact mined ⟨call, next, called, done⟩
  | load => exact ⟨.ok (), w, rfl, (), rfl⟩
  | _ => exact ⟨.ok _, w, ⟨rfl, .inl rfl⟩, _, rfl⟩

/-- With a node that answers, and while only outsiders call the contracts and leave the question's
condition alone, a request for a free question never waits in vain; the balance and the allowance
are up to the seed where it sends the creation; and it ends with the market created as it was asked
for, unless the faucet does not pay the seed. -/
theorem creates_fund_themselves {p : Script (Kind × ChainRow)} (named : Named site)
    (reached : Reachable (Platform.Deployed site operator) (Platform.Proceeds site) s)
    (sane : Sane unicode body questionId parent) (some_time : 0 < before)
    (in_time : before ≤ body.closeTime)
    (free : Free site (site.ctf.hashes.conditionId site.oracle.self questionId) body.closeTime
      parent s)
    (ran : Relation.ReflTransGen
      (served named operator before
        (site.ctf.hashes.conditionId site.oracle.self questionId)).Step
      (s, createMarket unicode site.ctf.hashes.conditionId true body) (t, p)) :
    (∀ op next, p = .call op next → ∃ r w, (served named operator before
      (site.ctf.hashes.conditionId site.oracle.self questionId)).answers op t r w) ∧
    (∀ next, p = .call (.transact (createTx body questionId parent)) next →
      body.seedUsdc ≤ t.tokens.usdc.balanceOf operator ∧
        body.seedUsdc ≤ t.tokens.usdc.allowance (operator, site.factory)) ∧
    ∀ r, p = .done r →
      r = .error (.http ⟨500, "failed to fund operator: faucet transaction failed"⟩) ∨
        ∃ row, r = .ok (.created, row) ∧ Made
          (site.ctf.hashes.conditionId site.oracle.self questionId) body parent row t := by
  rcases reachable_rooted reached with ⟨-, operated, sound, rooted⟩
  have ends := createMarket_serving named operated sane rfl in_time ⟨sound, rooted⟩ free
  refine ⟨?_, ?_, ?_⟩
  · intro op next _
    exact served_answers operated some_time op t
  · rintro next rfl
    have funded := ends.issues ⟨sound, rooted⟩ ran _ rfl
    rw [createTx_pulls] at funded
    exact funded
  · rintro r rfl
    have ending := ends.ended ⟨sound, rooted⟩ ran
    cases r with
    | error e => exact .inl (congrArg Except.error ending)
    | ok answer =>
        rcases answer with ⟨kind, row⟩
        rcases ending with ⟨rfl, made⟩
        exact .inr ⟨row, rfl, made⟩

/-! ### A sample request -/

theorem mine_receipt {timestamp : Nat} {tx : OperatorTx} (early : timestamp < before) :
    ∃ receipt : Receipt, (mine site operator timestamp tx w).1 = .ok receipt ∧
      (receipt.status ≠ 1 → Refused site operator before tx w) := by
  unfold mine
  split
  · rename_i none
    refine ⟨_, rfl, fun _ => ⟨timestamp, early, ?_⟩⟩
    intro call asked
    rw [none] at asked
    cases asked
  · rename_i call asked
    split
    · rename_i why failed
      refine ⟨_, rfl, fun _ => ⟨timestamp, early, ?_⟩⟩
      intro call' asked' next done
      rw [asked] at asked'
      cases asked'
      rw [failed] at done
      cases done
    · exact ⟨_, rfl, fun failed => absurd rfl failed⟩

theorem serve_serves {timestamp : Nat} (early : timestamp < before) (op : Op) (w : Platform) :
    Serves site operator before op w (serve site operator timestamp op w).1 := by
  cases op with
  | transact tx => exact mine_receipt early
  | _ => exact ⟨_, rfl⟩

theorem sample_creates_fund_themselves :
    ∃ t row, Made 7 (Body.sample 8000) none row t := by
  rcases sampleAnswer_played (by decide +kernel : sampleAnswer 8000 sampleWiring =
    some (.created, 8000)) with ⟨w, row, done, played, -⟩
  have reached := sample_reached (by decide) done
  have named : Named .sample := ⟨by decide, by decide, by decide⟩
  have wired : (sampleWiring.foldlM (Platform.perform .sample) Platform.sample).toOption.map
      (fun w => decide (w.oracle.factory = 21 ∧ w.amm.factory = 21 ∧
        w.tokens.ctf.outcomeSlots 7 = 0 ∧ w.oracle.closeTime 7 = 0 ∧
        (w.amm.pools 7).exists = false)) = some true := by
    decide +kernel
  rw [done] at wired
  rcases of_decide_eq_true (Option.some.inj wired) with
    ⟨registrar, opener, fresh, unregistered, absent⟩
  have free : Free .sample (PlatformSite.sample.ctf.hashes.conditionId
      PlatformSite.sample.oracle.self 7) 8000 none w := by
    refine ⟨registrar, opener, fresh, unregistered, absent, ?_⟩
    intro p none
    cases none
  have sane : Sane sampleUnicode (Body.sample 8000) 7 none :=
    ⟨by decide, by decide, by decide, by decide, Body.sample_asks 8000, rfl⟩
  have answers : ∀ op w, (served named 5 1 7).answers op w (serve .sample 5 0 op w).1
      (serve .sample 5 0 op w).2 := fun op w =>
    ⟨serve_answers (by decide) op w, serve_serves (by decide) op w⟩
  have ran := World.play_run answers
    (createMarket sampleUnicode PlatformSite.sample.ctf.hashes.conditionId true
      (Body.sample 8000)) w
  rcases (creates_fund_themselves named reached sane (by decide) (by decide) free ran).2.2 _ rfl
    with failed | ⟨row, -, made⟩
  · have played' : (samplePlay 8000 w).1 = _ := failed
    rw [played] at played'
    cases played'
  · exact ⟨_, row, made⟩

end OverUnder.Backend.OperatorCreate
