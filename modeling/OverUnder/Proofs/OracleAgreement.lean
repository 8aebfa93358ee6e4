/-
Module: OverUnder.Proofs.OracleAgreement
Purpose: The oracle and the outcome tokens agree on every condition the oracle
  answers for: both have it resolved or neither has, with a payout for one side
  only, and for good.
Trusted boundary: none
Main exports: Agreed, Agreed.step, resolution_agrees
-/
import OverUnder.Proofs.OracleSteps

namespace OverUnder.Contracts

open OverUnder.Vyper
open OverUnder.Library

/-- A call somebody signed: the zero address has no key. -/
structure Court.SignedStep (site : OracleSite) (w : Court) (action : Court.Action)
    (next : Court) : Prop extends Court.Step site w action next where
  signed : action.sender ≠ zeroAddress

/-- Both contracts were just deployed, the oracle at an address of its own. -/
structure Court.Deployed (site : OracleSite) (w : Court) : Prop extends Court.Initial site w where
  named : site.self ≠ zeroAddress

namespace ConsensusOracle

/-- The payouts of a condition resolved for one side. -/
def OneSided (ctf : ConditionalTokens) (c : Bytes32) : Prop :=
  ctf.payoutDenominator c = 1 ∧
    (ctf.payoutNumerators c = (1, 0) ∨ ctf.payoutNumerators c = (0, 1))

/-- What the two contracts hold of each other. -/
structure Agreed (site : OracleSite) (w : Court) : Prop where
  named : site.self ≠ zeroAddress
  unprepared : ∀ c, w.tokens.ctf.outcomeSlots c = 0 →
    w.tokens.ctf.oracles c = zeroAddress ∧ w.tokens.ctf.payoutDenominator c = 0
  reported : ∀ c, w.oracle.resolved c = true →
    w.tokens.ctf.oracles c = site.self ∧ OneSided w.tokens.ctf c
  resolved : ∀ c, w.tokens.ctf.oracles c = site.self →
    w.tokens.ctf.payoutDenominator c ≠ 0 → w.oracle.resolved c = true

variable {site : OracleSite} {w next : Court} {action : Court.Action} {c : Bytes32}

theorem initially_agreed (initial : Court.Deployed site w) : Agreed site w := by
  rcases initial.deployed with ⟨operator, agents, oracle⟩
  have fresh := initial.tokens.fresh
  refine ⟨initial.named, fun c _ => ?_, fun c resolved => ?_, fun c _ paid => ?_⟩
  · rw [fresh]
    exact ⟨rfl, rfl⟩
  · rw [oracle] at resolved
    cases resolved
  · rw [fresh] at paid
    exact absurd rfl paid

/-- Steps that touch neither conditions nor resolutions. -/
theorem Agreed.of_same (inv : Agreed site w)
    (conditions : ConditionalTokens.SameConditions w.tokens.ctf next.tokens.ctf)
    (resolved : next.oracle.resolved = w.oracle.resolved) : Agreed site next := by
  refine ⟨inv.named, ?_, ?_, ?_⟩
  · rw [conditions.outcomeSlots, conditions.oracles, conditions.payoutDenominator]
    exact inv.unprepared
  · unfold OneSided
    rw [resolved, conditions.oracles, conditions.payoutDenominator, conditions.payoutNumerators]
    exact inv.reported
  · rw [resolved, conditions.oracles, conditions.payoutDenominator]
    exact inv.resolved

/-- The oracle's own report keeps both sides together. -/
theorem Agreed.of_resolves (inv : Agreed site w) {outcome : Nat}
    (resolves : Resolves site w next c outcome) : Agreed site next := by
  rcases ConditionalTokens.reportPayouts_spec resolves.reported with ⟨mine, open_, -, reported⟩
  have one : (payouts outcome).1 + (payouts outcome).2 = 1 := by
    unfold payouts
    split <;> rfl
  have sided : payouts outcome = (1, 0) ∨ payouts outcome = (0, 1) := by
    unfold payouts
    split
    · exact .inl rfl
    · exact .inr rfl
  refine ⟨inv.named, fun c' fresh => ?_, fun c' resolved => ?_, fun c' mine' paid => ?_⟩
  · rw [reported] at fresh ⊢
    rcases inv.unprepared c' fresh with ⟨nobody, unpaid⟩
    have other : c' ≠ c := by
      rintro rfl
      exact inv.named (mine.trans nobody)
    exact ⟨nobody, (Function.update_of_ne other _ _).trans unpaid⟩
  · unfold OneSided
    rw [reported]
    by_cases here : c' = c
    · subst here
      simp only [Function.update_self, one]
      exact ⟨mine.symm, trivial, sided⟩
    · rw [resolves.resolved, Function.update_of_ne here] at resolved
      simp only [Function.update_of_ne here]
      exact inv.reported c' resolved
  · rw [resolves.resolved]
    by_cases here : c' = c
    · rw [here, Function.update_self]
    · rw [reported] at mine' paid
      simp only [Function.update_of_ne here] at paid ⊢
      exact inv.resolved c' mine' paid

/-- A new condition of anybody has no payouts. -/
theorem Agreed.of_prepares (inv : Agreed site w) {oracle : Address} {questionId cid : Bytes32}
    {tokens : Tokens} (done : ConditionalTokens.prepareCondition site.ctf w.tokens oracle
      questionId = .ok (cid, tokens)) : Agreed site { w with tokens } := by
  rcases ConditionalTokens.prepareCondition_spec done with ⟨-, -, fresh, rfl⟩
  rcases inv.unprepared cid fresh with ⟨nobody, unpaid⟩
  refine ⟨inv.named, fun c' fresh' => ?_, fun c' resolved => ?_, fun c' mine paid => ?_⟩
  · by_cases here : c' = cid
    · subst here
      simp only [Function.update_self] at fresh'
      cases fresh'
    · simp only [Function.update_of_ne here] at fresh' ⊢
      exact inv.unprepared c' fresh'
  · rcases inv.reported c' resolved with ⟨mine, sided⟩
    have other : c' ≠ cid := by
      rintro rfl
      exact inv.named (mine.symm.trans nobody)
    exact ⟨(Function.update_of_ne other _ _).trans mine, sided⟩
  · have other : c' ≠ cid := by
      rintro rfl
      exact paid unpaid
    simp only [Function.update_of_ne other] at mine
    exact inv.resolved c' mine paid

/-- Reports of other oracles concern conditions of theirs. -/
theorem Agreed.of_foreign_report (inv : Agreed site w) {sender : Address} {payouts : Nat × Nat}
    {ctf : ConditionalTokens} (foreign : sender ≠ site.self) (signed : sender ≠ zeroAddress)
    (done : ConditionalTokens.reportPayouts w.tokens.ctf sender c payouts = .ok ctf) :
    Agreed site { w with tokens := { w.tokens with ctf } } := by
  rcases ConditionalTokens.reportPayouts_spec done with ⟨theirs, unpaid, -, rfl⟩
  refine ⟨inv.named, fun c' fresh => ?_, fun c' resolved => ?_, fun c' mine paid => ?_⟩
  · rcases inv.unprepared c' fresh with ⟨nobody, unpaid'⟩
    have other : c' ≠ c := by
      rintro rfl
      exact signed (theirs.trans nobody)
    exact ⟨nobody, (Function.update_of_ne other _ _).trans unpaid'⟩
  · rcases inv.reported c' resolved with ⟨mine, sided⟩
    have other : c' ≠ c := by
      rintro rfl
      exact foreign (theirs.trans mine)
    refine ⟨mine, ?_⟩
    unfold OneSided
    simp only [Function.update_of_ne other]
    exact sided
  · have other : c' ≠ c := by
      rintro rfl
      exact foreign (theirs.trans mine)
    simp only [Function.update_of_ne other] at paid
    exact inv.resolved c' mine paid

theorem Agreed.step (inv : Agreed site w) (taken : Court.SignedStep site w action next) :
    Agreed site next := by
  rcases taken with ⟨⟨⟨foreign, -⟩, done⟩, signed⟩
  cases action with
  | tokens sender tx =>
      simp only [Court.perform, bind_ok, pure_ok] at done
      rcases done with ⟨tokens, done, rfl⟩
      cases tx with
      | usdc tx =>
          simp only [Tokens.exec, bind_ok, pure_ok] at done
          rcases done with ⟨usdc, -, rfl⟩
          exact inv.of_same ⟨rfl, rfl, rfl, rfl⟩ rfl
      | ctf tx =>
          rcases ConditionalTokens.exec_conditions done with
            same | ⟨oracle, questionId, cid, -, prepared⟩ | ⟨c, payouts, reported⟩
          · exact inv.of_same same rfl
          · exact inv.of_prepares prepared
          · have agreed := inv.of_foreign_report foreign signed reported
            exact ⟨agreed.named, agreed.unprepared, agreed.reported, agreed.resolved⟩
  | oracle sender timestamp tx =>
      rcases exec_cases done with ⟨same, records⟩ | ⟨c, _, -, votes⟩ |
        ⟨c, delay, outcome, -, -, resolves⟩
      · exact inv.of_same (by rw [same]; exact ⟨rfl, rfl, rfl, rfl⟩) records.resolved
      · exact inv.of_same (by rw [votes.tokens]; exact ⟨rfl, rfl, rfl, rfl⟩) votes.resolved
      · exact inv.of_resolves resolves

/-- A resolution is never touched again. -/
theorem resolved_stays (taken : Court.Step site w action next)
    (resolved : w.oracle.resolved c = true) (paid : w.tokens.ctf.payoutDenominator c ≠ 0) :
    next.oracle.resolved c = true ∧
      next.tokens.ctf.payoutDenominator c = w.tokens.ctf.payoutDenominator c ∧
      next.tokens.ctf.payoutNumerators c = w.tokens.ctf.payoutNumerators c := by
  rcases taken with ⟨-, done⟩
  cases action with
  | tokens sender tx =>
      simp only [Court.perform, bind_ok, pure_ok] at done
      rcases done with ⟨tokens, done, rfl⟩
      cases tx with
      | usdc tx =>
          simp only [Tokens.exec, bind_ok, pure_ok] at done
          rcases done with ⟨usdc, -, rfl⟩
          exact ⟨resolved, rfl, rfl⟩
      | ctf tx => exact ⟨resolved, ConditionalTokens.exec_keeps_payouts paid done⟩
  | oracle sender timestamp tx =>
      rcases exec_cases done with ⟨same, records⟩ | ⟨c', _, -, votes⟩ |
        ⟨c', delay, outcome, -, -, resolves⟩
      · rw [same, records.resolved]
        exact ⟨resolved, rfl, rfl⟩
      · rw [votes.tokens, votes.resolved]
        exact ⟨resolved, rfl, rfl⟩
      · refine ⟨?_, ConditionalTokens.reportPayouts_other resolves.reported (.inr paid)⟩
        rw [resolves.resolved, Function.update_apply]
        split
        · rfl
        · exact resolved

/-- Over every run the oracle has one of its conditions resolved exactly when the tokens
have its payouts, these are for one side, and no later call changes any of it. -/
theorem resolution_agrees {first later : Court} {calls more : List Court.Action}
    (initial : Court.Deployed site first) (path : Run (Court.SignedStep site) first calls w)
    (rest : Run (Court.SignedStep site) w more later) (c : Bytes32)
    (mine : w.tokens.ctf.oracles c = site.self) :
    (w.oracle.resolved c = true ↔ w.tokens.ctf.payoutDenominator c ≠ 0) ∧
      (w.oracle.resolved c = true →
        (w.tokens.ctf.payoutNumerators c = (1, 0) ∨ w.tokens.ctf.payoutNumerators c = (0, 1)) ∧
        later.oracle.resolved c = true ∧
        later.tokens.ctf.payoutNumerators c = w.tokens.ctf.payoutNumerators c ∧
        later.tokens.ctf.payoutDenominator c = w.tokens.ctf.payoutDenominator c) := by
  have inv : Agreed site w :=
    path.invariant (initially_agreed initial) fun _ _ _ inv taken => inv.step taken
  have paid : w.oracle.resolved c = true → w.tokens.ctf.payoutDenominator c ≠ 0 := by
    intro resolved
    rw [(inv.reported c resolved).2.1]
    exact one_ne_zero
  refine ⟨⟨paid, inv.resolved c mine⟩, fun resolved => ⟨(inv.reported c resolved).2.2, ?_⟩⟩
  apply rest.invariant (I := fun u => u.oracle.resolved c = true ∧
    u.tokens.ctf.payoutNumerators c = w.tokens.ctf.payoutNumerators c ∧
    u.tokens.ctf.payoutDenominator c = w.tokens.ctf.payoutDenominator c)
  · exact ⟨resolved, rfl, rfl⟩
  · rintro a action b ⟨still, numerators, denominator⟩ taken
    have kept := resolved_stays taken.toStep still (by rw [denominator]; exact paid resolved)
    exact ⟨kept.1, kept.2.2.trans numerators, kept.2.1.trans denominator⟩

/-- The theorem over a market the operator arbitrates: later its winner is paid, and another oracle
reports a condition of its own. -/
theorem resolution_agrees_arbitrated :
    ∃ w later : Court, w.oracle.resolved 7 = true ∧ w.tokens.usdc.balanceOf 2 = 0 ∧
      later.tokens.usdc.balanceOf 2 = 10 ∧
      (w.tokens.ctf.payoutNumerators 7 = (1, 0) ∨ w.tokens.ctf.payoutNumerators 7 = (0, 1)) ∧
      later.oracle.resolved 7 = true ∧
      later.tokens.ctf.payoutNumerators 7 = w.tokens.ctf.payoutNumerators 7 := by
  let calls := Court.sampleSplit ++ [.oracle 5 0 (.registerMarket 7 50),
    .oracle 5 90000 (.resolveArbitrated 7 1)]
  let more : List Court.Action := [.tokens 2 (.ctf (.redeemPositions 7 1 10)),
    .tokens 6 (.ctf (.prepareCondition 6 4)), .tokens 6 (.ctf (.reportPayouts 4 (1, 0))),
    .oracle 5 90010 (.registerMarket 3 95000)]
  rcases (ok_of_isOk (by decide +kernel) : ∃ later,
    (calls ++ more).foldlM (Court.perform .sample) .sample = .ok later) with ⟨later, done⟩
  have ends : ((calls ++ more).foldlM (Court.perform .sample) .sample).toOption.map
      (fun w => w.tokens.usdc.balanceOf 2) = some 10 := by
    decide +kernel
  rw [done] at ends
  rw [List.foldlM_append] at done
  rcases bind_ok.mp done with ⟨w, done, after⟩
  have settled : (calls.foldlM (Court.perform .sample) .sample).toOption.map
      (fun w => (w.oracle.resolved 7, w.tokens.ctf.oracles 7, w.tokens.usdc.balanceOf 2)) =
        some (true, 8, 0) := by
    decide +kernel
  rw [done] at settled
  simp only [Except.toOption, Option.map_some, Option.some.injEq, Prod.mk.injEq] at settled ends
  rcases settled with ⟨resolved, mine, unpaid⟩
  have initial : Court.Deployed .sample .sample := ⟨Court.sample_initial, by decide⟩
  have signed : ∀ call ∈ calls, call.External .sample ∧ call.sender ≠ zeroAddress := by
    decide
  have signed' : ∀ call ∈ more, call.External .sample ∧ call.sender ≠ zeroAddress := by
    decide
  have path : Run (Court.SignedStep .sample) .sample calls w :=
    Run.execute (fun _ _ _ admitted done => ⟨⟨admitted.1, done⟩, admitted.2⟩) signed done
  have rest : Run (Court.SignedStep .sample) w more later :=
    Run.execute (fun _ _ _ admitted done => ⟨⟨admitted.1, done⟩, admitted.2⟩) signed' after
  have agrees := (resolution_agrees initial path rest 7 mine).2 resolved
  exact ⟨w, later, resolved, unpaid, ends, agrees.1, agrees.2.1, agrees.2.2.1⟩

end ConsensusOracle

end OverUnder.Contracts
