/-
Module: OverUnder.Proofs.OracleResolution
Purpose: When the oracle resolves a condition. Each resolving entry point waits
  for the close time, and only `castVote` asks whether there is one, so the wait
  means something exactly for the conditions that were registered.
Trusted boundary: none
Main exports: BecomesResolved, InTime, resolution_in_time_iff, RegisteredStep,
  resolved_after_close, unregistered_resolved
-/
import OverUnder.Proofs.OracleSteps

namespace OverUnder.Contracts.ConsensusOracle

open OverUnder.Vyper
open OverUnder.Library

variable (site : OracleSite)

/-- The step resolves `c`, for the oracle or for the tokens it is the oracle of. -/
def BecomesResolved (w next : Court) (c : Bytes32) : Prop :=
  (w.oracle.resolved c = false ∧ next.oracle.resolved c = true) ∨
    (w.tokens.ctf.oracles c = site.self ∧ w.tokens.ctf.payoutDenominator c = 0 ∧
      next.tokens.ctf.payoutDenominator c ≠ 0)

/-- What a resolving call of the oracle tries to resolve, the earliest time after the
close it may do so, and the time of its block. -/
def resolvingCall : Court.Action → Option (Bytes32 × Nat × Nat)
  | .oracle _ timestamp tx => (resolving tx).map fun (c, delay) => (c, delay, timestamp)
  | .tokens .. => none

/-- `c` has a close time, and the call comes late enough after it. -/
def InTime (w : Court) (action : Court.Action) (c : Bytes32) : Prop :=
  0 < w.oracle.closeTime c ∧ ∃ delay timestamp,
    resolvingCall action = some (c, delay, timestamp) ∧
      w.oracle.closeTime c + delay ≤ timestamp

/-- A call that resolves no condition without a close time. -/
def RegisteredStep (w : Court) (action : Court.Action) (next : Court) : Prop :=
  Court.Step site w action next ∧
    ∀ c delay timestamp, resolvingCall action = some (c, delay, timestamp) →
      0 < w.oracle.closeTime c

variable {site} {w next : Court} {action : Court.Action} {c : Bytes32}

/-- Only a resolving call of the oracle resolves one of its conditions, and it waits. -/
theorem becomesResolved_call (taken : Court.Step site w action next)
    (becomes : BecomesResolved site w next c) :
    ∃ delay timestamp, resolvingCall action = some (c, delay, timestamp) ∧
      w.oracle.closeTime c + delay ≤ timestamp := by
  rcases taken with ⟨⟨outsider, -⟩, done⟩
  cases action with
  | tokens sender tx =>
      simp only [Court.perform, bind_ok, pure_ok] at done
      rcases done with ⟨tokens, done, rfl⟩
      rcases becomes with ⟨unresolved, resolved⟩ | ⟨mine, unresolved, resolved⟩
      · rw [unresolved] at resolved
        cases resolved
      · cases tx with
        | usdc tx =>
            simp only [Tokens.exec, bind_ok, pure_ok] at done
            rcases done with ⟨usdc, -, rfl⟩
            exact absurd unresolved resolved
        | ctf tx =>
            rcases ConditionalTokens.exec_payouts done with ⟨same, -⟩ | ⟨c', payouts, reported⟩
            · rw [same] at resolved
              exact absurd unresolved resolved
            -- a report on `c` comes from its oracle, which is not the caller
            · by_cases here : c = c'
              · subst here
                have reporter := (ConditionalTokens.reportPayouts_spec reported).1
                exact absurd (reporter.trans mine) outsider
              · rw [(ConditionalTokens.reportPayouts_other reported (.inl here)).1] at resolved
                exact absurd unresolved resolved
  | oracle sender timestamp tx =>
      rcases exec_cases done with ⟨same, records⟩ | ⟨_, _, -, votes⟩ |
        ⟨c', delay, outcome, calls, opened, resolves⟩
      · rcases becomes with ⟨unresolved, resolved⟩ | ⟨-, unresolved, resolved⟩
        · rw [records.resolved, unresolved] at resolved
          cases resolved
        · rw [same] at resolved
          exact absurd unresolved resolved
      · rcases becomes with ⟨unresolved, resolved⟩ | ⟨-, unresolved, resolved⟩
        · rw [votes.resolved, unresolved] at resolved
          cases resolved
        · rw [votes.tokens] at resolved
          exact absurd unresolved resolved
      · have here : c = c' := by
          by_contra other
          rcases becomes with ⟨unresolved, resolved⟩ | ⟨-, unresolved, resolved⟩
          · rw [resolves.resolved, Function.update_of_ne other, unresolved] at resolved
            cases resolved
          · rw [(ConditionalTokens.reportPayouts_other resolves.reported (.inl other)).1]
              at resolved
            exact absurd unresolved resolved
        subst here
        exact ⟨delay, timestamp, by simp [resolvingCall, calls], opened⟩

/-- A resolution is in time exactly when its condition was registered before. -/
theorem resolution_in_time_iff (taken : Court.Step site w action next)
    (becomes : BecomesResolved site w next c) :
    InTime w action c ↔ 0 < w.oracle.closeTime c := by
  constructor
  · intro inTime
    exact inTime.1
  · intro registered
    exact ⟨registered, becomesResolved_call taken becomes⟩

/-- Close times once set stay, whatever is called. -/
theorem closeTime_stays (taken : Court.Step site w action next)
    (registered : 0 < w.oracle.closeTime c) : 0 < next.oracle.closeTime c := by
  have done := taken.done
  cases action with
  | tokens sender tx =>
      simp only [Court.perform, bind_ok, pure_ok] at done
      rcases done with ⟨tokens, -, rfl⟩
      exact registered
  | oracle sender timestamp tx =>
      rcases exec_cases done with ⟨-, records⟩ | ⟨_, _, -, votes⟩ | ⟨_, _, _, -, -, resolves⟩
      · rw [records.closeTime c registered.ne']
        exact registered
      · rw [votes.closeTime]
        exact registered
      · rw [resolves.closeTime]
        exact registered

/-- In every run whose resolving calls are all on registered conditions, what is resolved
was registered, and each step that resolves a condition comes at or after its close, a
window later on the fallback and arbitrated paths. -/
theorem resolved_after_close {start : Court} {calls : List Court.Action}
    (initial : Court.Initial site start) (path : Run (RegisteredStep site) start calls w) :
    (∀ c, w.oracle.resolved c = true → 0 < w.oracle.closeTime c) ∧
    (∀ action next c, RegisteredStep site w action next → BecomesResolved site w next c →
      InTime w action c) := by
  have inTime : ∀ {w next : Court} {action c}, RegisteredStep site w action next →
      BecomesResolved site w next c → InTime w action c := by
    intro w next action c taken becomes
    rcases becomesResolved_call taken.1 becomes with ⟨delay, timestamp, calls, opened⟩
    exact ⟨taken.2 c delay timestamp calls, delay, timestamp, calls, opened⟩
  refine ⟨?_, fun _ _ _ => inTime⟩
  refine path.invariant
    (I := fun w => ∀ c, w.oracle.resolved c = true → 0 < w.oracle.closeTime c) ?_ ?_
  · intro c resolved
    rcases initial.deployed with ⟨operator, agents, fresh⟩
    rw [fresh] at resolved
    cases resolved
  · intro before action after ih taken c resolved
    by_cases earlier : before.oracle.resolved c = true
    · exact closeTime_stays taken.1 (ih c earlier)
    · have becomes : BecomesResolved site before after c :=
        .inl ⟨Bool.eq_false_of_not_eq_true earlier, resolved⟩
      exact closeTime_stays taken.1 (inTime taken becomes).1

/-- The three sample agents agree on YES for condition 7. -/
def sampleConsensus (timestamp : Nat) : Court.Action :=
  .oracle 2 timestamp (.submitConsensus 7 0 0 100 [.sample 11, .sample 12, .sample 13])

/-- The theorem over a registration at time 50 and a consensus at time 60. -/
theorem resolved_after_close_consensus :
    ∃ w : Court, w.oracle.resolved 7 = true ∧
      (w.oracle.resolved 7 = true → 0 < w.oracle.closeTime 7) := by
  let listing := Court.sampleSplit ++ [.oracle 5 0 (.registerMarket 7 50)]
  obtain ⟨listed, ready⟩ : ∃ w, listing.foldlM (Court.perform .sample) .sample = .ok w :=
    ok_of_isOk (by decide +kernel)
  have close : (listing.foldlM (Court.perform .sample) .sample).toOption.map
      (fun w => w.oracle.closeTime 7) = some 50 := by
    decide +kernel
  obtain ⟨w, done⟩ : ∃ w, (listing ++ [sampleConsensus 60]).foldlM (Court.perform .sample)
      .sample = .ok w := ok_of_isOk (by decide +kernel)
  have value : ((listing ++ [sampleConsensus 60]).foldlM (Court.perform .sample)
      .sample).toOption.map (fun w => w.oracle.resolved 7) = some true := by
    decide +kernel
  rw [ready] at close
  rw [done] at value
  rw [List.foldlM_append, ready] at done
  simp only [bind_ok, List.foldlM_cons, List.foldlM_nil, pure_ok, Except.ok.injEq,
    exists_eq_left'] at done
  rcases done with ⟨_, taken, rfl⟩
  have quiet : ∀ call ∈ listing, call.External .sample ∧ resolvingCall call = none := by
    decide
  have path : Run (RegisteredStep .sample) .sample listing listed :=
    Run.execute (fun _ _ _ admitted done => ⟨⟨admitted.1, done⟩, fun _ _ _ calls => by
      rw [admitted.2] at calls
      cases calls⟩) quiet ready
  have resolves : RegisteredStep .sample listed (sampleConsensus 60) w := by
    refine ⟨⟨by decide, taken⟩, fun c delay timestamp calls => ?_⟩
    obtain rfl : 7 = c := (Prod.mk.inj (Option.some.inj calls)).1
    have fifty : listed.oracle.closeTime 7 = 50 := Option.some.inj close
    rw [fifty]
    decide
  exact ⟨w, Option.some.inj value,
    (resolved_after_close Court.sample_initial (path.snoc resolves)).1 7⟩

/-- Condition 7 is prepared for the oracle but never registered, and a consensus at time
1 resolves it. -/
theorem unregistered_resolved :
    ∃ w next : Court, Court.Initial .sample .sample ∧
      Run (Court.Step .sample) .sample Court.sampleSplit w ∧
      Court.Step .sample w (sampleConsensus 1) next ∧
      BecomesResolved .sample w next 7 ∧ next.tokens.ctf.payoutDenominator 7 = 1 ∧
      w.oracle.closeTime 7 = 0 ∧ ¬InTime w (sampleConsensus 1) 7 := by
  obtain ⟨w, ready⟩ : ∃ w, Court.sampleSplit.foldlM (Court.perform .sample) .sample = .ok w :=
    ok_of_isOk (by decide +kernel)
  obtain ⟨next, done⟩ : ∃ next, (Court.sampleSplit ++ [sampleConsensus 1]).foldlM
      (Court.perform .sample) .sample = .ok next := ok_of_isOk (by decide +kernel)
  have before : (Court.sampleSplit.foldlM (Court.perform .sample) .sample).toOption.map
      (fun w => (w.oracle.resolved 7, w.oracle.closeTime 7)) = some (false, 0) := by
    decide +kernel
  have after : ((Court.sampleSplit ++ [sampleConsensus 1]).foldlM (Court.perform .sample)
      .sample).toOption.map (fun w => (w.oracle.resolved 7, w.tokens.ctf.payoutDenominator 7)) =
      some (true, 1) := by
    decide +kernel
  rw [ready] at before
  rw [done] at after
  simp only [Except.toOption, Option.map_some, Option.some.injEq, Prod.mk.injEq] at before after
  rw [List.foldlM_append, ready] at done
  simp only [bind_ok, List.foldlM_cons, List.foldlM_nil, pure_ok, Except.ok.injEq,
    exists_eq_left'] at done
  rcases done with ⟨_, taken, rfl⟩
  refine ⟨w, next, Court.sample_initial, Court.sample_run (by decide) ready,
    ⟨by decide, taken⟩, .inl ⟨before.1, after.1⟩, after.2, before.2, ?_⟩
  intro inTime
  exact absurd inTime.1 (by rw [before.2]; decide)

end OverUnder.Contracts.ConsensusOracle
