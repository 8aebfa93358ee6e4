/-
Module: OverUnder.Proofs.OracleSteps
Purpose: What one call to the oracle, or to the tokens beside it, can do: record
  something without touching votes or resolutions, cast a vote, or resolve a
  condition whose time has come.
Trusted boundary: none
Main exports: Records, Resolves, exec_cases, Court.Initial, tokens_step
-/
import OverUnder.Contracts.ConsensusOracle
import OverUnder.Proofs.FullCollateral

namespace OverUnder.Contracts

open OverUnder.Vyper
open OverUnder.Library

/-- Both contracts were just deployed over a working collateral token. -/
structure Court.Initial (site : OracleSite) (w : Court) : Prop where
  tokens : Tokens.Initial site.ctf w.tokens
  deployed : ∃ operator agents, w.oracle = ConsensusOracle.deployed operator agents

namespace ConsensusOracle

variable {site : OracleSite} {w next : Court} {x x' : ConsensusOracle}
variable {sender : Address} {timestamp : Nat} {c : Bytes32} {outcome : Nat}

/-- Bookkeeping: votes and resolutions stay, and a close time once set stays. -/
structure Records (x x' : ConsensusOracle) : Prop where
  voted : x'.voted = x.voted
  voteWeight : x'.voteWeight = x.voteWeight
  resolved : x'.resolved = x.resolved
  closeTime : ∀ c, x.closeTime c ≠ 0 → x'.closeTime c = x.closeTime c

theorem Records.refl (x : ConsensusOracle) : Records x x := ⟨rfl, rfl, rfl, fun _ _ => rfl⟩

theorem Records.trans {x'' : ConsensusOracle} (first : Records x x') (second : Records x' x'') :
    Records x x'' where
  voted := second.voted.trans first.voted
  voteWeight := second.voteWeight.trans first.voteWeight
  resolved := second.resolved.trans first.resolved
  closeTime c set := by
    have kept := first.closeTime c set
    rw [second.closeTime c (by rw [kept]; exact set), kept]

theorem setFactory_records {factory : Address} (done : setFactory x sender factory = .ok x') :
    Records x x' := by
  simp only [setFactory, bind_ok, require_ok, pure_ok, exists_const] at done
  rcases done with ⟨-, rfl⟩
  exact ⟨rfl, rfl, rfl, fun _ _ => rfl⟩

theorem registerMarket_records {closeTime : Nat}
    (done : registerMarket x sender c closeTime = .ok x') : Records x x' := by
  simp only [registerMarket, bind_ok, require_ok, pure_ok, exists_const] at done
  rcases done with ⟨-, -, fresh, rfl⟩
  refine ⟨rfl, rfl, rfl, fun c' set => ?_⟩
  have other : c' ≠ c := by
    rintro rfl
    exact set fresh
  exact Function.update_of_ne other _ _

/-- Recording an attestation leaves the close times alone, too. -/
theorem record_records {agent : Address} (done : record x c agent outcome = .ok x') :
    Records x x' ∧ x'.closeTime = x.closeTime := by
  simp only [record, bind_ok, require_ok, pure_ok, exists_const] at done
  rcases done with ⟨-, -, -, -, rfl⟩
  exact ⟨⟨rfl, rfl, rfl, fun _ _ => rfl⟩, rfl⟩

theorem recordAll_records {digest : Nat} {seen : List Address} {sigs : List Signature}
    (done : recordAll site digest c outcome x seen sigs = .ok x') :
    Records x x' ∧ x'.closeTime = x.closeTime := by
  induction sigs generalizing x seen with
  | nil =>
      cases done
      exact ⟨.refl _, rfl⟩
  | cons sig sigs ih =>
      simp only [recordAll, bind_ok, require_ok, exists_const] at done
      rcases done with ⟨agent, -, -, done⟩
      split at done
      · simp only [bind_ok] at done
        rcases done with ⟨middle, recorded, rest⟩
        rcases record_records recorded with ⟨first, firstTime⟩
        rcases ih rest with ⟨second, secondTime⟩
        exact ⟨first.trans second, secondTime.trans firstTime⟩
      · simp only [bind_ok, require_ok, exists_const] at done
        exact ih done.2

/-- `c` is resolved here and now, at a block time of at least `opens`. -/
structure Resolves (site : OracleSite) (w next : Court) (c : Bytes32) (outcome : Nat) : Prop where
  unresolved : w.oracle.resolved c = false
  resolved : next.oracle.resolved = Function.update w.oracle.resolved c true
  voted : next.oracle.voted = w.oracle.voted
  voteWeight : next.oracle.voteWeight = w.oracle.voteWeight
  closeTime : next.oracle.closeTime = w.oracle.closeTime
  reported : ConditionalTokens.reportPayouts w.tokens.ctf site.self c (payouts outcome) =
    .ok next.tokens.ctf
  usdc : next.tokens.usdc = w.tokens.usdc

theorem resolve_spec (done : resolve site w c outcome = .ok next) :
    Resolves site w next c outcome := by
  simp only [resolve, bind_ok, require_ok, pure_ok, exists_const] at done
  rcases done with ⟨unresolved, ctf, reported, rfl⟩
  exact ⟨unresolved, rfl, rfl, rfl, rfl, reported, rfl⟩

theorem submitConsensus_spec {evidenceHash : Bytes32} {deadline : Nat} {sigs : List Signature}
    (done : submitConsensus site w timestamp c outcome evidenceHash deadline sigs = .ok next) :
    w.oracle.closeTime c ≤ timestamp ∧ Resolves site w next c outcome := by
  simp only [submitConsensus, bind_ok, require_ok, exists_const] at done
  rcases done with ⟨closed, -, -, oracle, recorded, resolved⟩
  rcases recordAll_records recorded with ⟨records, times⟩
  have settled := resolve_spec resolved
  have before := records.resolved
  exact ⟨closed, by rw [← before]; exact settled.unresolved,
    settled.resolved.trans (by rw [before]), settled.voted.trans records.voted,
    settled.voteWeight.trans records.voteWeight, settled.closeTime.trans times,
    settled.reported, settled.usdc⟩

/-- The fallback path resolves no earlier than a window after the close. -/
theorem resolveFallback_spec (done : resolveFallback site w timestamp c = .ok next) :
    w.oracle.closeTime c + window ≤ timestamp ∧ ∃ o, Resolves site w next c o := by
  simp only [resolveFallback, bind_ok, require_ok, uadd_ok, exists_const] at done
  rcases done with ⟨-, _, ⟨-, rfl⟩, opened, done⟩
  split at done
  · cases done
  · next agentOut _ =>
    simp only [bind_ok] at done
    rcases done with ⟨_, -, resolved⟩
    exact ⟨opened, agentOut, resolve_spec resolved⟩

theorem resolveArbitrated_spec
    (done : resolveArbitrated site w sender timestamp c outcome = .ok next) :
    w.oracle.closeTime c + window ≤ timestamp ∧ Resolves site w next c outcome := by
  simp only [resolveArbitrated, bind_ok, require_ok, uadd_ok, exists_const] at done
  rcases done with ⟨-, -, -, _, ⟨-, rfl⟩, opened, resolved⟩
  exact ⟨opened, resolve_spec resolved⟩

/-- What an account holds of both outcomes of a condition. -/
def holding (site : OracleSite) (w : Court) (c : Bytes32) (account : Address) : Nat :=
  w.tokens.ctf.balanceOf (account, ConditionalTokens.pid site.ctf c 0) +
    w.tokens.ctf.balanceOf (account, ConditionalTokens.pid site.ctf c 1)

/-- The weight of both sides of a vote. -/
def weight (x : ConsensusOracle) (c : Bytes32) : Nat :=
  (x.voteWeight c).1 + (x.voteWeight c).2

/-- A first vote of `sender`, counted with its holding. -/
structure Votes (site : OracleSite) (w next : Court) (sender : Address) (c : Bytes32) : Prop where
  first : w.oracle.voted (c, sender) = false
  voted : next.oracle.voted = Function.update w.oracle.voted (c, sender) true
  counted : weight next.oracle c = weight w.oracle c + holding site w c sender
  others : ∀ c', c' ≠ c → weight next.oracle c' = weight w.oracle c'
  resolved : next.oracle.resolved = w.oracle.resolved
  closeTime : next.oracle.closeTime = w.oracle.closeTime
  tokens : next.tokens = w.tokens

theorem castVote_spec (done : castVote site w sender timestamp c outcome = .ok next) :
    Votes site w next sender c := by
  simp only [castVote, bind_ok, require_ok, uadd_ok, pure_ok, exists_const] at done
  rcases done with ⟨-, -, -, -, first, _, ⟨-, rfl⟩, -, weights, added, rfl⟩
  refine ⟨first, rfl, ?_, ?_, rfl, rfl, rfl⟩
  · unfold addVote at added
    simp only [weight, Function.update_self, holding]
    split at added
    · simp only [bind_ok, uadd_ok, pure_ok] at added
      rcases added with ⟨_, ⟨-, rfl⟩, rfl⟩
      simp only
      omega
    · simp only [bind_ok, uadd_ok, pure_ok] at added
      rcases added with ⟨_, ⟨-, rfl⟩, rfl⟩
      simp only
      omega
  · intro c' other
    simp only [weight, Function.update_of_ne other]

/-- Which condition a call of the oracle tries to resolve, and how long after its close
it may do so at the earliest. -/
def resolving : Tx → Option (Bytes32 × Nat)
  | .submitConsensus conditionId .. => some (conditionId, 0)
  | .resolveFallback conditionId => some (conditionId, window)
  | .resolveArbitrated conditionId _ => some (conditionId, window)
  | _ => none

/-- The three things one call to the oracle can do. -/
theorem exec_cases {tx : Tx} (done : exec site w sender timestamp tx = .ok next) :
    (next.tokens = w.tokens ∧ Records w.oracle next.oracle) ∨
      (∃ c outcome, tx = .castVote c outcome ∧ Votes site w next sender c) ∨
      (∃ c delay outcome, resolving tx = some (c, delay) ∧
        w.oracle.closeTime c + delay ≤ timestamp ∧ Resolves site w next c outcome) := by
  cases tx with
  | setFactory factory =>
      simp only [exec, bind_ok, pure_ok] at done
      rcases done with ⟨oracle, done, rfl⟩
      exact .inl ⟨rfl, setFactory_records done⟩
  | registerMarket c closeTime =>
      simp only [exec, bind_ok, pure_ok] at done
      rcases done with ⟨oracle, done, rfl⟩
      exact .inl ⟨rfl, registerMarket_records done⟩
  | submitAttestation c outcome evidenceHash deadline sig =>
      simp only [exec, submitAttestation, bind_ok, require_ok, pure_ok, exists_const] at done
      rcases done with ⟨oracle, ⟨-, -, agent, -, recorded⟩, rfl⟩
      exact .inl ⟨rfl, (record_records recorded).1⟩
  | submitConsensus c outcome evidenceHash deadline sigs =>
      rcases submitConsensus_spec done with ⟨closed, resolves⟩
      exact .inr (.inr ⟨c, 0, outcome, rfl, closed, resolves⟩)
  | castVote c outcome => exact .inr (.inl ⟨c, outcome, rfl, castVote_spec done⟩)
  | resolveFallback c =>
      rcases resolveFallback_spec done with ⟨opened, outcome, resolves⟩
      exact .inr (.inr ⟨c, window, outcome, rfl, opened, resolves⟩)
  | resolveArbitrated c outcome =>
      rcases resolveArbitrated_spec done with ⟨opened, resolves⟩
      exact .inr (.inr ⟨c, window, outcome, rfl, opened, resolves⟩)

/-- Seen from the tokens, a call to the oracle is no call or the oracle's report. -/
theorem tokens_step {action : Court.Action} (taken : Court.Step site w action next) :
    next.tokens = w.tokens ∨ Tokens.Step site.ctf w.tokens next.tokens := by
  rcases taken with ⟨⟨-, notCtf⟩, done⟩
  cases action with
  | tokens sender tx =>
      simp only [Court.perform, bind_ok, pure_ok] at done
      rcases done with ⟨tokens, done, rfl⟩
      exact .inr (.call sender tx notCtf done)
  | oracle sender timestamp tx =>
      rcases exec_cases done with ⟨same, -⟩ | ⟨c, -, -, votes⟩ |
        ⟨c, delay, outcome, -, -, resolves⟩
      · exact .inl same
      · exact .inl votes.tokens
      · right
        refine .call site.self (.ctf (.reportPayouts c (payouts outcome))) site.apart ?_
        simp only [Tokens.exec, ConditionalTokens.exec, bind_ok, pure_ok]
        refine ⟨_, resolves.reported, ?_⟩
        cases tokens : next.tokens
        rw [← resolves.usdc, tokens]

end ConsensusOracle

/-! ### A sample court -/

theorem OracleSite.sample_apart : (8 : Address) ≠ 9 := by decide

/-- A site for concrete runs whose `ecrecover` reads the signer off `r`. -/
def OracleSite.sample : OracleSite where
  self := 8
  ctf := ⟨9, .paired⟩
  apart := OracleSite.sample_apart
  attestDigest := fun _ outcome _ _ => outcome
  ecrecover := fun _ _ r _ => r.setWidth 160

/-- Fresh contracts with operator 5 and agents 11, 12 and 13. -/
def Court.sample : Court where
  tokens := ⟨.deployed, .deployed⟩
  oracle := .deployed 5 fun i => if i = 0 then 11 else if i = 1 then 12 else 13

theorem Court.sample_initial : Court.Initial .sample .sample :=
  ⟨⟨rfl, MockUSDC.deployed_backed, fun _ => rfl⟩, _, _, rfl⟩

/-- Account 2 splits ten units on condition 7, which this oracle resolves. -/
def Court.sampleSplit : List Court.Action :=
  [.tokens 2 (.usdc (.faucet 10)), .tokens 2 (.usdc (.approve 9 10)),
    .tokens 2 (.ctf (.prepareCondition 8 7)), .tokens 2 (.ctf (.splitPosition 7 10))]

theorem Court.sample_run {calls : List Court.Action} {w : Court}
    (external : ∀ action ∈ calls, action.External .sample)
    (done : calls.foldlM (Court.perform .sample) .sample = .ok w) :
    Run (Court.Step .sample) .sample calls w :=
  Run.execute (fun _ _ _ outsider done => ⟨outsider, done⟩) external done

end OverUnder.Contracts
