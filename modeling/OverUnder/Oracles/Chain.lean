/-
Module: OverUnder.Oracles.Chain
Purpose: What the resolve jobs of `oracles/resolve` ask of the chain
  (`oracles/resolve/chain.py`), of the agents and of the API, and how these answer.
  Reads of the chain are truthful at the moment they are made, a send that returns was
  mined, and anything may fail. Anybody else may call the contracts in between.
Trusted boundary: human-reviewed spec
Main exports: Exc, Report, Research, MarketDetail, Op, Answer, Job, Site, answers
-/
import Mathlib
import OverUnder.Contracts.ConsensusOracle
import OverUnder.Library.Interaction
import OverUnder.Library.Reachable

namespace OverUnder.Oracles

open OverUnder.Vyper
open OverUnder.Library
open OverUnder.Contracts

/-- The two outcomes are counted from 0. -/
instance outcomesCounted : NeZero 2 := inferInstance

/-- The exceptions the jobs tell apart. -/
inductive Exc where
  /-- `budget.SendDeferred`: nothing was broadcast. -/
  | deferred
  /-- `SendFailed`. -/
  | sendFailed (message : String) (attested : List String)
  | other (message : String)
deriving Repr, DecidableEq

/-- `str(exc)`. -/
def Exc.message : Exc → String
  | .deferred => "tick budget cannot cover the receipt wait"
  | .sendFailed message _ => message
  | .other message => message

/-- `part in str(exc)`. -/
def Exc.mentions (e : Exc) (part : String) : Bool :=
  (e.message.splitOn part).length > 1

/-- What one agent found. `confidence` is `none` where it is no finite number. -/
structure Report where
  agent : String
  outcome : Nat
  confidence : Option Rat
  evidenceHash : Bytes32

/-- What `Coordinator.run` returns. -/
structure Research where
  unanimous : Bool
  outcome : Option Nat
  reports : List Report

/-- What `GET /markets/{cid}` says of a market and its score. -/
structure MarketDetail where
  resolved : Bool
  closeTime : Nat
  scoreStatus : String
  homeLabel : String
  awayLabel : String
  homeScore : Option Nat
  awayScore : Option Nat

/-- What a job asks for. -/
inductive Op where
  | configCheck
  | isResolved (conditionId : Bytes32)
  | closeTime (conditionId : Bytes32)
  | chainNow
  | agents (i : Fin 3)
  | agentSubmitted (conditionId : Bytes32) (agent : Address)
  | agentOutcome (conditionId : Bytes32) (agent : Address)
  | voteWeight (conditionId : Bytes32) (side : Fin 2)
  | window
  | payoutDenominator (conditionId : Bytes32)
  | payoutNumerators (conditionId : Bytes32) (side : Fin 2)
  /-- `preflight_fallback`, a simulation. -/
  | preflightFallback (conditionId : Bytes32)
  | submitConsensus (conditionId : Bytes32) (outcome : Nat) (evidenceHash : Bytes32)
      (deadline : Nat) (sigs : List Signature)
  | submitAttestation (conditionId : Bytes32) (outcome : Nat) (evidenceHash : Bytes32)
      (deadline : Nat) (sig : Signature)
  | resolveFallback (conditionId : Bytes32)
  | resolveArbitrated (conditionId : Bytes32) (outcome : Nat)
  /-- `Coordinator.run`. -/
  | research (conditionId : Bytes32)
  | marketDetail (conditionId : Bytes32)
  /-- `cooldown.retry_at`. -/
  | retryAt (conditionId : Bytes32)
  /-- `not budget.exhausted() and budget.can_start(..)`. -/
  | budgetLeft
  | budgetExhausted
  | persistAttestations (conditionId : Bytes32) (reports : List Report)
  /-- `cooldown.record_research` and `record_failure`. -/
  | recordResearch (conditionId : Bytes32) (reason : String)
  | markResolved (conditionId : Bytes32) (outcome : Nat)

/-- The type of the answer. -/
def Answer : Op → Type
  | .configCheck | .isResolved _ | .agentSubmitted .. | .budgetLeft | .budgetExhausted => Bool
  | .closeTime _ | .chainNow | .agentOutcome .. | .voteWeight .. | .window
  | .payoutDenominator _ | .payoutNumerators .. => Nat
  | .agents _ => Address
  | .preflightFallback _ => Bool × String
  | .research _ => Research
  | .marketDetail _ => MarketDetail
  | .retryAt _ => Option Nat
  | .recordResearch .. => Option String
  | .submitConsensus .. | .submitAttestation .. | .resolveFallback _ | .resolveArbitrated ..
  | .persistAttestations .. | .markResolved .. => Unit

/-- A job, or a part of one. -/
abbrev Job (α : Type) := Program Op Answer Exc α

/-! ### The calls the jobs make -/

/-- Issue one operation. -/
abbrev ask (op : Op) : Job (Answer op) := Program.perform op

abbrev configCheck : Job Bool := ask .configCheck

abbrev isResolved (c : Bytes32) : Job Bool := ask (.isResolved c)

abbrev onchainCloseTime (c : Bytes32) : Job Nat := ask (.closeTime c)

abbrev chainNow : Job Nat := ask .chainNow

abbrev agents (i : Fin 3) : Job Address := ask (.agents i)

abbrev agentSubmitted (c : Bytes32) (agent : Address) : Job Bool :=
  ask (.agentSubmitted c agent)

abbrev agentOutcome (c : Bytes32) (agent : Address) : Job Nat := ask (.agentOutcome c agent)

abbrev voteWeight (c : Bytes32) (side : Fin 2) : Job Nat := ask (.voteWeight c side)

abbrev oracleWindow : Job Nat := ask .window

abbrev payoutDenominator (c : Bytes32) : Job Nat := ask (.payoutDenominator c)

abbrev payoutNumerators (c : Bytes32) (side : Fin 2) : Job Nat :=
  ask (.payoutNumerators c side)

abbrev preflightFallback (c : Bytes32) : Job (Bool × String) := ask (.preflightFallback c)

abbrev submitConsensus (c : Bytes32) (outcome : Nat) (evidenceHash : Bytes32) (deadline : Nat)
    (sigs : List Signature) : Job Unit :=
  ask (.submitConsensus c outcome evidenceHash deadline sigs)

abbrev submitAttestation (c : Bytes32) (outcome : Nat) (evidenceHash : Bytes32) (deadline : Nat)
    (sig : Signature) : Job Unit :=
  ask (.submitAttestation c outcome evidenceHash deadline sig)

abbrev resolveFallback (c : Bytes32) : Job Unit := ask (.resolveFallback c)

abbrev resolveArbitrated (c : Bytes32) (outcome : Nat) : Job Unit :=
  ask (.resolveArbitrated c outcome)

abbrev research (c : Bytes32) : Job Research := ask (.research c)

abbrev marketDetail (c : Bytes32) : Job MarketDetail := ask (.marketDetail c)

abbrev retryAt (c : Bytes32) : Job (Option Nat) := ask (.retryAt c)

abbrev budgetLeft : Job Bool := ask .budgetLeft

abbrev budgetExhausted : Job Bool := ask .budgetExhausted

abbrev persistAttestations (c : Bytes32) (reports : List Report) : Job Unit :=
  ask (.persistAttestations c reports)

abbrev recordResearch (c : Bytes32) (reason : String) : Job (Option String) :=
  ask (.recordResearch c reason)

abbrev markResolved (c : Bytes32) (outcome : Nat) : Job Unit := ask (.markResolved c outcome)

/-- The contracts the jobs talk to and the account that signs their transactions. -/
structure Site where
  oracle : OracleSite
  operator : Address
  external : operator ≠ oracle.self ∧ operator ≠ oracle.ctf.self
  signed : operator ≠ zeroAddress

/-- A call anybody signed. -/
def anyCall (site : Site) (w next : Court) : Prop :=
  ∃ action, Court.Step site.oracle w action next ∧ action.sender ≠ zeroAddress

/-- A read answers what the chain has, or fails. -/
def Truthful {α : Type} (value : α) (w : Court) (r : Except Exc α) (next : Court) : Prop :=
  next = w ∧ (r = .ok value ∨ ∃ e, r = .error e)

/-- A send that returns was mined among the calls of others; one that raises may have
been mined or may still be. -/
def Sent (site : Site) (tx : ConsensusOracle.Tx) (w : Court) (r : Except Exc Unit)
    (next : Court) : Prop :=
  match r with
  | .ok () => ∃ before after timestamp, Relation.ReflTransGen (anyCall site) w before ∧
      ConsensusOracle.exec site.oracle before site.operator timestamp tx = .ok after ∧
      Relation.ReflTransGen (anyCall site) after next
  | .error _ => Relation.ReflTransGen (anyCall site) w next

/-- The entry of one side. -/
def oneOf (pair : Nat × Nat) (side : Fin 2) : Nat := if side = 0 then pair.1 else pair.2

/-- How an operation is answered. What is no read of the contracts may answer anything. -/
def answers (site : Site) : (op : Op) → Court → Except Exc (Answer op) → Court → Prop
  | .isResolved c, w, r, next => Truthful (w.oracle.resolved c) w r next
  | .closeTime c, w, r, next => Truthful (w.oracle.closeTime c) w r next
  | .agents i, w, r, next => Truthful (w.oracle.agents i) w r next
  | .agentSubmitted c a, w, r, next =>
      Truthful (w.oracle.agentSubmitted (c, a)) w r next
  | .agentOutcome c a, w, r, next =>
      Truthful (w.oracle.agentOutcome (c, a)) w r next
  | .voteWeight c side, w, r, next =>
      Truthful (oneOf (w.oracle.voteWeight c) side) w r next
  | .window, w, r, next => Truthful ConsensusOracle.window w r next
  | .payoutDenominator c, w, r, next =>
      Truthful (w.tokens.ctf.payoutDenominator c) w r next
  | .payoutNumerators c side, w, r, next =>
      Truthful (oneOf (w.tokens.ctf.payoutNumerators c) side) w r next
  | .submitConsensus c o e d sigs, w, r, next => Sent site (.submitConsensus c o e d sigs) w r next
  | .submitAttestation c o e d sig, w, r, next =>
      Sent site (.submitAttestation c o e d sig) w r next
  | .resolveFallback c, w, r, next => Sent site (.resolveFallback c) w r next
  | .resolveArbitrated c o, w, r, next => Sent site (.resolveArbitrated c o) w r next
  | .configCheck, w, _, next | .chainNow, w, _, next | .preflightFallback _, w, _, next
  | .research _, w, _, next | .marketDetail _, w, _, next | .retryAt _, w, _, next
  | .budgetLeft, w, _, next | .budgetExhausted, w, _, next | .persistAttestations .., w, _, next
  | .recordResearch .., w, _, next | .markResolved .., w, _, next => next = w

end OverUnder.Oracles
