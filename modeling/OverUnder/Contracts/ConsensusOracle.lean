/-
Module: OverUnder.Contracts.ConsensusOracle
Purpose: The oracle of `contracts/src/ConsensusOracle.vy` over the outcome tokens
  it resolves and counts votes in. Events are left out. The typed-data digest and
  `ecrecover` are parameters.
Trusted boundary: human-reviewed spec
Main exports: ConsensusOracle, Court, submitAttestation, submitConsensus,
  castVote, resolveFallback, resolveArbitrated, Court.Action, Court.perform,
  Court.Step
-/
import OverUnder.Contracts.ConditionalTokens
import OverUnder.Vyper.Signatures

namespace OverUnder.Contracts

open OverUnder.Vyper

/-- The three agents are counted from 0. -/
instance agentsCounted : NeZero 3 := inferInstance

/-- Storage of ConsensusOracle.vy. Nested maps are keyed by condition and account. -/
structure ConsensusOracle where
  operator : Address
  factory : Address
  agents : Fin 3 → Address
  isAgent : Address → Bool
  closeTime : Bytes32 → Nat
  agentSubmitted : Bytes32 × Address → Bool
  agentOutcome : Bytes32 × Address → Nat
  attestationCount : Bytes32 → Nat
  resolved : Bytes32 → Bool
  voted : Bytes32 × Address → Bool
  voteWeight : Bytes32 → Nat × Nat

/-- The oracle and the tokens it resolves. -/
structure Court where
  tokens : Tokens
  oracle : ConsensusOracle

/-- Where the oracle lives and how it hashes and recovers. -/
structure OracleSite where
  self : Address
  ctf : CtfSite
  apart : self ≠ ctf.self
  /-- `_attest_digest`. -/
  attestDigest : Bytes32 → Nat → Bytes32 → Nat → Nat
  ecrecover : Ecrecover

namespace ConsensusOracle

def window : Nat := 86400

/-- The contract right after deployment. -/
def deployed (operator : Address) (agents : Fin 3 → Address) : ConsensusOracle where
  operator := operator
  factory := zeroAddress
  agents := agents
  isAgent a := decide (∃ i, agents i = a)
  closeTime := fun _ => 0
  agentSubmitted := fun _ => false
  agentOutcome := fun _ => 0
  attestationCount := fun _ => 0
  resolved := fun _ => false
  voted := fun _ => false
  voteWeight := fun _ => (0, 0)

/-- `__init__`. -/
def init (ctf operator : Address) (agents : Fin 3 → Address) : Call ConsensusOracle := do
  require (ctf ≠ zeroAddress ∧ operator ≠ zeroAddress)
  require ((List.finRange 3).all fun i => agents i ≠ zeroAddress)
  return deployed operator agents

def setFactory (x : ConsensusOracle) (sender factory : Address) : Call ConsensusOracle := do
  require (sender = x.operator)
  return { x with factory }

def registerMarket (x : ConsensusOracle) (sender : Address) (conditionId : Bytes32)
    (closeTime : Nat) : Call ConsensusOracle := do
  require (sender = x.factory ∨ sender = x.operator)
  require (closeTime > 0)
  require (x.closeTime conditionId = 0)
  return { x with closeTime := Function.update x.closeTime conditionId closeTime }

/-- `_record`. The count is a `uint8`. -/
def record (x : ConsensusOracle) (conditionId : Bytes32) (agent : Address) (outcome : Nat) :
    Call ConsensusOracle := do
  require (x.isAgent agent = true) (.reason "not agent")
  require (x.agentSubmitted (conditionId, agent) = false) (.reason "dup attestation")
  require (outcome < 2)
  let count := x.attestationCount conditionId + 1
  require (count < 256) .overflow
  return { x with
    agentSubmitted := Function.update x.agentSubmitted (conditionId, agent) true
    agentOutcome := Function.update x.agentOutcome (conditionId, agent) outcome
    attestationCount := Function.update x.attestationCount conditionId count }

/-- `_payouts`. -/
def payouts (outcome : Nat) : Nat × Nat := if outcome = 0 then (1, 0) else (0, 1)

variable (site : OracleSite)

/-- `_resolve`. -/
def resolve (w : Court) (conditionId : Bytes32) (outcome : Nat) : Call Court := do
  require (w.oracle.resolved conditionId = false)
  let oracle := { w.oracle with
    resolved := Function.update w.oracle.resolved conditionId true }
  let ctf ← ConditionalTokens.reportPayouts w.tokens.ctf site.self conditionId
    (payouts outcome)
  return { tokens := { w.tokens with ctf }, oracle }

def submitAttestation (x : ConsensusOracle) (timestamp : Nat) (conditionId : Bytes32)
    (outcome : Nat) (evidenceHash : Bytes32) (deadline : Nat) (sig : Signature) :
    Call ConsensusOracle := do
  require (timestamp ≥ x.closeTime conditionId) (.reason "not closed")
  require (timestamp ≤ deadline)
  let digest := site.attestDigest conditionId outcome evidenceHash deadline
  let agent ← recoverSigner site.ecrecover digest sig
  record x conditionId agent outcome

/-- The loop of `submitConsensus` over the signatures, with the signers seen so far. -/
def recordAll (digest : Nat) (conditionId : Bytes32) (outcome : Nat) :
    ConsensusOracle → List Address → List Signature → Call ConsensusOracle
  | x, _, [] => return x
  | x, seen, sig :: sigs => do
      let agent ← recoverSigner site.ecrecover digest sig
      require (agent ∉ seen) (.reason "dup signer")
      if x.agentSubmitted (conditionId, agent) = false then do
        let x ← record x conditionId agent outcome
        recordAll digest conditionId outcome x (seen ++ [agent]) sigs
      else do
        require (x.agentOutcome (conditionId, agent) = outcome) (.reason "conflict")
        recordAll digest conditionId outcome x (seen ++ [agent]) sigs

def submitConsensus (w : Court) (timestamp : Nat) (conditionId : Bytes32) (outcome : Nat)
    (evidenceHash : Bytes32) (deadline : Nat) (sigs : List Signature) : Call Court := do
  require (timestamp ≥ w.oracle.closeTime conditionId) (.reason "not closed")
  require (timestamp ≤ deadline)
  require (sigs.length = 3) (.reason "need 3 sigs")
  let digest := site.attestDigest conditionId outcome evidenceHash deadline
  let oracle ← recordAll site digest conditionId outcome w.oracle [] sigs
  resolve site { w with oracle } conditionId outcome

/-- `self.voteWeight[conditionId][outcome] += weight` for an outcome below two. -/
def addVote (weights : Nat × Nat) (outcome weight : Nat) : Call (Nat × Nat) :=
  if outcome = 0 then do
    let yes ← uadd weights.1 weight
    return (yes, weights.2)
  else do
    let no ← uadd weights.2 weight
    return (weights.1, no)

def castVote (w : Court) (sender : Address) (timestamp : Nat) (conditionId : Bytes32)
    (outcome : Nat) : Call Court := do
  require (outcome < 2)
  require (w.oracle.resolved conditionId = false)
  require (w.oracle.closeTime conditionId > 0)
  require (timestamp ≥ w.oracle.closeTime conditionId)
  require (w.oracle.voted (conditionId, sender) = false)
  let yesId := ConditionalTokens.pid site.ctf conditionId 0
  let noId := ConditionalTokens.pid site.ctf conditionId 1
  let weight ← uadd (w.tokens.ctf.balanceOf (sender, yesId))
    (w.tokens.ctf.balanceOf (sender, noId))
  require (weight > 0) (.reason "no position")
  let weights ← addVote (w.oracle.voteWeight conditionId) outcome weight
  return { w with oracle := { w.oracle with
    voted := Function.update w.oracle.voted (conditionId, sender) true
    voteWeight := Function.update w.oracle.voteWeight conditionId weights } }

/-- The agents that attested `conditionId` with an outcome satisfying `side`. -/
def agentCount (x : ConsensusOracle) (conditionId : Bytes32) (side : Nat → Bool) : Nat :=
  ((List.finRange 3).filter fun i =>
    x.agentSubmitted (conditionId, x.agents i) &&
      side (x.agentOutcome (conditionId, x.agents i))).length

/-- `_agent_majority`: the outcome when there is one. -/
def agentMajority (x : ConsensusOracle) (conditionId : Bytes32) : Option Nat :=
  if agentCount x conditionId (fun o => o = 0) ≥ 2 then some 0
  else if agentCount x conditionId (fun o => o ≠ 0) ≥ 2 then some 1
  else none

/-- Whether the votes against the agents' outcome send the market to arbitration. -/
def opposed (votes : Nat × Nat) (agentOut : Nat) : Call Unit := do
  let total ← uadd votes.1 votes.2
  if total > 0 then do
    let voteOut := if votes.2 > votes.1 then 1 else 0
    if voteOut ≠ agentOut then do
      let opposing := if agentOut = 0 then votes.2 else votes.1
      let left ← umul opposing 3
      let right ← umul total 2
      require (¬left ≥ right) (.reason "arbitration required")
    else return ()
  else return ()

def resolveFallback (w : Court) (timestamp : Nat) (conditionId : Bytes32) : Call Court := do
  require (w.oracle.resolved conditionId = false)
  let opens ← uadd (w.oracle.closeTime conditionId) window
  require (timestamp ≥ opens) (.reason "window")
  match agentMajority w.oracle conditionId with
  | none => .error (.reason "no agent majority")
  | some agentOut => do
      opposed (w.oracle.voteWeight conditionId) agentOut
      resolve site w conditionId agentOut

def resolveArbitrated (w : Court) (sender : Address) (timestamp : Nat)
    (conditionId : Bytes32) (outcome : Nat) : Call Court := do
  require (sender = w.oracle.operator)
  require (outcome < 2)
  require (w.oracle.resolved conditionId = false)
  let opens ← uadd (w.oracle.closeTime conditionId) window
  require (timestamp ≥ opens)
  resolve site w conditionId outcome

/-- The state-changing entry points of the contract. -/
inductive Tx where
  | setFactory (factory : Address)
  | registerMarket (conditionId : Bytes32) (closeTime : Nat)
  | submitAttestation (conditionId : Bytes32) (outcome : Nat) (evidenceHash : Bytes32)
      (deadline : Nat) (sig : Signature)
  | submitConsensus (conditionId : Bytes32) (outcome : Nat) (evidenceHash : Bytes32)
      (deadline : Nat) (sigs : List Signature)
  | castVote (conditionId : Bytes32) (outcome : Nat)
  | resolveFallback (conditionId : Bytes32)
  | resolveArbitrated (conditionId : Bytes32) (outcome : Nat)

/-- Run one entry point as `sender` in a block of the given time. -/
def exec (w : Court) (sender : Address) (timestamp : Nat) : Tx → Call Court
  | .setFactory factory => do
      let oracle ← setFactory w.oracle sender factory
      return { w with oracle }
  | .registerMarket conditionId closeTime => do
      let oracle ← registerMarket w.oracle sender conditionId closeTime
      return { w with oracle }
  | .submitAttestation conditionId outcome evidenceHash deadline sig => do
      let oracle ← submitAttestation site w.oracle timestamp conditionId outcome evidenceHash
        deadline sig
      return { w with oracle }
  | .submitConsensus conditionId outcome evidenceHash deadline sigs =>
      submitConsensus site w timestamp conditionId outcome evidenceHash deadline sigs
  | .castVote conditionId outcome => castVote site w sender timestamp conditionId outcome
  | .resolveFallback conditionId => resolveFallback site w timestamp conditionId
  | .resolveArbitrated conditionId outcome =>
      resolveArbitrated site w sender timestamp conditionId outcome

end ConsensusOracle

/-! ### Runs of the oracle among other callers -/

/-- A call to the oracle or to one of the token contracts. -/
inductive Court.Action where
  | oracle (sender : Address) (timestamp : Nat) (tx : ConsensusOracle.Tx)
  | tokens (sender : Address) (tx : Tokens.Tx)

def Court.Action.sender : Court.Action → Address
  | .oracle sender _ _ => sender
  | .tokens sender _ => sender

/-- Run one call. -/
def Court.perform (site : OracleSite) (w : Court) : Court.Action → Call Court
  | .oracle sender timestamp tx => ConsensusOracle.exec site w sender timestamp tx
  | .tokens sender tx => do
      let tokens ← Tokens.exec site.ctf w.tokens sender tx
      return { w with tokens }

/-- Neither the oracle nor the outcome-token contract originates a call. -/
def Court.Action.External (site : OracleSite) (action : Court.Action) : Prop :=
  action.sender ≠ site.self ∧ action.sender ≠ site.ctf.self

instance Court.Action.decidableExternal (site : OracleSite) (action : Court.Action) :
    Decidable (action.External site) :=
  inferInstanceAs (Decidable (_ ∧ _))

/-- One call that did not revert, labelled with the call. -/
structure Court.Step (site : OracleSite) (w : Court) (action : Court.Action) (next : Court) :
    Prop where
  outsider : action.External site
  done : Court.perform site w action = .ok next

end OverUnder.Contracts
