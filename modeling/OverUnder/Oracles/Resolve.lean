/-
Module: OverUnder.Oracles.Resolve
Purpose: The resolve jobs: the fallback of `oracles/resolve/fallback.py`, the sports
  resolver of `oracles/resolve/run.py` and the general one of
  `oracles/resolve/general.py`. Logging, the summary of a run and the texts given to the
  agents are left out; matching of team names is a parameter.
Trusted boundary: human-reviewed spec
Main exports: coordinatorRun, Coordinator, runFallback, mirrorChainResolved, resolvedConcurrently,
  persistResolution, sportsRun, generalRun
-/
import Mathlib
import OverUnder.Oracles.Chain

namespace OverUnder.Oracles

open OverUnder.Vyper
open OverUnder.Library
open OverUnder.Contracts
open Program (attempt raise)

/-! ### `consensus/fallback.py` -/

def majority (outcomes : List Nat) : Option Nat :=
  if (outcomes.filter (· = 0)).length ≥ 2 then some 0
  else if (outcomes.filter (· = 1)).length ≥ 2 then some 1
  else none

inductive Combined where
  | agent
  | agree
  | arbitrate
deriving DecidableEq, Repr

def combine (agentOutcome yesWeight noWeight : Nat) : Combined :=
  let total := yesWeight + noWeight
  if total = 0 then .agent
  else
    let voteOut := if yesWeight ≥ noWeight then 0 else 1
    if voteOut = agentOutcome then .agree
    else
      let opposing := if agentOutcome = 0 then noWeight else yesWeight
      if opposing * 3 ≥ total * 2 then .arbitrate else .agent

/-! ### `consensus/coordinator.py` -/

/-- What `Coordinator.run` makes of the reports of its agents, whose names differ. -/
def coordinatorRun (reports : List Report) : Research :=
  let unanimous := decide ((reports.map Report.outcome).dedup.length = 1)
  { unanimous, outcome := if unanimous then reports.head?.map Report.outcome else none, reports }

/-! ### `resolve/fallback.py` -/

/-- `OU_FALLBACK_POLICY`. -/
inductive Policy where
  | manual
  | attest
  | arbitrate
deriving DecidableEq, Repr

def window : Nat := 86400

def attestDeadlineSeconds : Nat := 3600

/-- An agent's attestation on chain, as far as the job knows. -/
structure Slot where
  agent : Address
  submitted : Bool
  outcome : Nat

structure FallbackState where
  resolved : Bool
  closeTime : Nat
  now : Nat
  window : Nat
  agents : List Slot
  votes : Nat × Nat

/-- The keys of the job's agents. `signOne` is `sign_attestation` over the digest of the
oracle, with the agent's key. -/
structure Coordinator (site : OracleSite) where
  address : String → Option Address
  signOne : String → Bytes32 → Nat → Bytes32 → Nat → Signature
  signUnanimous : Bytes32 → Nat → Bytes32 → Nat → Option (List Signature)
  /-- A signature recovers to the address of its key. -/
  recovers : ∀ name agent c outcome evidenceHash deadline, address name = some agent →
    recoverSigner site.ecrecover (site.attestDigest c outcome evidenceHash deadline)
      (signOne name c outcome evidenceHash deadline) = .ok agent

/-- `agents[addr] = ..` of a dict. -/
def putSlot (slots : List Slot) (slot : Slot) : List Slot :=
  if slots.any (fun s => s.agent = slot.agent) then
    slots.map fun s => if s.agent = slot.agent then slot else s
  else slots ++ [slot]

/-- The loop of `fallback_state` over the agents of the oracle. -/
def readSlots (c : Bytes32) : List (Fin 3) → List Slot → Job (List Slot)
  | [], slots => return slots
  | i :: rest, slots => do
      let agent ← agents i
      let submitted ← agentSubmitted c agent
      let outcome ← agentOutcome c agent
      readSlots c rest (putSlot slots ⟨agent, submitted, outcome⟩)

/-- `fallback_state`. -/
def fallbackState (c : Bytes32) : Job FallbackState := do
  let agents ← readSlots c [0, 1, 2] []
  let resolved ← isResolved c
  let closeTime ← onchainCloseTime c
  let now ← chainNow
  let window ← oracleWindow
  let yes ← voteWeight c 0
  let no ← voteWeight c 1
  return ⟨resolved, closeTime, now, window, agents, (yes, no)⟩

/-- What `run_fallback` returns. -/
structure Fragment where
  submitted : Bool
  attested : List String
  outcome : Nat
  matching : Nat
  reason : String
  supporters : Option (List String)
  notes : List String
  path : Option String
  blocker : Option String
  fallbackAt : Option Nat

/-- The locals of the attestation loop. -/
structure Progress where
  slots : List Slot
  attested : List String
  supporters : List String
  notes : List String

/-- `_raced_slot`. -/
def racedSlot (c : Bytes32) (agent : Address) : Job (Option Slot) := do
  match ← attempt (fallbackState c) with
  | .error _ => return none
  | .ok st => return (st.agents.find? fun s => s.agent = agent).filter Slot.submitted

/-- `_resolve_send`: false when another sender resolved first. -/
def resolveSend (label : String) (attested : List String) (c : Bytes32) (call : Job Unit) :
    Job Bool := do
  match ← attempt call with
  | .ok () => return true
  | .error .deferred => raise .deferred
  | .error e => do
      match ← attempt (isResolved c) with
      | .ok true => return false
      | _ => raise (.sendFailed (label ++ ": " ++ e.message) attested)

section

variable {site : OracleSite} (coord : Coordinator site)

/-- The loop of `run_fallback` over the reports that match. -/
def attestAll (c : Bytes32) (derived deadline : Nat) : List Report → Progress → Job Progress
  | [], p => return p
  | report :: rest, p =>
      let name := report.agent
      match coord.address name with
      | none =>
          attestAll c derived deadline rest
            { p with notes := p.notes ++ [name ++ ": missing key for " ++ name] }
      | some agent =>
          match p.slots.find? fun s => s.agent = agent with
          | none =>
              attestAll c derived deadline rest
                { p with notes := p.notes ++ [name ++ ": not an oracle agent"] }
          | some slot =>
              if slot.submitted then
                attestAll c derived deadline rest
                  (if slot.outcome = derived then { p with supporters := p.supporters ++ [name] }
                  else p)
              else do
                let sig := coord.signOne name c derived report.evidenceHash deadline
                match ← attempt (submitAttestation c derived report.evidenceHash deadline sig) with
                | .ok () =>
                    attestAll c derived deadline rest
                      { p with
                        slots := putSlot p.slots ⟨agent, true, derived⟩
                        attested := p.attested ++ [name]
                        supporters := p.supporters ++ [name] }
                | .error .deferred => raise .deferred
                | .error e => do
                    let fresh ← if e.mentions "dup attestation" then racedSlot c agent
                      else pure none
                    match fresh with
                    | none =>
                        raise (.sendFailed ("submitAttestation: " ++ e.message) p.attested)
                    | some slot =>
                        attestAll c derived deadline rest
                          { p with
                            slots := putSlot p.slots slot
                            notes := p.notes ++ [name ++ ": attested concurrently"]
                            supporters := if slot.outcome = derived then p.supporters ++ [name]
                              else p.supporters }

/-- The outcomes attested on chain, as far as the job knows. -/
def attestedOutcomes (slots : List Slot) : List Nat :=
  (slots.filter Slot.submitted).map Slot.outcome

/-- `resolveArbitrated`, when the policy and the blocker allow it. -/
def arbitrate (c : Bytes32) (derived : Nat) (policy : Policy) (allowArbitrate : Bool)
    (base : Fragment) (blocker : String) : Job Fragment :=
  if allowArbitrate ∧ policy = .arbitrate ∧
      blocker ∈ ["no agent majority", "arbitration required"] then do
    let sent ← resolveSend "resolveArbitrated" base.attested c
      (resolveArbitrated c derived)
    if sent then
      return { base with
        submitted := true
        path := some "arbitrated"
        blocker := some blocker
        reason := "arbitrated" }
    else return { base with reason := "already resolved" }
  else return { base with reason := blocker }

def runFallback (c : Bytes32) (derived : Nat) (reports : List Report) (policy : Policy)
    (allowArbitrate : Bool) (basis : String) : Job Fragment := do
  let matching := reports.filter fun r => r.outcome = derived
  let base : Fragment :=
    { submitted := false, attested := [], outcome := derived, matching := matching.length,
      reason := "", supporters := none, notes := [], path := none, blocker := none,
      fallbackAt := none }
  if policy = .manual then return { base with reason := "research mismatch" }
  else do
    let st ← fallbackState c
    if st.resolved then return { base with reason := "already resolved" }
    else if st.closeTime = 0 then return { base with reason := "not registered" }
    else if st.now < st.closeTime + st.window then
      return { base with
        reason := "research mismatch", fallbackAt := some (st.closeTime + st.window) }
    else
      let prior := majority (attestedOutcomes st.agents)
      if prior ≠ none ∧ prior ≠ some derived then
        return { base with reason := "agent majority conflicts " ++ basis }
      else do
        let p ← attestAll coord c derived (st.now + attestDeadlineSeconds) matching
          ⟨st.agents, [], [], []⟩
        let base := { base with
          attested := p.attested, supporters := some p.supporters, notes := p.notes }
        match majority (attestedOutcomes p.slots) with
        | none => arbitrate c derived policy allowArbitrate base "no agent majority"
        | some agentOut =>
            if agentOut ≠ derived then
              return { base with reason := "agent majority conflicts " ++ basis }
            else if combine agentOut st.votes.1 st.votes.2 = .arbitrate then
              arbitrate c derived policy allowArbitrate base "arbitration required"
            else do
              let (ok, why) ← preflightFallback c
              if ok then do
                let sent ← resolveSend "resolveFallback" p.attested c
                  (resolveFallback c)
                if sent then
                  return { base with
                    submitted := true, path := some "fallback", reason := "fallback resolved" }
                else return { base with reason := "already resolved" }
              else arbitrate c derived policy allowArbitrate base why

end

/-! ### Shared by both resolvers -/

/-- What one market comes to. -/
structure Entry where
  conditionId : Bytes32
  ok : Bool
  submitted : Bool
  reason : String
  outcome : Option Nat
  txError : Bool

def Entry.plain (c : Bytes32) (reason : String) : Entry := ⟨c, true, false, reason, none, false⟩

/-- `payout_outcome`. -/
def payoutOutcome (yes no : Nat) : Option Nat :=
  if yes > 0 ∧ no = 0 then some 0
  else if no > 0 ∧ yes = 0 then some 1
  else none

/-- `onchain_outcome`. -/
def onchainOutcome (c : Bytes32) : Job (Option Nat) := do
  let denominator ← payoutDenominator c
  if denominator = 0 then return none
  else do
    let yes ← payoutNumerators c 0
    let no ← payoutNumerators c 1
    return payoutOutcome yes no

def mirrorChainResolved (c : Bytes32) (dbResolved : Bool) : Job Entry :=
  if dbResolved then return .plain c "already resolved"
  else do
    match ← onchainOutcome c with
    | none => return { Entry.plain c "chain resolved, payout unreadable" with ok := false }
    | some outcome => do
        markResolved c outcome
        return { Entry.plain c "already resolved" with outcome := some outcome }

def resolvedConcurrently (c : Bytes32) : Job (Option Entry) := do
  match ← attempt (isResolved c) with
  | .error _ => return none
  | .ok false => return none
  | .ok true => do
      let fragment ← mirrorChainResolved c false
      return some (if fragment.ok then { fragment with reason := "resolved concurrently" }
        else fragment)

def supporterReports (reports : List Report) (fragment : Fragment) : List Report :=
  match fragment.supporters with
  | none => reports
  | some names => reports.filter fun r => r.agent ∈ names ∧ r.outcome = fragment.outcome

def persistResolution (c : Bytes32) (reports : List Report) (outcome : Nat) : Job Entry := do
  let persisted ← attempt (do
    persistAttestations c reports
    markResolved c outcome)
  let reason := match persisted with
    | .ok () => ""
    | .error e => e.message
  return ⟨c, true, true, reason, some outcome, false⟩

/-- The settings of a run and what `config_check` said. -/
structure Config (site : OracleSite) where
  coord : Coordinator site
  policy : Policy
  cap : Nat
  clock : Nat
  /-- `now` was given. -/
  pinned : Bool
  canSubmit : Bool
  delay : Nat
  gatedDelay : Nat
  /-- `OU_GENERAL_RESOLVE_MIN_CONFIDENCE`. -/
  floor : Rat
  yesTeam : String → Option String
  same : String → String → Bool

/-- `effective_now`. -/
def effectiveNow {site : OracleSite} (cfg : Config site) : Job Nat :=
  if cfg.pinned then return cfg.clock
  else do
    let now ← chainNow
    return max cfg.clock now

/-- What is known of a market about to be researched. -/
structure Ready where
  conditionId : Bytes32
  onchainClose : Nat
  /-- The outcome of the score, for the sports resolver. -/
  derived : Option (Fin 2)

/-- The checks before research that both resolvers make last. -/
def mayResearch {site : OracleSite} (cfg : Config site) (researched failed : Nat) (ready : Ready) :
    Job (Entry ⊕ Ready) := do
  let c := ready.conditionId
  if cfg.canSubmit = false then return .inl (.plain c "config mismatch")
  else do
    match ← retryAt c with
    | some _ => return .inl (.plain c "research cooldown")
    | none => do
        let left ← budgetLeft
        if left = false then return .inl (.plain c "budget")
        else if researched ≥ cfg.cap ∨ researched + failed ≥ 2 * cfg.cap then
          return .inl (.plain c "capped")
        else return .inr ready

/-- `unresolved`. -/
def unresolved (c : Bytes32) (entry : Entry) : Job Entry := do
  match ← recordResearch c entry.reason with
  | some _ => return entry
  | none => return entry

/-- Send three signatures, and record what the chain then has. -/
def submitUnanimous {site : OracleSite} (cfg : Config site) (c : Bytes32)
    (reports : List Report) (outcome : Nat) : Job Entry :=
  match reports with
  | [] => raise (.other "list index out of range")
  | first :: _ => do
      let now ← effectiveNow cfg
      let deadline := now + 3600
      match cfg.coord.signUnanimous c outcome first.evidenceHash deadline with
      | none => raise (.other "missing key")
      | some sigs => do
          match ← attempt (submitConsensus c outcome first.evidenceHash deadline sigs) with
          | .ok () => persistResolution c reports outcome
          | .error .deferred => return .plain c "budget"
          | .error _ => do
              match ← resolvedConcurrently c with
              | some raced => return raced
              | none => return { Entry.plain c "tx error" with ok := false, txError := true }

/-- Run the fallback, and record what the chain then has. -/
def settleFallback (c : Bytes32) (derived : Nat) (reports : List Report)
    (fallback : Job Fragment) : Job Entry := do
  match ← attempt fallback with
  | .error .deferred => return .plain c "budget"
  | .error (.sendFailed _ _) =>
      return { Entry.plain c "tx error" with ok := false, txError := true }
  | .error e => raise e
  | .ok fragment =>
      if fragment.submitted then
        persistResolution c (supporterReports reports fragment) derived
      else if fragment.reason = "already resolved" then do
        match ← resolvedConcurrently c with
        | some raced => return raced
        | none => return .plain c fragment.reason
      else unresolved c (.plain c fragment.reason)

/-- The loop of `run` over its markets. -/
def runMarkets {M : Type} (conditionId : M → Bytes32)
    (before : Nat → Nat → M → Job (Entry ⊕ Ready)) (after : Ready → Research → Job Entry) :
    List M → Nat → Nat → List Entry → Job (List Entry)
  | [], _, _, entries => return entries
  | m :: rest, researched, failed, entries => do
      let c := conditionId m
      match ← attempt (before researched failed m) with
      | .error e =>
          runMarkets conditionId before after rest researched failed
            (entries ++ [{ Entry.plain c e.message with ok := false }])
      | .ok (.inl entry) =>
          runMarkets conditionId before after rest researched failed (entries ++ [entry])
      | .ok (.inr ready) => do
          match ← attempt (research c) with
          | .error _ => do
              let exhausted ← budgetExhausted
              if exhausted then
                runMarkets conditionId before after rest researched failed
                  (entries ++ [.plain c "budget"])
              else do
                let _ ← recordResearch c "research error"
                runMarkets conditionId before after rest researched (failed + 1)
                  (entries ++ [{ Entry.plain c "research error" with ok := false }])
          | .ok research => do
              let entry := match ← attempt (after ready research) with
                | .ok entry => entry
                | .error e => { Entry.plain c e.message with ok := false }
              runMarkets conditionId before after rest (researched + 1) failed
                (entries ++ [entry])

/-! ### `resolve/run.py` -/

/-- A sports primary of the operator's view. -/
structure Primary where
  conditionId : Bytes32
  question : String

/-- `score_outcome`. -/
def scoreOutcome (yesTeam : String → Option String) (same : String → String → Bool)
    (question : String) (detail : MarketDetail) : Option (Fin 2) :=
  match yesTeam question, detail.homeScore, detail.awayScore with
  | some yes, some home, some away =>
      if home = away then none
      else if same yes detail.homeLabel then if home > away then some 0 else some 1
      else if same yes detail.awayLabel then if away > home then some 0 else some 1
      else none
  | _, _, _ => none

section

variable {site : OracleSite} (cfg : Config site)

/-- One turn of the loop, up to the research. -/
def sportsBefore (researched failed : Nat) (primary : Primary) : Job (Entry ⊕ Ready) := do
  let c := primary.conditionId
  let detail ← marketDetail c
  let resolved ← isResolved c
  if resolved then do
    let entry ← mirrorChainResolved c detail.resolved
    return .inl entry
  else do
    let onchainClose ← onchainCloseTime c
    if onchainClose = 0 then return .inl (.plain c "not registered")
    else do
      let closeTime := max detail.closeTime onchainClose
      let now ← if cfg.clock < closeTime then effectiveNow cfg else pure cfg.clock
      if now < closeTime then return .inl (.plain c "not closed")
      else if detail.scoreStatus ≠ "final" then return .inl (.plain c "not final")
      else
        match scoreOutcome cfg.yesTeam cfg.same primary.question detail with
        | none => return .inl (.plain c "no score outcome")
        | some derived => mayResearch cfg researched failed ⟨c, onchainClose, some derived⟩

/-- One turn of the loop, after the research. -/
def sportsAfter (ready : Ready) (research : Research) : Job Entry := do
  let c := ready.conditionId
  match ← resolvedConcurrently c, ready.derived with
  | some raced, _ => return raced
  | none, none => return .plain c "no score outcome"
  | none, some derived =>
      if research.unanimous ∧ research.outcome = some derived.val then
        submitUnanimous cfg c research.reports derived
      else if cfg.policy = .manual then unresolved c (.plain c "research mismatch")
      else do
        let now ← chainNow
        if now < ready.onchainClose + window then unresolved c (.plain c "research mismatch")
        else
          settleFallback c derived research.reports
            (runFallback cfg.coord c derived research.reports cfg.policy true "score")

/-- `run` of the sports resolver. -/
def sportsRun (primaries : List Primary) : Job (List Entry) := do
  let canSubmit ← configCheck
  let cfg := { cfg with canSubmit }
  runMarkets Primary.conditionId (sportsBefore cfg) (sportsAfter cfg) primaries 0 0 []

end

/-! ### `resolve/general.py` -/

/-- A market the sports resolver does not own. -/
structure Candidate where
  conditionId : Bytes32
  resolved : Bool
  closeTime : Nat
  resolveAfter : Nat
  marketType : Nat
  /-- `parentConditionId`, of the market or of its card. -/
  parent : Option Bytes32
  cardParent : Option Bytes32
  /-- `is_sports_primary` without being a dual-gate primary. -/
  sportsLooking : Bool

/-- Whose score must be final first, and whether that is a parent. -/
structure Gate where
  subject : Option Bytes32
  parent : Bool

/-- `gate_subject`. -/
def gateSubject (m : Candidate) : Option Gate :=
  if m.marketType = 1 ∨ m.parent ≠ none then some ⟨m.parent.or m.cardParent, true⟩
  else if m.sportsLooking then some ⟨some m.conditionId, false⟩
  else none

/-- `_event_status`, only whether the event is over. -/
def eventStatus (gate : Gate) : Job Bool :=
  match gate.subject with
  | none => return false
  | some subject => do
      let parentResolved ←
        if gate.parent then do
          match ← attempt (isResolved subject) with
          | .ok resolved => pure resolved
          | .error _ => pure false
        else pure false
      if parentResolved then return true
      else do
        match ← attempt (marketDetail subject) with
        | .ok detail =>
            return decide (detail.scoreStatus = "final" ∨ detail.scoreStatus = "cancelled")
        | .error _ => return false

/-- One entry of `_confidences`. -/
def confidence (report : Report) : Rat :=
  match report.confidence with
  | some value => if 0 ≤ value ∧ value ≤ 1 then value else 0
  | none => 0

section

variable {site : OracleSite} (cfg : Config site)

/-- One turn of the loop, up to the research. -/
def generalBefore (researched failed : Nat) (m : Candidate) : Job (Entry ⊕ Ready) := do
  let c := m.conditionId
  let resolved ← isResolved c
  if resolved then do
    let entry ← mirrorChainResolved c m.resolved
    return .inl entry
  else do
    let onchainClose ← onchainCloseTime c
    if onchainClose = 0 then return .inl (.plain c "not registered")
    else do
      let closeTime := max m.closeTime onchainClose
      let gate := gateSubject m
      let resolveAt := if m.resolveAfter ≠ 0 then max closeTime m.resolveAfter
        else closeTime + (if gate.isSome then cfg.gatedDelay else cfg.delay)
      let current ← if cfg.clock ≥ resolveAt then pure cfg.clock else effectiveNow cfg
      if current < closeTime then return .inl (.plain c "not closed")
      else if current < resolveAt then return .inl (.plain c "resolve delay")
      else
        match gate with
        | none => mayResearch cfg researched failed ⟨c, onchainClose, none⟩
        | some gate => do
            let ended ← eventStatus gate
            if ended then mayResearch cfg researched failed ⟨c, onchainClose, none⟩
            else
              return .inl (.plain c (if gate.parent then "parent not final"
                else "event not final"))

/-- One turn of the loop, after the research. -/
def generalAfter (ready : Ready) (research : Research) : Job Entry := do
  let c := ready.conditionId
  let reports := research.reports
  match ← resolvedConcurrently c with
  | some raced => return raced
  | none =>
      if reports = [] ∨ reports.any (fun r => r.outcome ≥ 2) then
        unresolved c (.plain c "undetermined")
      else
        let confident := reports.all fun r => cfg.floor ≤ confidence r
        match research.unanimous && confident, research.outcome with
        | true, some 0 => submitUnanimous cfg c reports 0
        | true, some 1 => submitUnanimous cfg c reports 1
        | _, _ => do
            let reason := if research.unanimous then "low confidence" else "research split"
            if cfg.policy = .manual then unresolved c (.plain c reason)
            else do
              let now ← chainNow
              if now < ready.onchainClose + window then unresolved c (.plain c reason)
              else
                let backed := reports.filter fun r => cfg.floor ≤ confidence r
                match majority (backed.map Report.outcome) with
                | none => unresolved c (.plain c "no confident majority")
                | some agreed =>
                    settleFallback c agreed reports
                      (runFallback cfg.coord c agreed (backed.filter fun r => r.outcome = agreed)
                        cfg.policy false "research")

/-- `run` of the general resolver. -/
def generalRun (items : List Candidate) : Job (List Entry) := do
  let canSubmit ← configCheck
  let cfg := { cfg with canSubmit }
  runMarkets Candidate.conditionId (generalBefore cfg) (generalAfter cfg) items 0 0 []

end

end OverUnder.Oracles
