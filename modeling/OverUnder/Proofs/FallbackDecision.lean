/-
Module: OverUnder.Proofs.FallbackDecision
Purpose: The decision of the fallback. The contract counts its agent slots and the jobs
  count addresses, so both decide alike, and as two agents did, exactly when the three
  agents are different.
Trusted boundary: none
Main exports: Attested, Against, Recorded, Awaiting, fallbackSlots, FallbackDecides,
  fallback_decides_iff, one_agent_decides
-/
import OverUnder.Oracles.Resolve
import OverUnder.Proofs.ResolvedOutcomes

namespace OverUnder.Contracts.ConsensusOracle

open OverUnder.Vyper
open OverUnder.Library
open OverUnder.Oracles (Slot Combined putSlot attestedOutcomes majority combine)

variable {site : OracleSite} {w next : Court} {x : ConsensusOracle}
variable {timestamp : Nat} {c : Bytes32} {o : Nat} {votes : Nat × Nat}

/-! ### What the decision is about -/

/-- Two different agents attested the outcome. -/
def Attested (x : ConsensusOracle) (c : Bytes32) (o : Nat) : Prop :=
  ∃ a b, a ≠ b ∧ ∀ agent, agent = a ∨ agent = b →
    x.isAgent agent = true ∧ x.agentSubmitted (c, agent) = true ∧ x.agentOutcome (c, agent) = o

/-- Two thirds of the votes or more are for the other outcome. -/
def Against (votes : Nat × Nat) (o : Nat) : Prop :=
  0 < votes.1 + votes.2 ∧
    (votes.1 + votes.2) * 2 ≤ (if o = 0 then votes.2 else votes.1) * 3

/-- Only agents attest, and only outcomes there are. -/
def Recorded (x : ConsensusOracle) (c : Bytes32) : Prop :=
  ∀ agent, x.agentSubmitted (c, agent) = true →
    x.isAgent agent = true ∧ x.agentOutcome (c, agent) < 2

/-- The checked sums and products of vote weights stay within a word. -/
structure Countable (votes : Nat × Nat) : Prop where
  doubled : (votes.1 + votes.2) * 2 < wordSize
  yes : votes.1 * 3 < wordSize
  no : votes.2 * 3 < wordSize

/-- The condition is this oracle's to resolve and is not resolved. -/
structure Awaiting (site : OracleSite) (w : Court) (c : Bytes32) : Prop where
  unresolved : w.oracle.resolved c = false
  ours : w.tokens.ctf.oracles c = site.self
  unpaid : w.tokens.ctf.payoutDenominator c = 0

/-! ### What calls leave -/

/-- The agents stay, and only they attest. -/
structure SameAgents (x x' : ConsensusOracle) : Prop where
  agents : x'.agents = x.agents
  isAgent : x'.isAgent = x.isAgent
  recorded : ∀ c, Recorded x c → Recorded x' c

theorem SameAgents.refl (x : ConsensusOracle) : SameAgents x x := ⟨rfl, rfl, fun _ => id⟩

theorem SameAgents.trans {x' x'' : ConsensusOracle} (first : SameAgents x x')
    (second : SameAgents x' x'') : SameAgents x x'' where
  agents := second.agents.trans first.agents
  isAgent := second.isAgent.trans first.isAgent
  recorded c before := second.recorded c (first.recorded c before)

theorem record_sameAgents {x' : ConsensusOracle} {agent : Address}
    (done : record x c agent o = .ok x') : SameAgents x x' := by
  simp only [record, bind_ok, require_ok, pure_ok, exists_const] at done
  rcases done with ⟨isOne, -, binary, -, rfl⟩
  refine ⟨rfl, rfl, fun c' before a submitted => ?_⟩
  by_cases same : (c', a) = (c, agent)
  · rcases Prod.mk.inj same with ⟨rfl, rfl⟩
    simp only [Function.update_self]
    exact ⟨isOne, binary⟩
  · simp only [Function.update_of_ne same] at submitted ⊢
    exact before a submitted

theorem recordAll_sameAgents {x' : ConsensusOracle} {digest : Nat} {seen : List Address}
    {sigs : List Signature} (done : recordAll site digest c o x seen sigs = .ok x') :
    SameAgents x x' := by
  induction sigs generalizing x seen with
  | nil =>
      cases done
      exact .refl _
  | cons sig sigs ih =>
      simp only [recordAll, bind_ok, require_ok, exists_const] at done
      rcases done with ⟨agent, -, -, done⟩
      split at done
      · simp only [bind_ok] at done
        rcases done with ⟨middle, recorded, rest⟩
        exact (record_sameAgents recorded).trans (ih rest)
      · simp only [bind_ok, require_ok, exists_const] at done
        exact ih done.2

theorem resolve_sameAgents (done : resolve site w c o = .ok next) :
    SameAgents w.oracle next.oracle := by
  simp only [resolve, bind_ok, require_ok, pure_ok, exists_const] at done
  rcases done with ⟨-, ctf, -, rfl⟩
  exact ⟨rfl, rfl, fun _ => id⟩

theorem exec_sameAgents {sender : Address} {tx : Tx}
    (done : exec site w sender timestamp tx = .ok next) : SameAgents w.oracle next.oracle := by
  cases tx with
  | setFactory factory =>
      simp only [exec, setFactory, bind_ok, require_ok, pure_ok, exists_const] at done
      rcases done with ⟨oracle, ⟨-, rfl⟩, rfl⟩
      exact ⟨rfl, rfl, fun _ => id⟩
  | registerMarket c closeTime =>
      simp only [exec, registerMarket, bind_ok, require_ok, pure_ok, exists_const] at done
      rcases done with ⟨oracle, ⟨-, -, -, rfl⟩, rfl⟩
      exact ⟨rfl, rfl, fun _ => id⟩
  | submitAttestation c outcome evidenceHash deadline sig =>
      simp only [exec, submitAttestation, bind_ok, require_ok, pure_ok, exists_const] at done
      rcases done with ⟨oracle, ⟨-, -, agent, -, recorded⟩, rfl⟩
      exact record_sameAgents recorded
  | submitConsensus c outcome evidenceHash deadline sigs =>
      simp only [exec, submitConsensus, bind_ok, require_ok, exists_const] at done
      rcases done with ⟨-, -, -, oracle, recorded, resolved⟩
      exact (recordAll_sameAgents recorded).trans (resolve_sameAgents resolved)
  | castVote c outcome =>
      simp only [exec, castVote, bind_ok, require_ok, uadd_ok, pure_ok, exists_const] at done
      rcases done with ⟨-, -, -, -, -, _, -, -, weights, -, rfl⟩
      exact ⟨rfl, rfl, fun _ => id⟩
  | resolveFallback c =>
      simp only [exec, resolveFallback, bind_ok, require_ok, uadd_ok, exists_const] at done
      rcases done with ⟨-, _, -, -, done⟩
      split at done
      · cases done
      · simp only [bind_ok] at done
        rcases done with ⟨_, -, resolved⟩
        exact resolve_sameAgents resolved
  | resolveArbitrated c outcome =>
      simp only [exec, resolveArbitrated, bind_ok, require_ok, uadd_ok, exists_const] at done
      rcases done with ⟨-, -, -, _, -, -, resolved⟩
      exact resolve_sameAgents resolved

/-- In every run the attestations recorded are those of the agents the oracle was deployed
with. -/
theorem run_sameAgents {start : Court} {labels : List Court.Action}
    (path : Run (Court.Step site) start labels w) : SameAgents start.oracle w.oracle := by
  apply path.invariant (I := fun w => SameAgents start.oracle w.oracle) (.refl _)
  rintro w action next before ⟨-, done⟩
  cases action with
  | tokens sender tx =>
      simp only [Court.perform, bind_ok, pure_ok] at done
      rcases done with ⟨tokens, -, rfl⟩
      exact before
  | oracle sender timestamp tx => exact before.trans (exec_sameAgents done)

/-! ### Two of three slots -/

theorem two_of_agentCount {side : Nat → Bool} (enough : 2 ≤ agentCount x c side) :
    ∃ i j : Fin 3, i ≠ j ∧ ∀ k, k = i ∨ k = j →
      x.agentSubmitted (c, x.agents k) = true ∧ side (x.agentOutcome (c, x.agents k)) = true := by
  unfold agentCount at enough
  have distinct := (List.nodup_finRange 3).filter fun i =>
    x.agentSubmitted (c, x.agents i) && side (x.agentOutcome (c, x.agents i))
  have attested : ∀ k ∈ (List.finRange 3).filter fun i =>
      x.agentSubmitted (c, x.agents i) && side (x.agentOutcome (c, x.agents i)),
      x.agentSubmitted (c, x.agents k) = true ∧ side (x.agentOutcome (c, x.agents k)) = true := by
    intro k member
    simpa using (List.mem_filter.mp member).2
  generalize (List.finRange 3).filter _ = slots at enough distinct attested
  match slots, enough with
  | i :: j :: rest, _ =>
      refine ⟨i, j, fun same => ?_, fun k either => attested k ?_⟩
      · simp [same] at distinct
      · rcases either with rfl | rfl <;> simp

/-- With three different agents two slots are two agents. -/
theorem agentMajority_iff (agents : ∀ a, x.isAgent a = true ↔ ∃ i, x.agents i = a)
    (distinct : Function.Injective x.agents) (recorded : Recorded x c) :
    agentMajority x c = some o ↔ Attested x c o := by
  constructor
  · intro decided
    have chosen : ∃ side : Nat → Bool, 2 ≤ agentCount x c side ∧
        ∀ outcome, outcome < 2 → side outcome = true → outcome = o := by
      unfold agentMajority at decided
      split at decided
      · next enough =>
        refine ⟨_, enough, fun outcome _ same => ?_⟩
        rw [← Option.some.inj decided]
        exact of_decide_eq_true same
      · split at decided
        · next enough =>
          refine ⟨_, enough, fun outcome binary other => ?_⟩
          have nonzero : outcome ≠ 0 := of_decide_eq_true other
          rw [← Option.some.inj decided]
          omega
        · cases decided
    rcases chosen with ⟨side, enough, only⟩
    rcases two_of_agentCount enough with ⟨i, j, apart, attested⟩
    refine ⟨x.agents i, x.agents j, fun same => apart (distinct same), ?_⟩
    have each : ∀ k, k = i ∨ k = j → x.isAgent (x.agents k) = true ∧
        x.agentSubmitted (c, x.agents k) = true ∧ x.agentOutcome (c, x.agents k) = o := by
      intro k either
      rcases attested k either with ⟨submitted, sided⟩
      rcases recorded _ submitted with ⟨isOne, binary⟩
      exact ⟨isOne, submitted, only _ binary sided⟩
    rintro agent (rfl | rfl)
    · exact each i (.inl rfl)
    · exact each j (.inr rfl)
  · rintro ⟨a, b, apart, attested⟩
    rcases attested a (.inl rfl) with ⟨aIs, aSubmitted, aOutcome⟩
    rcases attested b (.inr rfl) with ⟨bIs, bSubmitted, bOutcome⟩
    rcases (agents a).mp aIs with ⟨i, rfl⟩
    rcases (agents b).mp bIs with ⟨j, rfl⟩
    have side : o < 2 := aOutcome ▸ (recorded _ aSubmitted).2
    refine agentMajority_of_two (i := i) (j := j) (fun same => apart (by rw [same])) side ?_
    rintro k (rfl | rfl)
    · exact ⟨aSubmitted, aOutcome⟩
    · exact ⟨bSubmitted, bOutcome⟩

/-! ### The same count off the chain -/

/-- The slot of one agent. -/
def slotOf (x : ConsensusOracle) (c : Bytes32) (i : Fin 3) : Slot :=
  ⟨x.agents i, x.agentSubmitted (c, x.agents i), x.agentOutcome (c, x.agents i)⟩

/-- The `agents` of `fallback_state`, a dict keyed by address. -/
def fallbackSlots (x : ConsensusOracle) (c : Bytes32) : List Slot :=
  (List.finRange 3).foldl (fun slots i => putSlot slots (slotOf x c i)) []

/-- Different agents have slots of their own. -/
theorem fallbackSlots_eq (distinct : Function.Injective x.agents) :
    fallbackSlots x c = (List.finRange 3).map (slotOf x c) := by
  have apart : ∀ i j : Fin 3, i ≠ j → x.agents i ≠ x.agents j :=
    fun i j other same => other (distinct same)
  have three : List.finRange 3 = [0, 1, 2] := rfl
  simp [fallbackSlots, three, putSlot, slotOf, apart 0 1 (by decide), apart 0 2 (by decide),
    apart 1 2 (by decide)]

theorem attestedOutcomes_count (slots : List (Fin 3)) (side : Nat → Bool) :
    ((attestedOutcomes (slots.map (slotOf x c))).filter side).length =
      (slots.filter fun i => x.agentSubmitted (c, x.agents i) &&
        side (x.agentOutcome (c, x.agents i))).length := by
  induction slots with
  | nil => rfl
  | cons i rest ih =>
      unfold attestedOutcomes at ih ⊢
      simp only [List.map_cons, List.filter_cons, slotOf] at ih ⊢
      cases submitted : x.agentSubmitted (c, x.agents i) with
      | false =>
          simp only [Bool.false_eq_true, if_false, Bool.false_and]
          exact ih
      | true =>
          cases sided : side (x.agentOutcome (c, x.agents i)) with
          | false => simp only [if_true, List.map_cons, List.filter_cons, sided, Bool.false_eq_true,
              if_false, Bool.and_false]; exact ih
          | true =>
              simp only [if_true, List.map_cons, List.filter_cons, sided, Bool.and_true,
                List.length_cons]
              rw [ih]

/-- The jobs find the majority of the contract. -/
theorem majority_eq (distinct : Function.Injective x.agents) (recorded : Recorded x c) :
    majority (attestedOutcomes (fallbackSlots x c)) = agentMajority x c := by
  have no : agentCount x c (fun o => o = 1) = agentCount x c (fun o => o ≠ 0) := by
    unfold agentCount
    congr 1
    apply List.filter_congr
    intro i _
    cases submitted : x.agentSubmitted (c, x.agents i) with
    | false => rfl
    | true =>
        have binary := (recorded _ submitted).2
        simp only [Bool.true_and, decide_eq_decide]
        omega
  unfold majority agentMajority
  rw [fallbackSlots_eq distinct, attestedOutcomes_count, attestedOutcomes_count, ← no]
  rfl

/-- Two thirds against the agents cannot be the smaller side. -/
theorem combine_arbitrate_iff :
    combine o votes.1 votes.2 = .arbitrate ↔ Against votes o := by
  unfold combine Against
  dsimp only
  by_cases none : votes.1 + votes.2 = 0
  · rw [if_pos none]
    exact ⟨nofun, fun against => absurd against.1 (by omega)⟩
  · rw [if_neg none]
    by_cases agrees : (if votes.1 ≥ votes.2 then 0 else 1) = o
    · rw [if_pos agrees]
      refine ⟨nofun, fun against => ?_⟩
      have heavy := against.2
      split_ifs at agrees heavy <;> omega
    · rw [if_neg agrees]
      generalize (if o = 0 then votes.2 else votes.1) = opposing
      by_cases heavy : opposing * 3 ≥ (votes.1 + votes.2) * 2
      · rw [if_pos heavy]
        exact ⟨fun _ => ⟨Nat.pos_of_ne_zero none, heavy⟩, fun _ => rfl⟩
      · rw [if_neg heavy]
        exact ⟨nofun, fun against => absurd against.2 heavy⟩

/-- The jobs expect the refusal of the contract. -/
theorem opposed_eq (countable : Countable votes) :
    opposed votes o = if combine o votes.1 votes.2 = .arbitrate
      then .error (.reason "arbitration required") else .ok () := by
  rcases votes with ⟨yes, no⟩
  rcases countable with ⟨doubled, yesTripled, noTripled⟩
  have total : yes + no < wordSize := by omega
  unfold opposed combine
  simp only [uadd, if_pos total, bind, Except.bind]
  by_cases voted : yes + no = 0
  · rw [if_neg (by omega), if_pos voted]
    rfl
  · rw [if_pos (by omega), if_neg voted]
    have sameSide : (if no > yes then 1 else 0) = if yes ≥ no then 0 else 1 := by
      split_ifs <;> omega
    rw [sameSide]
    by_cases agrees : (if yes ≥ no then 0 else 1) = o
    · rw [if_neg (not_not.mpr agrees), if_pos agrees]
      rfl
    · rw [if_pos agrees, if_neg agrees]
      have tripled : (if o = 0 then no else yes) * 3 < wordSize := by
        split <;> omega
      simp only [umul, if_pos tripled, if_pos doubled]
      generalize (if o = 0 then no else yes) * 3 = left
      by_cases heavy : left ≥ (yes + no) * 2
      · rw [if_pos heavy, if_pos rfl]
        exact if_neg (not_not.mpr heavy)
      · rw [if_neg heavy, if_neg (by intro same; cases same)]
        exact if_pos heavy

/-! ### The call -/

theorem resolve_succeeds (awaiting : Awaiting site w c) :
    ∃ next, resolve site w c o = .ok next := by
  have sum : (payouts o).1 + (payouts o).2 = 1 := by
    unfold payouts
    split <;> rfl
  simp only [resolve, ConditionalTokens.reportPayouts, bind_ok, require_ok, uadd_ok, pure_ok,
    exists_const]
  exact ⟨_, awaiting.unresolved, _, ⟨awaiting.ours.symm, awaiting.unpaid, _,
    ⟨by rw [sum]; decide, rfl⟩, by rw [sum]; decide, rfl⟩, rfl⟩

theorem Resolves.awaiting (resolves : Resolves site w next c o) : Awaiting site w c := by
  rcases ConditionalTokens.reportPayouts_spec resolves.reported with ⟨ours, unpaid, -⟩
  exact ⟨resolves.unresolved, ours.symm, unpaid⟩

theorem Resolves.pays (resolves : Resolves site w next c o) :
    next.tokens.ctf.payoutNumerators c = payouts o ∧ next.tokens.ctf.payoutDenominator c = 1 := by
  rcases ConditionalTokens.reportPayouts_spec resolves.reported with ⟨-, -, -, changed⟩
  rw [changed]
  simp only [Function.update_self]
  refine ⟨trivial, ?_⟩
  unfold payouts
  split <;> rfl

/-- The decision of the fallback: when a call succeeds, what it resolves to, and what the
jobs expect of it. -/
structure FallbackDecides (site : OracleSite) (w : Court) (timestamp : Nat) (c : Bytes32) :
    Prop where
  succeeds : (∃ next, resolveFallback site w timestamp c = .ok next) ↔
    Awaiting site w c ∧ w.oracle.closeTime c + window ≤ timestamp ∧
      ∃ o, Attested w.oracle c o ∧ ¬ Against (w.oracle.voteWeight c) o
  resolves : ∀ next o, resolveFallback site w timestamp c = .ok next → Attested w.oracle c o →
    next.tokens.ctf.payoutNumerators c = payouts o ∧ next.tokens.ctf.payoutDenominator c = 1
  predicted : ∀ o, majority (attestedOutcomes (fallbackSlots w.oracle c)) = some o ↔
    Attested w.oracle c o
  verdict : ∀ o, Attested w.oracle c o →
    (combine o (w.oracle.voteWeight c).1 (w.oracle.voteWeight c).2 = .arbitrate ↔
      opposed (w.oracle.voteWeight c) o = .error (.reason "arbitration required"))

theorem fallback_decides (agents : ∀ a, w.oracle.isAgent a = true ↔ ∃ i, w.oracle.agents i = a)
    (distinct : Function.Injective w.oracle.agents) (recorded : Recorded w.oracle c)
    (countable : Countable (w.oracle.voteWeight c)) (clock : timestamp < wordSize) :
    FallbackDecides site w timestamp c := by
  have decided : ∀ o, agentMajority w.oracle c = some o ↔ Attested w.oracle c o :=
    fun o => agentMajority_iff agents distinct recorded
  constructor
  · constructor
    · rintro ⟨next, done⟩
      have opened := (resolveFallback_spec done).1
      simp only [resolveFallback, bind_ok, require_ok, uadd_ok, exists_const] at done
      rcases done with ⟨-, _, -, -, done⟩
      split at done
      · cases done
      · next o majority =>
        simp only [bind_ok] at done
        rcases done with ⟨_, unopposed, resolved⟩
        have attested := (decided o).mp majority
        rw [opposed_eq countable] at unopposed
        refine ⟨(resolve_spec resolved).awaiting, opened, o, attested, fun against => ?_⟩
        rw [if_pos (combine_arbitrate_iff.mpr against)] at unopposed
        cases unopposed
    · rintro ⟨awaiting, opened, o, attested, free⟩
      have unopposed : opposed (w.oracle.voteWeight c) o = .ok () := by
        rw [opposed_eq countable, if_neg]
        exact fun heavy => free (combine_arbitrate_iff.mp heavy)
      rcases resolve_succeeds (o := o) awaiting with ⟨next, resolved⟩
      refine ⟨next, ?_⟩
      simp only [resolveFallback, bind_ok, require_ok, uadd_ok, exists_const,
        (decided o).mpr attested]
      exact ⟨awaiting.unresolved, _, ⟨lt_of_le_of_lt opened clock, rfl⟩, opened, (), unopposed,
        resolved⟩
  · intro next o done attested
    exact (resolveFallback_majority ((decided o).mpr attested) done).pays
  · intro o
    rw [majority_eq distinct recorded]
    exact decided o
  · intro o attested
    rw [opposed_eq countable]
    split
    · next heavy => simp [heavy]
    · next light => simp [light]

/-! ### One agent in two slots -/

/-- One agent of the oracle attested YES for a condition nobody voted on. -/
def loneAttestation (site : OracleSite) (x : ConsensusOracle) (c : Bytes32) (agent : Address) :
    Court where
  tokens := ⟨.deployed, { ConditionalTokens.deployed with oracles := fun _ => site.self }⟩
  oracle := { x with
    closeTime := fun _ => 0
    agentSubmitted := fun key => decide (key = (c, agent))
    agentOutcome := fun _ => 0
    resolved := fun _ => false
    voteWeight := fun _ => (0, 0) }

/-- The constructor takes an agent twice, and its one attestation then resolves. -/
theorem loneAttestation_resolves {i j : Fin 3} (apart : i ≠ j) (same : x.agents i = x.agents j) :
    ∃ next, resolveFallback site (loneAttestation site x c (x.agents i)) window c = .ok next := by
  have majority : agentMajority (loneAttestation site x c (x.agents i)).oracle c = some 0 := by
    apply agentMajority_of_two apart (by decide)
    rintro k (rfl | rfl)
    · exact ⟨decide_eq_true rfl, rfl⟩
    · exact ⟨decide_eq_true (by rw [same]; rfl), rfl⟩
  have awaiting : Awaiting site (loneAttestation site x c (x.agents i)) c := ⟨rfl, rfl, rfl⟩
  rcases resolve_succeeds (o := 0) awaiting with ⟨next, resolved⟩
  refine ⟨next, ?_⟩
  simp only [resolveFallback, bind_ok, require_ok, uadd_ok, exists_const, majority]
  have opens : (loneAttestation site x c (x.agents i)).oracle.closeTime c + window = window :=
    Nat.zero_add window
  rw [opens]
  exact ⟨rfl, window, ⟨by decide, rfl⟩, le_rfl, (), rfl, resolved⟩

/-- For an oracle the constructor accepted, every call of the fallback is decided by two
agents as described, and as the jobs expect, if and only if the three agents are different. -/
theorem fallback_decides_iff {operator : Address} {agents : Fin 3 → Address}
    {fresh : ConsensusOracle}
    (accepted : init site.ctf.self operator agents = .ok fresh) :
    (∀ (w : Court) (timestamp : Nat) (c : Bytes32), w.oracle.agents = fresh.agents →
      w.oracle.isAgent = fresh.isAgent → Recorded w.oracle c → Countable (w.oracle.voteWeight c) →
      timestamp < wordSize → FallbackDecides site w timestamp c) ↔
    Function.Injective agents := by
  simp only [init, bind_ok, require_ok, pure_ok, exists_const] at accepted
  rcases accepted with ⟨-, -, rfl⟩
  constructor
  · intro decides i j same
    by_contra apart
    let w := loneAttestation site (deployed operator agents) 0 (agents i)
    have recorded : Recorded w.oracle 0 := by
      intro agent submitted
      have lone : agent = agents i := congrArg Prod.snd (of_decide_eq_true submitted)
      rw [lone]
      exact ⟨decide_eq_true ⟨i, rfl⟩, (by decide : 0 < 2)⟩
    have decided := decides w window 0 rfl rfl recorded
      ⟨(by decide : (0 + 0) * 2 < wordSize), (by decide : 0 * 3 < wordSize),
        (by decide : 0 * 3 < wordSize)⟩
      (by decide)
    rcases decided.succeeds.mp (loneAttestation_resolves apart same) with
      ⟨-, -, o, ⟨a, b, different, attested⟩, -⟩
    have lone : ∀ agent, agent = a ∨ agent = b → agent = agents i := by
      intro agent either
      exact congrArg Prod.snd (of_decide_eq_true (attested agent either).2.1)
    exact different ((lone a (.inl rfl)).trans (lone b (.inr rfl)).symm)
  · intro distinct w timestamp c same sameAgent recorded countable clock
    refine fallback_decides (fun a => ?_) (by rw [same]; exact distinct) recorded countable clock
    rw [sameAgent, same]
    exact decide_eq_true_iff

/-- The theorem on three different agents, two of which attested YES, and on votes for both sides:
the call resolves. -/
theorem fallback_decides_sample :
    ∃ w : Court, w.oracle.voteWeight 7 = (40, 20) ∧ FallbackDecides .sample w 90000 7 ∧
      (∃ next, resolveFallback .sample w 90000 7 = .ok next) ∧ ∃ o, Attested w.oracle 7 o := by
  let calls := Court.sampleSplit ++ [.tokens 3 (.usdc (.faucet 20)),
    .tokens 3 (.usdc (.approve 9 20)), .tokens 3 (.ctf (.splitPosition 7 20)),
    .oracle 5 0 (.registerMarket 7 50), .oracle 2 60 (.submitAttestation 7 0 0 100 (.sample 11)),
    .oracle 2 60 (.submitAttestation 7 0 0 100 (.sample 12)), .oracle 2 60 (.castVote 7 1),
    .oracle 3 70 (.castVote 7 0)]
  obtain ⟨w, done⟩ : ∃ w, calls.foldlM (Court.perform .sample) .sample = .ok w :=
    ok_of_isOk (by decide +kernel)
  have reached : (calls.foldlM (Court.perform .sample) .sample).toOption.map (fun w =>
      (w.oracle.voteWeight 7, (resolveFallback .sample w 90000 7).isOk)) =
      some ((40, 20), true) := by
    decide +kernel
  rw [done] at reached
  simp only [Except.toOption, Option.map_some, Option.some.injEq, Prod.mk.injEq] at reached
  rcases reached with ⟨weights, resolves⟩
  have accepted : init OracleSite.sample.ctf.self 5 Court.sample.oracle.agents =
      .ok Court.sample.oracle := rfl
  have same := run_sameAgents (Court.sample_run (by decide) done)
  have recorded : Recorded w.oracle 7 := same.recorded 7 fun agent none => by cases none
  have decided := (fallback_decides_iff accepted).mpr (by decide) w 90000 7 same.agents
    same.isAgent recorded
    (by rw [weights]; exact ⟨by decide, by decide, by decide⟩) (by decide)
  have succeeds := ok_of_isOk resolves
  rcases decided.succeeds.mp succeeds with ⟨-, -, o, attested, -⟩
  exact ⟨w, weights, decided, succeeds, o, attested⟩

/-- The agent 11 twice and the agent 12. -/
def sampleTwice : Fin 3 → Address := fun i => if i = 2 then 12 else 11

/-- An oracle accepted with one agent in two slots: that agent attests alone, and the call
resolves although no two agents attested anything. -/
theorem one_agent_decides :
    ∃ (fresh : ConsensusOracle) (calls : List Court.Action) (w : Court),
      init OracleSite.sample.ctf.self 5 sampleTwice = .ok fresh ∧
      Run (Court.Step .sample) ⟨⟨.deployed, .deployed⟩, fresh⟩ calls w ∧
      (∃ next, resolveFallback .sample w 90000 7 = .ok next) ∧ ¬ ∃ o, Attested w.oracle 7 o := by
  let start : Court := ⟨⟨.deployed, .deployed⟩, deployed 5 sampleTwice⟩
  let calls := Court.sampleSplit ++ [.oracle 5 0 (.registerMarket 7 50),
    .oracle 2 60 (.submitAttestation 7 0 0 100 (.sample 11))]
  obtain ⟨w, done⟩ : ∃ w, calls.foldlM (Court.perform .sample) start = .ok w :=
    ok_of_isOk (by decide +kernel)
  have settled : (calls.foldlM (Court.perform .sample) start).toOption.map (fun w =>
      (w.oracle.agentSubmitted (7, 12), (resolveFallback .sample w 90000 7).isOk)) =
      some (false, true) := by
    decide +kernel
  have external : ∀ call ∈ calls, call.External .sample := by decide
  have path : Run (Court.Step .sample) start calls w :=
    Run.execute (fun _ _ _ outsider done => ⟨outsider, done⟩) external done
  rw [done] at settled
  simp only [Except.toOption, Option.map_some, Option.some.injEq, Prod.mk.injEq] at settled
  refine ⟨deployed 5 sampleTwice, calls, w, rfl, path, ok_of_isOk settled.2, ?_⟩
  rintro ⟨o, a, b, apart, attested⟩
  have lone : ∀ agent, agent = a ∨ agent = b → agent = 11 := by
    intro agent either
    rcases attested agent either with ⟨isOne, submitted, -⟩
    rw [(run_sameAgents path).isAgent] at isOne
    rcases of_decide_eq_true isOne with ⟨i, slot⟩
    by_cases last : i = 2
    · subst last
      have twelve : agent = 12 := slot.symm
      rw [twelve, settled.1] at submitted
      cases submitted
    · rw [← slot]
      exact if_neg last
  exact apart ((lone a (.inl rfl)).trans (lone b (.inr rfl)).symm)

end OverUnder.Contracts.ConsensusOracle
