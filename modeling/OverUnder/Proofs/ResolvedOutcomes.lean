/-
Module: OverUnder.Proofs.ResolvedOutcomes
Purpose: Whatever others send in between, a resolve job marks a market resolved only
  with the outcome its payouts have on chain for good.
Trusted boundary: none
Main exports: Paid, Known, court, runFallback_fine, sportsRun_calm, generalRun_calm,
  marked_outcome_paid
-/
import OverUnder.Oracles.Resolve
import OverUnder.Proofs.OracleAgreement

namespace OverUnder.Contracts.ConsensusOracle

open OverUnder.Vyper
open OverUnder.Library

variable {site : OracleSite} {w next : Court} {x x' : ConsensusOracle}
variable {sender : Address} {timestamp : Nat} {c : Bytes32} {outcome : Nat}

/-- Payouts once reported stay. -/
theorem payouts_stay {action : Court.Action} (taken : Court.Step site w action next)
    (paid : w.tokens.ctf.payoutDenominator c ≠ 0) :
    next.tokens.ctf.payoutDenominator c = w.tokens.ctf.payoutDenominator c ∧
      next.tokens.ctf.payoutNumerators c = w.tokens.ctf.payoutNumerators c := by
  rcases tokens_step taken with same | ⟨caller, tx, -, done⟩
  · rw [same]
    exact ⟨rfl, rfl⟩
  · cases tx with
    | usdc tx =>
        simp only [Tokens.exec, bind_ok, pure_ok] at done
        rcases done with ⟨usdc, -, tokens⟩
        rw [tokens]
        exact ⟨rfl, rfl⟩
    | ctf tx => exact ConditionalTokens.exec_keeps_payouts paid done

/-! ### Attestations are for good -/

/-- The agents stay, and so does everything they attested. -/
structure Attests (x x' : ConsensusOracle) : Prop where
  agents : x'.agents = x.agents
  attested : ∀ key, x.agentSubmitted key = true →
    x'.agentSubmitted key = true ∧ x'.agentOutcome key = x.agentOutcome key

theorem Attests.refl (x : ConsensusOracle) : Attests x x := ⟨rfl, fun _ there => ⟨there, rfl⟩⟩

theorem Attests.trans {x'' : ConsensusOracle} (first : Attests x x') (second : Attests x' x'') :
    Attests x x'' where
  agents := second.agents.trans first.agents
  attested key there := by
    rcases first.attested key there with ⟨still, same⟩
    rcases second.attested key still with ⟨later, same'⟩
    exact ⟨later, same'.trans same⟩

theorem record_attests {agent : Address} (done : record x c agent outcome = .ok x') :
    Attests x x' ∧ x'.agentSubmitted (c, agent) = true ∧ x'.agentOutcome (c, agent) = outcome := by
  simp only [record, bind_ok, require_ok, pure_ok, exists_const] at done
  rcases done with ⟨-, fresh, -, -, rfl⟩
  refine ⟨⟨rfl, fun key there => ?_⟩, Function.update_self _ _ _, Function.update_self _ _ _⟩
  have other : key ≠ (c, agent) := by
    rintro rfl
    rw [fresh] at there
    cases there
  simp only [Function.update_of_ne other]
  exact ⟨there, trivial⟩

theorem recordAll_attests {digest : Nat} {seen : List Address} {sigs : List Signature}
    (done : recordAll site digest c outcome x seen sigs = .ok x') : Attests x x' := by
  induction sigs generalizing x seen with
  | nil =>
      cases done
      exact .refl _
  | cons sig sigs ih =>
      simp only [recordAll, bind_ok, require_ok, exists_const] at done
      rcases done with ⟨agent, -, -, done⟩
      split at done
      · simp only [bind_ok] at done
        rcases done with ⟨middle, recorded, rest⟩
        exact (record_attests recorded).1.trans (ih rest)
      · simp only [bind_ok, require_ok, exists_const] at done
        exact ih done.2

theorem resolve_attests (done : resolve site w c outcome = .ok next) :
    Attests w.oracle next.oracle := by
  simp only [resolve, bind_ok, require_ok, pure_ok, exists_const] at done
  rcases done with ⟨-, ctf, -, rfl⟩
  exact ⟨rfl, fun _ there => ⟨there, rfl⟩⟩

theorem exec_attests {tx : Tx} (done : exec site w sender timestamp tx = .ok next) :
    Attests w.oracle next.oracle := by
  cases tx with
  | setFactory factory =>
      simp only [exec, setFactory, bind_ok, require_ok, pure_ok, exists_const] at done
      rcases done with ⟨oracle, ⟨-, rfl⟩, rfl⟩
      exact ⟨rfl, fun _ there => ⟨there, rfl⟩⟩
  | registerMarket c closeTime =>
      simp only [exec, registerMarket, bind_ok, require_ok, pure_ok, exists_const] at done
      rcases done with ⟨oracle, ⟨-, -, -, rfl⟩, rfl⟩
      exact ⟨rfl, fun _ there => ⟨there, rfl⟩⟩
  | submitAttestation c outcome evidenceHash deadline sig =>
      simp only [exec, submitAttestation, bind_ok, require_ok, pure_ok, exists_const] at done
      rcases done with ⟨oracle, ⟨-, -, agent, -, recorded⟩, rfl⟩
      exact (record_attests recorded).1
  | submitConsensus c outcome evidenceHash deadline sigs =>
      simp only [exec, submitConsensus, bind_ok, require_ok, exists_const] at done
      rcases done with ⟨-, -, -, oracle, recorded, resolved⟩
      exact (recordAll_attests recorded).trans (resolve_attests resolved)
  | castVote c outcome =>
      simp only [exec, castVote, bind_ok, require_ok, uadd_ok, pure_ok, exists_const] at done
      rcases done with ⟨-, -, -, -, -, _, -, -, weights, -, rfl⟩
      exact ⟨rfl, fun _ there => ⟨there, rfl⟩⟩
  | resolveFallback c =>
      simp only [exec, resolveFallback, bind_ok, require_ok, uadd_ok, exists_const] at done
      rcases done with ⟨-, _, -, -, done⟩
      split at done
      · cases done
      · simp only [bind_ok] at done
        rcases done with ⟨_, -, resolved⟩
        exact resolve_attests resolved
  | resolveArbitrated c outcome =>
      simp only [exec, resolveArbitrated, bind_ok, require_ok, uadd_ok, exists_const] at done
      rcases done with ⟨-, -, -, _, -, -, resolved⟩
      exact resolve_attests resolved

theorem step_attests {action : Court.Action} (taken : Court.Step site w action next) :
    Attests w.oracle next.oracle := by
  rcases taken with ⟨-, done⟩
  cases action with
  | tokens sender tx =>
      simp only [Court.perform, bind_ok, pure_ok] at done
      rcases done with ⟨tokens, -, rfl⟩
      exact .refl _
  | oracle sender timestamp tx => exact exec_attests done

/-! ### Majorities -/

/-- Two agents that attested the same side are a majority: the third cannot outvote them. -/
theorem agentMajority_of_two {i j : Fin 3} (apart : i ≠ j) (side : outcome < 2)
    (attested : ∀ k, k = i ∨ k = j → x.agentSubmitted (c, x.agents k) = true ∧
      x.agentOutcome (c, x.agents k) = outcome) : agentMajority x c = some outcome := by
  have counts : ∀ test : Nat → Bool, test outcome = true → 2 ≤ agentCount x c test := by
    intro test holds
    have pair : [i, j].Nodup := by simp [apart]
    have inside : [i, j] ⊆ (List.finRange 3).filter fun k =>
        x.agentSubmitted (c, x.agents k) && test (x.agentOutcome (c, x.agents k)) := by
      intro k here
      have one := attested k (by simpa using here)
      rw [List.mem_filter]
      exact ⟨List.mem_finRange k, by rw [one.1, one.2, holds]; rfl⟩
    exact (List.subperm_of_subset pair inside).length_le
  unfold agentMajority
  by_cases yes : outcome = 0
  · subst yes
    rw [if_pos (counts _ rfl)]
  · have no : outcome = 1 := by omega
    subst no
    have few : agentCount x c (fun o => o = 0) < 2 := by
      have all : (List.finRange 3).length = 3 := List.length_finRange
      have split_ := List.length_eq_length_filter_add (l := List.finRange 3) fun k =>
        x.agentSubmitted (c, x.agents k) && decide (x.agentOutcome (c, x.agents k) = 0)
      have others : [i, j] ⊆ (List.finRange 3).filter fun k =>
          !(x.agentSubmitted (c, x.agents k) && decide (x.agentOutcome (c, x.agents k) = 0)) := by
        intro k here
        have one := attested k (by simpa using here)
        rw [List.mem_filter]
        exact ⟨List.mem_finRange k, by rw [one.1, one.2]; rfl⟩
      have two := (List.subperm_of_subset (by simp [apart]) others).length_le
      simp only [List.length_cons, List.length_nil] at two
      unfold agentCount
      dsimp only at split_ two ⊢
      omega
    rw [if_neg (Nat.not_le_of_lt few), if_pos (counts _ rfl)]

/-- A mined `resolveFallback` pays for the majority there is. -/
theorem resolveFallback_majority (majority : agentMajority w.oracle c = some outcome)
    (done : resolveFallback site w timestamp c = .ok next) : Resolves site w next c outcome := by
  simp only [resolveFallback, bind_ok, require_ok, uadd_ok, exists_const, majority] at done
  rcases done with ⟨-, _, -, -, _, -, resolved⟩
  exact resolve_spec resolved

end OverUnder.Contracts.ConsensusOracle

namespace OverUnder.Oracles

open OverUnder.Vyper
open OverUnder.Library
open OverUnder.Contracts
open ConsensusOracle (Agreed Attests Resolves)
open Program (attempt raise)

/-! ### The world of the jobs -/

variable {site : Site} {w next : Court} {c : Bytes32} {derived outcome : Nat}

theorem error_ne {ε α : Type} {e : ε} {a : α} (same : Except.error e = .ok a) : False := by
  cases same

theorem anyCall_agreed (agreed : Agreed site.oracle w) (called : anyCall site w next) :
    Agreed site.oracle next := by
  rcases called with ⟨action, taken, signed⟩
  exact agreed.step ⟨taken, signed⟩

theorem calls_agreed (agreed : Agreed site.oracle w)
    (called : Relation.ReflTransGen (anyCall site) w next) : Agreed site.oracle next := by
  induction called with
  | refl => exact agreed
  | tail _ taken ih => exact anyCall_agreed ih taken

theorem exec_anyCall {timestamp : Nat} {tx : ConsensusOracle.Tx}
    (done : ConsensusOracle.exec site.oracle w site.operator timestamp tx = .ok next) :
    anyCall site w next :=
  ⟨.oracle site.operator timestamp tx, ⟨site.external, done⟩, site.signed⟩

theorem Truthful.same {α : Type} {value : α} {r : Except Exc α}
    (truthful : Truthful value w r next) : next = w := truthful.1

theorem Sent.called {tx : ConsensusOracle.Tx} {r : Except Exc Unit}
    (sent : Sent site tx w r next) : Relation.ReflTransGen (anyCall site) w next := by
  cases r with
  | ok =>
      rcases sent with ⟨before, after, timestamp, first, mined, last⟩
      exact (first.tail (exec_anyCall mined)).trans last
  | error e => exact sent

/-- Whatever answers an operation, it is calls that change the contracts. -/
theorem answers_called {op : Op} {r : Except Exc (Answer op)} (answered : answers site op w r next) :
    Relation.ReflTransGen (anyCall site) w next := by
  cases op with
  | isResolved | closeTime | agents | agentSubmitted | agentOutcome | voteWeight | window
  | payoutDenominator | payoutNumerators =>
      rw [Truthful.same answered]
  | submitConsensus | submitAttestation | resolveFallback | resolveArbitrated =>
      exact Sent.called answered
  | configCheck | chainNow | preflightFallback | research | marketDetail | retryAt | budgetLeft
  | budgetExhausted | persistAttestations | recordResearch | markResolved =>
      have same : next = w := answered
      rw [same]

/-- The contracts among everybody's calls. -/
def court (site : Site) : World Court Op Answer Exc where
  other := anyCall site
  valid := Agreed site.oracle
  answers := answers site
  other_valid := anyCall_agreed
  answers_valid agreed answered := calls_agreed agreed (answers_called answered)

/-- `c` pays out for `outcome` alone. -/
structure Paid (w : Court) (c : Bytes32) (outcome : Nat) : Prop where
  side : outcome < 2
  denominator : w.tokens.ctf.payoutDenominator c ≠ 0
  numerators : w.tokens.ctf.payoutNumerators c = ConsensusOracle.payouts outcome

/-- A market may only be marked with what it pays. -/
def Allowed : Op → Court → Prop
  | .markResolved c outcome, w => Paid w c outcome
  | _, _ => True

/-- What no call of anybody undoes. -/
def Stable (site : Site) (K : Court → Prop) : Prop := ∀ w next, anyCall site w next → K w → K next

theorem Stable.calls {K : Court → Prop} (stable : Stable site K) (holds : K w)
    (called : Relation.ReflTransGen (anyCall site) w next) : K next := by
  induction called with
  | refl => exact holds
  | tail _ taken ih => exact stable _ _ taken ih

theorem Stable.true : Stable site fun _ => True := fun _ _ _ _ => trivial

theorem stable_paid : Stable site (Paid · c outcome) := by
  rintro w next ⟨action, taken, -⟩ paid
  rcases ConsensusOracle.payouts_stay taken paid.denominator with ⟨denominator, numerators⟩
  exact ⟨paid.side, by rw [denominator]; exact paid.denominator, numerators.trans paid.numerators⟩

theorem Resolves.paid (side : outcome < 2) (resolves : Resolves site.oracle w next c outcome) :
    Paid next c outcome := by
  rcases ConditionalTokens.reportPayouts_spec resolves.reported with ⟨-, -, positive, reported⟩
  refine ⟨side, ?_, ?_⟩
  · rw [reported]
    simp only [Function.update_self]
    omega
  · rw [reported]
    simp only [Function.update_self]

/-- A resolved condition pays one side. -/
theorem Agreed.paid_of_resolved (agreed : Agreed site.oracle w)
    (resolved : w.oracle.resolved c = true) : ∃ outcome, Paid w c outcome := by
  rcases agreed.reported c resolved with ⟨-, denominator, one | zero⟩
  · exact ⟨0, by decide, by rw [denominator]; exact one_ne_zero, one⟩
  · exact ⟨1, by decide, by rw [denominator]; exact one_ne_zero, zero⟩

/-! ### Parts of a job that mark nothing -/

variable {α β : Type} {p : Job α} {post : Except Exc α → Court → Prop}

/-- The job is safe from `w` on and ends with `post`. -/
abbrev Fine (site : Site) (p : Job α) (post : Except Exc α → Court → Prop) (w : Court) : Prop :=
  Safe (court site) Allowed p post w

/-- It is safe from anywhere. -/
def Calm (site : Site) (p : Job α) : Prop := ∀ w, Fine site p (fun _ _ => True) w

theorem Calm.pure {a : α} : Calm site (Pure.pure a : Job α) := fun _ => Safe.pure fun _ _ _ => trivial

theorem Calm.raise {e : Exc} : Calm site (raise e : Job α) := fun _ => Safe.raise fun _ _ _ => trivial

theorem Calm.ask {op : Op}
    (marks : ∀ c outcome, op ≠ .markResolved c outcome) :
    Calm site (Oracles.ask op) := by
  intro w
  apply Safe.perform
  · intro t _ _
    unfold Allowed
    split
    · exact absurd rfl (marks _ _)
    · trivial
  · exact fun _ _ _ _ _ _ _ _ _ => trivial

theorem Calm.attempt (calm : Calm site p) : Calm site (attempt p) :=
  fun w => Safe.attempt (calm w)

theorem Fine.keep {K : Court → Prop} (fine : Fine site p post w) (stable : Stable site K)
    (holds : K w) : Fine site p (fun r t => post r t ∧ K t) w :=
  Safe.keep (W := court site) (K := K) stable
    (fun _ _ _ _ _ answered held => stable.calls held (answers_called answered)) fine holds

/-- Past a calm part, with a fact nobody undoes. -/
theorem Fine.after {K : Court → Prop} {f : α → Job β} {post : Except Exc β → Court → Prop}
    (stable : Stable site K) (holds : K w) (calm : Calm site p)
    (rest : ∀ a t, K t → Fine site (f a) post t) (errors : ∀ e t, K t → post (.error e) t) :
    Fine site (p >>= f) post w := by
  apply Safe.bind
  apply ((calm w).keep stable holds).mono
  rintro (e | a) t ⟨-, held⟩
  · exact fun u moved _ => errors e u (stable.calls held moved)
  · exact rest a t held

/-- Past one operation, with a fact nobody undoes. -/
theorem Fine.past {K : Court → Prop} {op : Op} {f : Answer op → Job β}
    {post : Except Exc β → Court → Prop} (stable : Stable site K) (holds : K w)
    (rest : ∀ a t, K t → Fine site (f a) post t) (errors : ∀ e t, K t → post (.error e) t)
    (marks : ∀ c outcome, op ≠ .markResolved c outcome) :
    Fine site (Oracles.ask op >>= f) post w :=
  Fine.after stable holds (.ask marks) rest errors

theorem Calm.bind {f : α → Job β} (calm : Calm site p) (rest : ∀ a, Calm site (f a)) :
    Calm site (p >>= f) := fun _ =>
  Fine.after Stable.true trivial calm (fun a t _ => rest a t) fun _ _ _ => trivial

theorem Fine.weaken {post' : Except Exc α → Court → Prop} (fine : Fine site p post w)
    (weaker : ∀ r t, post r t → post' r t) : Fine site p post' w := Safe.mono fine weaker

/-- A part that ends with a fact nobody undoes, and what follows it. -/
theorem Fine.bind {f : α → Job β} {Q : Except Exc α → Court → Prop}
    {post' : Except Exc β → Court → Prop}
    (fine : Fine site p Q w) (rest : ∀ a t, Q (.ok a) t → Fine site (f a) post' t)
    (errors : ∀ e t, post' (.error e) t) : Fine site (p >>= f) post' w := by
  apply Safe.bind
  apply fine.mono
  rintro (e | a) t holds
  · exact fun u _ _ => errors e u
  · exact rest a t holds

/-- A truthful read with the answer it gave. -/
theorem Fine.read (op : Op) (value : Court → Answer op) {f : Answer op → Job β}
    {post : Except Exc β → Court → Prop}
    (truthful : ∀ t r u, answers site op t r u → Truthful (value t) t r u)
    (marks : ∀ c outcome, op ≠ .markResolved c outcome) {K : Court → Prop} (stable : Stable site K)
    (holds : K w) (rest : ∀ t, Agreed site.oracle t → K t → Fine site (f (value t)) post t)
    (errors : ∀ e t, post (.error e) t) : Fine site (Oracles.ask op >>= f) post w := by
  apply Safe.bind
  intro t moved agreed
  refine ⟨?_, fun r u answered => ?_⟩
  · unfold Allowed
    split
    · exact absurd rfl (marks _ _)
    · trivial
  · rcases truthful t r u answered with ⟨rfl, rfl | ⟨e, rfl⟩⟩
    · intro v onward _
      exact (rest u agreed (stable.calls holds moved)).later onward
    · exact fun v _ _ x _ _ => errors e x

/-- What a mined send brought about and nobody undoes. -/
theorem Sent.mined {tx : ConsensusOracle.Tx} {K : Court → Prop} (stable : Stable site K)
    (sent : Sent site tx w (.ok ()) next)
    (effect : ∀ before after timestamp, Relation.ReflTransGen (anyCall site) w before →
      ConsensusOracle.exec site.oracle before site.operator timestamp tx = .ok after → K after) :
    K next := by
  rcases sent with ⟨before, after, timestamp, first, mined, last⟩
  exact stable.calls (effect before after timestamp first mined) last

theorem submitConsensus_fine {evidenceHash : Bytes32} {deadline : Nat} {sigs : List Signature}
    (side : outcome < 2) :
    Fine site (submitConsensus c outcome evidenceHash deadline sigs)
      (fun r t => r = .ok () → Paid t c outcome) w := by
  apply Safe.perform
  · exact fun _ _ _ => trivial
  · rintro t r u v - - answered onward - rfl
    refine stable_paid.calls (Sent.mined stable_paid answered ?_) onward
    intro before after timestamp _ mined
    exact Resolves.paid side (ConsensusOracle.submitConsensus_spec mined).2

theorem resolveArbitrated_fine (side : outcome < 2) :
    Fine site (resolveArbitrated c outcome) (fun r t => r = .ok () → Paid t c outcome) w := by
  apply Safe.perform
  · exact fun _ _ _ => trivial
  · rintro t r u v - - answered onward - rfl
    refine stable_paid.calls (Sent.mined stable_paid answered ?_) onward
    intro before after timestamp _ mined
    exact Resolves.paid side (ConsensusOracle.resolveArbitrated_spec mined).2

/-- `agent` attested `outcome`. -/
def Attested (w : Court) (c : Bytes32) (agent : Address) (outcome : Nat) : Prop :=
  w.oracle.agentSubmitted (c, agent) = true ∧ w.oracle.agentOutcome (c, agent) = outcome

def IsAgent (w : Court) (agent : Address) : Prop := ∃ i, w.oracle.agents i = agent

theorem stable_attested {agent : Address} : Stable site (Attested · c agent outcome) := by
  rintro w next ⟨action, taken, -⟩ ⟨there, same⟩
  rcases (ConsensusOracle.step_attests taken).attested _ there with ⟨still, kept⟩
  exact ⟨still, kept.trans same⟩

theorem stable_isAgent {agent : Address} : Stable site (IsAgent · agent) := by
  rintro w next ⟨action, taken, -⟩ ⟨i, here⟩
  exact ⟨i, by rw [(ConsensusOracle.step_attests taken).agents]; exact here⟩

theorem submitAttestation_fine {coord : Coordinator site.oracle} {name : String}
    {agent : Address} (key : coord.address name = some agent) {evidenceHash : Bytes32}
    {deadline : Nat} :
    Fine site (submitAttestation c outcome evidenceHash deadline
        (coord.signOne name c outcome evidenceHash deadline))
      (fun r t => r = .ok () → Attested t c agent outcome) w := by
  apply Safe.perform
  · exact fun _ _ _ => trivial
  · rintro t r u v - - answered onward - rfl
    refine stable_attested.calls (Sent.mined stable_attested answered ?_) onward
    intro before after timestamp _ mined
    simp only [ConsensusOracle.exec, ConsensusOracle.submitAttestation, bind_ok, require_ok,
      pure_ok, exists_const] at mined
    rcases mined with ⟨oracle, ⟨-, -, signer, recovered, recorded⟩, rfl⟩
    rw [coord.recovers name agent c outcome evidenceHash deadline key] at recovered
    cases recovered
    exact (ConsensusOracle.record_attests recorded).2

/-- Two of the oracle's agents attested `outcome`. -/
def Backed (w : Court) (c : Bytes32) (outcome : Nat) : Prop :=
  ∃ a b, a ≠ b ∧ (IsAgent w a ∧ Attested w c a outcome) ∧ IsAgent w b ∧ Attested w c b outcome

theorem stable_backed : Stable site (Backed · c outcome) := by
  rintro w next called ⟨a, b, apart, ⟨agent, attested⟩, agent', attested'⟩
  exact ⟨a, b, apart, ⟨stable_isAgent _ _ called agent, stable_attested _ _ called attested⟩,
    stable_isAgent _ _ called agent', stable_attested _ _ called attested'⟩

theorem Backed.majority (backed : Backed w c outcome) (side : outcome < 2) :
    ConsensusOracle.agentMajority w.oracle c = some outcome := by
  rcases backed with ⟨a, b, apart, ⟨⟨i, rfl⟩, attested⟩, ⟨j, rfl⟩, attested'⟩
  apply ConsensusOracle.agentMajority_of_two (i := i) (j := j) _ side
  · rintro k (rfl | rfl)
    · exact attested
    · exact attested'
  · rintro rfl
    exact apart rfl

theorem resolveFallback_fine (side : outcome < 2) (backed : Backed w c outcome) :
    Fine site (resolveFallback c) (fun r t => r = .ok () → Paid t c outcome) w := by
  apply Safe.perform
  · exact fun _ _ _ => trivial
  · rintro t r u v moved - answered onward - rfl
    refine stable_paid.calls (Sent.mined stable_paid answered ?_) onward
    intro before after timestamp first mined
    have there := stable_backed.calls (stable_backed.calls backed moved) first
    exact Resolves.paid side
      (ConsensusOracle.resolveFallback_majority (there.majority side) mined)

/-! ### What the job knows of the attestations -/

/-- The slots are of distinct agents, and what they say is on chain. -/
structure Known (w : Court) (c : Bytes32) (slots : List Slot) : Prop where
  distinct : (slots.map Slot.agent).Nodup
  agents : ∀ slot ∈ slots, IsAgent w slot.agent
  attested : ∀ slot ∈ slots, slot.submitted = true → Attested w c slot.agent slot.outcome

theorem Known.nil : Known w c [] :=
  ⟨List.nodup_nil, fun _ here => (nomatch here), fun _ here => (nomatch here)⟩

theorem stable_known {slots : List Slot} : Stable site (Known · c slots) := by
  intro w next called known
  exact ⟨known.distinct, fun slot here => stable_isAgent _ _ called (known.agents slot here),
    fun slot here submitted => stable_attested _ _ called (known.attested slot here submitted)⟩

theorem Known.put {slots : List Slot} {slot : Slot} (known : Known w c slots)
    (agent : IsAgent w slot.agent)
    (attested : slot.submitted = true → Attested w c slot.agent slot.outcome) :
    Known w c (putSlot slots slot) := by
  unfold putSlot
  split
  · have same : (slots.map fun s => if s.agent = slot.agent then slot else s).map Slot.agent =
        slots.map Slot.agent := by
      rw [List.map_map]
      apply List.map_congr_left
      intro s _
      simp only [Function.comp_apply]
      split
      · next eq => exact eq.symm
      · rfl
    have member : ∀ s ∈ slots.map fun s => if s.agent = slot.agent then slot else s,
        s = slot ∨ s ∈ slots := by
      intro s here
      rcases List.mem_map.mp here with ⟨old, old_here, rfl⟩
      split
      · exact .inl rfl
      · exact .inr old_here
    refine ⟨by rw [same]; exact known.distinct, fun s here => ?_, fun s here submitted => ?_⟩
    · rcases member s here with rfl | old
      · exact agent
      · exact known.agents s old
    · rcases member s here with rfl | old
      · exact attested submitted
      · exact known.attested s old submitted
  · next absent =>
    refine ⟨?_, fun s here => ?_, fun s here submitted => ?_⟩
    · rw [List.map_append, List.nodup_append]
      refine ⟨known.distinct, by simp, ?_⟩
      intro a old b new eq
      simp only [List.map_cons, List.map_nil, List.mem_singleton] at new
      rcases List.mem_map.mp old with ⟨s, here, rfl⟩
      apply absent
      rw [List.any_eq_true]
      exact ⟨s, here, by simp [eq, new]⟩
    · rcases List.mem_append.mp here with old | new
      · exact known.agents s old
      · rw [List.mem_singleton] at new
        exact new ▸ agent
    · rcases List.mem_append.mp here with old | new
      · exact known.attested s old submitted
      · rw [List.mem_singleton] at new
        exact new ▸ attested (new ▸ submitted)

/-- A majority among the slots is one among the agents. -/
theorem Known.backed {slots : List Slot} (known : Known w c slots)
    (most : majority (attestedOutcomes slots) = some outcome) :
    outcome < 2 ∧ Backed w c outcome := by
  have two : ∀ o, 2 ≤ ((attestedOutcomes slots).filter (· = o)).length → Backed w c o := by
    intro o enough
    have here : ∃ a ∈ slots.filter fun s => s.outcome = o && s.submitted,
        ∃ b ∈ slots.filter fun s => s.outcome = o && s.submitted, a.agent ≠ b.agent := by
      have distinct : ((slots.filter fun s => s.outcome = o && s.submitted).map
          Slot.agent).Nodup := known.distinct.sublist (List.filter_sublist.map _)
      have count : ((attestedOutcomes slots).filter (· = o)).length =
          (slots.filter fun s => s.outcome = o && s.submitted).length := by
        simp [attestedOutcomes, List.filter_map, List.filter_filter, Function.comp_def]
      rw [count] at enough
      match list : slots.filter fun s => s.outcome = o && s.submitted with
      | [] | [_] =>
          rw [list] at enough
          simp at enough
      | a :: b :: rest =>
          rw [list] at distinct ⊢
          simp only [List.map_cons, List.nodup_cons, List.mem_cons, not_or] at distinct
          exact ⟨a, .head _, b, .tail _ (.head _), distinct.1.1⟩
    rcases here with ⟨a, ha, b, hb, apart⟩
    simp only [List.mem_filter, Bool.and_eq_true, decide_eq_true_eq] at ha hb
    rcases ha with ⟨ha, rfl, sa⟩
    rcases hb with ⟨hb, ob, sb⟩
    exact ⟨a.agent, b.agent, apart, ⟨known.agents a ha, known.attested a ha sa⟩,
      known.agents b hb, ob ▸ known.attested b hb sb⟩
  unfold majority at most
  split at most
  · next enough =>
    cases most
    exact ⟨by decide, two 0 enough⟩
  · split at most
    · next enough =>
      cases most
      exact ⟨by decide, two 1 enough⟩
    · cases most

/-! ### The fallback -/

theorem readSlots_fine {is : List (Fin 3)} {slots : List Slot} (known : Known w c slots) :
    Fine site (readSlots c is slots) (fun r t => ∀ slots, r = .ok slots → Known t c slots) w := by
  induction is generalizing slots w with
  | nil =>
      intro t moved _ slots' same
      cases same
      exact stable_known.calls known moved
  | cons i rest ih =>
      unfold readSlots
      apply Fine.read (.agents i) (fun t => t.oracle.agents i) (fun t r u answered => answered)
        nofun stable_known known
      · intro t _ known
        have agent : IsAgent t (t.oracle.agents i) := ⟨i, rfl⟩
        generalize t.oracle.agents i = a at agent
        apply Fine.read (.agentSubmitted c a) (fun t => t.oracle.agentSubmitted (c, a))
          (fun t r u answered => answered) nofun
          (K := fun t => Known t c slots ∧ IsAgent t a) _ ⟨known, agent⟩
        · intro u _ both
          -- An attestation seen is still there when its outcome is read.
          have seen : u.oracle.agentSubmitted (c, a) = true →
              Attested u c a (u.oracle.agentOutcome (c, a)) := fun there => ⟨there, rfl⟩
          generalize u.oracle.agentSubmitted (c, a) = submitted at seen
          generalize u.oracle.agentOutcome (c, a) = first at seen
          apply Fine.read (.agentOutcome c a) (fun t => t.oracle.agentOutcome (c, a))
            (fun t r u answered => answered) nofun
            (K := fun t => (Known t c slots ∧ IsAgent t a) ∧
              (submitted = true → Attested t c a first)) _ ⟨both, seen⟩
          · intro v _ ⟨⟨known, agent⟩, seen⟩
            apply ih
            apply known.put agent
            intro there
            rcases seen there with ⟨still, same⟩
            exact ⟨still, rfl⟩
          · exact fun e t slots same => (error_ne same).elim
          · intro v x called ⟨⟨known, agent⟩, seen⟩
            exact ⟨⟨stable_known _ _ called known, stable_isAgent _ _ called agent⟩,
              fun there => stable_attested _ _ called (seen there)⟩
        · exact fun e t slots same => (error_ne same).elim
        · intro v x called ⟨known, agent⟩
          exact ⟨stable_known _ _ called known, stable_isAgent _ _ called agent⟩
      · exact fun e t slots same => (error_ne same).elim

theorem fallbackState_fine : Fine site (fallbackState c)
    (fun r t => ∀ st, r = .ok st → Known t c st.agents) w := by
  unfold fallbackState
  apply Fine.bind (readSlots_fine .nil)
  · intro slots t known
    have known := known slots rfl
    refine Fine.past stable_known known ?_ (fun e t _ st same => (error_ne same).elim) nofun
    intro resolved t known
    refine Fine.past stable_known known ?_ (fun e t _ st same => (error_ne same).elim) nofun
    intro closeTime t known
    refine Fine.past stable_known known ?_ (fun e t _ st same => (error_ne same).elim) nofun
    intro now t known
    refine Fine.past stable_known known ?_ (fun e t _ st same => (error_ne same).elim) nofun
    intro window t known
    refine Fine.past stable_known known ?_ (fun e t _ st same => (error_ne same).elim) nofun
    intro yes t known
    refine Fine.past stable_known known ?_ (fun e t _ st same => (error_ne same).elim) nofun
    intro no t known u moved _ st same
    cases same
    exact stable_known.calls known moved
  · exact fun e t st same => (error_ne same).elim

theorem racedSlot_fine {agent : Address} : Fine site (racedSlot c agent)
    (fun r t => ∀ slot, r = .ok (some slot) →
      slot.agent = agent ∧ IsAgent t agent ∧ Attested t c agent slot.outcome) w := by
  unfold racedSlot
  apply Fine.bind (Q := fun r t => ∀ st, r = .ok (.ok st) → Known t c st.agents)
  · apply Safe.attempt
    exact fallbackState_fine.weaken fun r t known st same => known st (Except.ok.inj same)
  · rintro (e | st) t known
    · intro u _ _ slot same
      cases same
    · have known := known st rfl
      intro u moved _ slot same
      have found := Option.filter_eq_some_iff.mp (Except.ok.inj same)
      have mine : slot.agent = agent := by simpa using List.find?_some found.1
      have here : slot ∈ st.agents := List.mem_of_find?_eq_some found.1
      subst mine
      exact ⟨rfl, stable_isAgent.calls (known.agents slot here) moved,
        stable_attested.calls (known.attested slot here found.2) moved⟩
  · exact fun e t slot same => (error_ne same).elim

/-- After a revert for a duplicate attestation: nothing new is known, or the slot is. -/
theorem dupAttestation_fine {agent : Address} {slots : List Slot} {dup : Bool}
    {rest : Option Slot → Job α} (known : Known w c slots)
    (missing : ∀ t, Known t c slots → Fine site (rest none) post t)
    (found : ∀ t slot, Known t c (putSlot slots slot) → Fine site (rest (some slot)) post t)
    (errors : ∀ e t, post (.error e) t) :
    Fine site (if dup then racedSlot c agent >>= rest else pure none >>= rest) post w := by
  cases dup with
  | true =>
      apply Fine.bind (racedSlot_fine.keep stable_known known)
      · rintro (_ | slot) t ⟨attested, known⟩
        · exact missing t known
        · rcases attested slot rfl with ⟨rfl, agent, attested⟩
          exact found t slot (known.put agent fun _ => attested)
      · exact errors
  | false => exact missing w known

theorem attestAll_fine {coord : Coordinator site.oracle} {deadline : Nat} {reports : List Report}
    {p : Progress} (known : Known w c p.slots) :
    Fine site (attestAll coord c derived deadline reports p)
      (fun r t => ∀ q, r = .ok q → Known t c q.slots) w := by
  induction reports generalizing p w with
  | nil =>
      intro t moved _ q same
      cases same
      exact stable_known.calls known moved
  | cons report rest ih =>
      unfold attestAll
      dsimp only
      split
      · exact ih known
      next agent key =>
        split
        · exact ih known
        next slot found =>
          have mine : slot.agent = agent := by simpa using List.find?_some found
          have here : slot ∈ p.slots := List.mem_of_find?_eq_some found
          split
          · apply ih
            split <;> exact known
          · apply Fine.bind (Q := fun r t => Known t c p.slots ∧
              (r = .ok (.ok ()) → Attested t c agent derived))
            · apply Safe.attempt
              refine (Fine.keep (submitAttestation_fine key) stable_known known).weaken ?_
              rintro r t ⟨attested, known⟩
              exact ⟨known, fun same => attested (Except.ok.inj same)⟩
            · rintro (e | ⟨⟩) t ⟨known, attested⟩
              · cases e with
                | deferred => exact fun u _ _ q same => (error_ne same).elim
                | sendFailed | other =>
                    apply dupAttestation_fine known
                    · exact fun t _ u _ _ q same => (error_ne same).elim
                    · exact fun t slot known => ih known
                    · exact fun e t q same => (error_ne same).elim
              · apply ih
                apply known.put
                · exact mine ▸ known.agents slot here
                · exact fun _ => attested rfl
            · exact fun e t q same => (error_ne same).elim

/-- A resolving send that returned true was mined. -/
theorem resolveSend_fine {label : String} {attested : List String} {call : Job Unit}
    (sent : Fine site call (fun r t => r = .ok () → Paid t c outcome) w) :
    Fine site (resolveSend label attested c call)
      (fun r t => r = .ok true → Paid t c outcome) w := by
  unfold resolveSend
  apply Fine.bind (Q := fun r t => r = .ok (.ok ()) → Paid t c outcome)
  · apply Safe.attempt
    exact sent.weaken fun r t paid same => paid (Except.ok.inj same)
  · rintro (e | ⟨⟩) t paid
    · cases e with
      | deferred => exact fun u _ _ same => (error_ne same).elim
      | sendFailed | other =>
          refine Fine.after Stable.true trivial (.attempt (.ask (by rintro _ _ ⟨⟩))) ?_ ?_
          · rintro (_ | _ | _) u -
            · exact fun v _ _ same => (error_ne same).elim
            · exact fun v _ _ same => (error_ne same).elim
            · exact fun v _ _ same => by cases same
          · exact fun e t _ same => (error_ne same).elim
    · exact fun u moved _ _ => stable_paid.calls (paid rfl) moved
  · exact fun e t same => (error_ne same).elim

/-- A fragment that says submitted has the market paid for `derived`. -/
def Settles (c : Bytes32) (derived : Nat) (r : Except Exc Fragment) (t : Court) : Prop :=
  ∀ fragment, r = .ok fragment → fragment.submitted = true → Paid t c derived

theorem arbitrate_fine {policy : Policy} {allowArbitrate : Bool} {base : Fragment}
    {blocker : String} (side : derived < 2) (idle : base.submitted = false) :
    Fine site (arbitrate c derived policy allowArbitrate base blocker) (Settles c derived) w := by
  have idly : ∀ (b : Fragment) t, b.submitted = false →
      Fine site (pure b) (Settles c derived) t := by
    intro b t idle u _ _ fragment same submitted
    cases same
    rw [idle] at submitted
    cases submitted
  unfold arbitrate
  split
  · apply Fine.bind (resolveSend_fine (resolveArbitrated_fine side))
    · intro sent t paid
      split
      · next yes =>
        subst yes
        intro u moved _ fragment same _
        cases same
        exact stable_paid.calls (paid rfl) moved
      · exact idly _ t idle
    · exact fun e t fragment same => (error_ne same).elim
  · exact idly _ w idle

theorem runFallback_fine {coord : Coordinator site.oracle} {reports : List Report}
    {policy : Policy} {allowArbitrate : Bool} {basis : String} (side : derived < 2) :
    Fine site (runFallback coord c derived reports policy allowArbitrate basis)
      (Settles c derived) w := by
  have idly : ∀ (b : Fragment) t, b.submitted = false →
      Fine site (pure b) (Settles c derived) t := by
    intro b t idle u _ _ fragment same submitted
    cases same
    rw [idle] at submitted
    cases submitted
  have errors : ∀ e t, Settles c derived (.error e) t := fun e t fragment same => (error_ne same).elim
  unfold runFallback
  dsimp only
  split
  · exact idly _ w rfl
  · apply Fine.bind fallbackState_fine _ errors
    intro st t known
    have known := known st rfl
    split
    · exact idly _ t rfl
    split
    · exact idly _ t rfl
    split
    · exact idly _ t rfl
    split
    · exact idly _ t rfl
    apply Fine.bind (attestAll_fine known) _ errors
    intro p t known
    have known := known p rfl
    split
    · exact arbitrate_fine side rfl
    next agentOut most =>
      split
      · exact idly _ t rfl
      next agrees =>
        have agrees : agentOut = derived := not_not.mp agrees
        subst agrees
        have backed := (known.backed most).2
        split
        · exact arbitrate_fine side rfl
        refine Fine.past stable_backed backed ?_ (fun e t _ => errors e t) nofun
        rintro ⟨ok, why⟩ t backed
        dsimp only
        split
        · apply Fine.bind (resolveSend_fine (resolveFallback_fine side backed)) _ errors
          intro sent t paid
          split
          · next yes =>
            subst yes
            intro u moved _ fragment same _
            cases same
            exact stable_paid.calls (paid rfl) moved
          · exact idly _ t rfl
        · exact arbitrate_fine side rfl

/-! ### Marking -/

theorem Calm.past {op : Op} {f : Answer op → Job β} (rest : ∀ a, Calm site (f a))
    (marks : ∀ c outcome, op ≠ .markResolved c outcome) :
    Calm site (Oracles.ask op >>= f) := Calm.bind (.ask marks) rest

theorem markResolved_fine (paid : Paid w c outcome) :
    Fine site (markResolved c outcome) (fun _ _ => True) w := by
  apply Safe.perform
  · exact fun t moved _ => stable_paid.calls paid moved
  · exact fun _ _ _ _ _ _ _ _ _ => trivial

/-- The payouts of a resolved market, read one after the other, are those it keeps. -/
theorem onchainOutcome_fine (paid : Paid w c outcome) :
    Fine site (onchainOutcome c) (fun r _ => ∀ o, r = .ok (some o) → o = outcome) w := by
  unfold onchainOutcome
  refine Fine.past stable_paid paid ?_ (fun e t _ o same => (error_ne same).elim) nofun
  intro denominator t paid
  split
  · exact fun u _ _ o same => nomatch same
  · apply Fine.read (.payoutNumerators c 0) (fun t => oneOf (t.tokens.ctf.payoutNumerators c) 0)
      (fun t r u answered => answered) nofun stable_paid paid _ fun e t o same => (error_ne same).elim
    intro t _ paid
    rw [paid.numerators]
    apply Fine.read (.payoutNumerators c 1) (fun t => oneOf (t.tokens.ctf.payoutNumerators c) 1)
      (fun t r u answered => answered) nofun stable_paid paid _ fun e t o same => (error_ne same).elim
    intro t _ paid u _ _ o same
    rw [paid.numerators] at same
    have side := paid.side
    have cases : outcome = 0 ∨ outcome = 1 := by omega
    rcases cases with rfl | rfl
    · exact (Option.some.inj (Except.ok.inj same)).symm
    · exact (Option.some.inj (Except.ok.inj same)).symm

theorem mirrorChainResolved_fine {dbResolved : Bool} (agreed : Agreed site.oracle w)
    (resolved : w.oracle.resolved c = true) :
    Fine site (mirrorChainResolved c dbResolved) (fun _ _ => True) w := by
  rcases Agreed.paid_of_resolved agreed resolved with ⟨outcome, paid⟩
  unfold mirrorChainResolved
  split
  · exact Calm.pure w
  · apply Fine.bind ((onchainOutcome_fine paid).keep stable_paid paid) _ fun _ _ => trivial
    rintro (_ | o) t ⟨right, paid⟩
    · exact Calm.pure t
    · cases right o rfl
      exact Fine.bind (markResolved_fine paid) (fun _ t _ => Calm.pure t) fun _ _ => trivial

/-- Past the question whether a market is resolved. -/
theorem Calm.resolved {f : Bool → Job α}
    (yes : ∀ t, Agreed site.oracle t → t.oracle.resolved c = true →
      Fine site (f true) (fun _ _ => True) t) (no : Calm site (f false)) :
    Calm site (isResolved c >>= f) := by
  intro w
  apply Fine.read (.isResolved c) (fun t => t.oracle.resolved c) (fun t r u answered => answered)
    nofun Stable.true trivial _ fun _ _ => trivial
  intro t agreed _
  cases answer : t.oracle.resolved c with
  | true => exact yes t agreed answer
  | false => exact no t

theorem resolvedConcurrently_calm : Calm site (resolvedConcurrently c) := by
  have resolved : ∀ t, Agreed site.oracle t → t.oracle.resolved c = true →
      Fine site (mirrorChainResolved c false >>= fun fragment =>
        pure (some (if fragment.ok then { fragment with reason := "resolved concurrently" }
          else fragment))) (fun _ _ => True) t := fun t agreed resolved =>
    Fine.bind (mirrorChainResolved_fine agreed resolved) (fun _ u _ => Calm.pure u)
      fun _ _ => trivial
  intro w t _ agreed
  refine ⟨trivial, ?_⟩
  rintro r u ⟨rfl, rfl | ⟨e, rfl⟩⟩
  · cases answer : u.oracle.resolved c with
    | true => exact resolved u agreed answer
    | false => exact Calm.pure u
  · exact Calm.pure u

theorem persistResolution_fine {reports : List Report} (paid : Paid w c outcome) :
    Fine site (persistResolution c reports outcome) (fun _ _ => True) w := by
  unfold persistResolution
  apply Fine.bind (Q := fun _ _ => True) _ (fun _ t _ => Calm.pure t) fun _ _ => trivial
  apply Safe.attempt
  exact Fine.past stable_paid paid (fun _ t paid => markResolved_fine paid)
    (fun _ _ _ => trivial) nofun

/-! ### The resolvers -/

theorem effectiveNow_calm {cfg : Config site.oracle} : Calm site (effectiveNow cfg) := by
  unfold effectiveNow
  split
  · exact .pure
  · exact .past (fun _ => .pure) nofun

theorem mayResearch_calm {cfg : Config site.oracle} {researched failed : Nat} {ready : Ready} :
    Calm site (mayResearch cfg researched failed ready) := by
  unfold mayResearch
  dsimp only
  split
  · exact .pure
  · refine Calm.past ?_ nofun
    rintro (_ | at_)
    · refine Calm.past ?_ nofun
      intro left
      split
      · exact .pure
      split
      · exact .pure
      · exact .pure
    · exact .pure

theorem unresolved_calm {entry : Entry} : Calm site (unresolved c entry) := by
  refine Calm.past ?_ nofun
  rintro (_ | error) <;> exact .pure

theorem submitUnanimous_calm {cfg : Config site.oracle} {reports : List Report}
    (side : outcome < 2) : Calm site (submitUnanimous cfg c reports outcome) := by
  unfold submitUnanimous
  split
  · exact .raise
  · apply Calm.bind effectiveNow_calm
    intro now
    dsimp only
    split
    · exact .raise
    · intro w
      apply Fine.bind (Q := fun r t => r = .ok (.ok ()) → Paid t c outcome)
      · apply Safe.attempt
        exact (submitConsensus_fine side).weaken fun r t paid same => paid (Except.ok.inj same)
      · rintro (e | ⟨⟩) t paid
        · cases e with
          | deferred => exact Calm.pure t
          | sendFailed | other =>
              apply (Calm.bind resolvedConcurrently_calm _) t
              rintro (_ | raced) <;> exact .pure
        · exact persistResolution_fine (paid rfl)
      · exact fun _ _ => trivial

theorem settleFallback_calm {reports : List Report} {fallback : Job Fragment}
    (settles : ∀ w, Fine site fallback (Settles c derived) w) :
    Calm site (settleFallback c derived reports fallback) := by
  intro w
  unfold settleFallback
  apply Fine.bind (Q := fun r t => ∀ x, r = .ok x → Settles c derived x t)
  · apply Safe.attempt
    exact (settles w).weaken fun r t settled x same => Except.ok.inj same ▸ settled
  · rintro (e | fragment) t settled
    · cases e with
      | deferred => exact Calm.pure t
      | sendFailed => exact Calm.pure t
      | other => exact Calm.raise t
    · dsimp only
      split
      · next submitted => exact persistResolution_fine (settled _ rfl fragment rfl submitted)
      split
      · apply (Calm.bind resolvedConcurrently_calm _) t
        rintro (_ | raced) <;> exact .pure
      · exact unresolved_calm t
  · exact fun _ _ => trivial

theorem runMarkets_calm {M : Type} {conditionId : M → Bytes32}
    {before : Nat → Nat → M → Job (Entry ⊕ Ready)} {after : Ready → Research → Job Entry}
    (first : ∀ researched failed m, Calm site (before researched failed m))
    (second : ∀ ready found, Calm site (after ready found)) {markets : List M}
    {researched failed : Nat} {entries : List Entry} :
    Calm site (runMarkets conditionId before after markets researched failed entries) := by
  induction markets generalizing researched failed entries with
  | nil => exact .pure
  | cons m rest ih =>
      unfold runMarkets
      apply Calm.bind (first _ _ m).attempt
      rintro (e | entry | ready)
      · exact ih
      · exact ih
      · refine Calm.bind (Calm.attempt (.ask nofun)) ?_
        rintro (e | found)
        · refine Calm.past ?_ nofun
          intro exhausted
          split
          · exact ih
          · exact .past (fun _ => ih) nofun
        · apply Calm.bind (second _ _).attempt
          rintro (e | entry) <;> exact ih

theorem sportsBefore_calm {cfg : Config site.oracle} {researched failed : Nat}
    {primary : Primary} : Calm site (sportsBefore cfg researched failed primary) := by
  unfold sportsBefore
  dsimp only
  refine Calm.past ?_ (by rintro _ _ ⟨⟩)
  intro detail
  apply Calm.resolved
  · exact fun t agreed resolved => Fine.bind (mirrorChainResolved_fine agreed resolved)
      (fun _ u _ => Calm.pure u) fun _ _ => trivial
  · refine Calm.past ?_ (by rintro _ _ ⟨⟩)
    intro onchainClose
    split
    · exact .pure
    · split
      case' isTrue => apply Calm.bind effectiveNow_calm
      case' isFalse => apply Calm.bind .pure
      all_goals
        intro now
        split
        · exact .pure
        split
        · exact .pure
        split
        · exact .pure
        · exact mayResearch_calm

theorem sportsAfter_calm {cfg : Config site.oracle} {ready : Ready} {found : Research} :
    Calm site (sportsAfter cfg ready found) := by
  unfold sportsAfter
  dsimp only
  apply Calm.bind resolvedConcurrently_calm
  intro raced
  split
  · exact .pure
  · exact .pure
  next derived _ =>
    split
    · exact submitUnanimous_calm derived.isLt
    split
    · exact unresolved_calm
    · refine Calm.past ?_ nofun
      intro now
      split
      · exact unresolved_calm
      · exact settleFallback_calm fun w => runFallback_fine derived.isLt

theorem sportsRun_calm {cfg : Config site.oracle} {primaries : List Primary} :
    Calm site (sportsRun cfg primaries) := by
  refine Calm.past ?_ nofun
  intro canSubmit
  exact runMarkets_calm (fun _ _ _ => sportsBefore_calm) fun _ _ => sportsAfter_calm

/-- The second half of `eventStatus`, which reads the score. -/
def scoreOver (subject : Bytes32) (parentResolved : Bool) : Job Bool := do
  if parentResolved then return true
  else do
    match ← attempt (marketDetail subject) with
    | .ok detail =>
        return decide (detail.scoreStatus = "final" ∨ detail.scoreStatus = "cancelled")
    | .error _ => return false

theorem scoreOver_calm {subject : Bytes32} (parentResolved : Bool) :
    Calm site (scoreOver subject parentResolved) := by
  unfold scoreOver
  split
  · exact .pure
  · refine Calm.bind (Calm.attempt (.ask (by rintro _ _ ⟨⟩))) ?_
    rintro (e | detail) <;> exact .pure

theorem eventStatus_calm {gate : Gate} : Calm site (eventStatus gate) := by
  unfold eventStatus
  split
  · exact .pure
  next subject _ =>
    split
    · refine Calm.bind (Calm.attempt (.ask (by rintro _ _ ⟨⟩))) ?_
      rintro (e | resolved)
      · exact scoreOver_calm false
      · exact scoreOver_calm resolved
    · exact scoreOver_calm false

theorem generalBefore_calm {cfg : Config site.oracle} {researched failed : Nat}
    {m : Candidate} : Calm site (generalBefore cfg researched failed m) := by
  unfold generalBefore
  dsimp only
  apply Calm.resolved
  · exact fun t agreed resolved => Fine.bind (mirrorChainResolved_fine agreed resolved)
      (fun _ u _ => Calm.pure u) fun _ _ => trivial
  · refine Calm.past ?_ (by rintro _ _ ⟨⟩)
    intro onchainClose
    generalize (if m.resolveAfter ≠ 0 then max (max m.closeTime onchainClose) m.resolveAfter
      else max m.closeTime onchainClose +
        (if (gateSubject m).isSome then cfg.gatedDelay else cfg.delay)) = resolveAt
    split
    · exact .pure
    · split
      case' isTrue => apply Calm.bind .pure
      case' isFalse => apply Calm.bind effectiveNow_calm
      all_goals
        intro current
        split
        · exact .pure
        split
        · exact .pure
        split
        · exact mayResearch_calm
        · apply Calm.bind eventStatus_calm
          intro ended
          split
          · exact mayResearch_calm
          · exact .pure

theorem generalAfter_calm {cfg : Config site.oracle} {ready : Ready} {found : Research} :
    Calm site (generalAfter cfg ready found) := by
  unfold generalAfter
  dsimp only
  apply Calm.bind resolvedConcurrently_calm
  rintro (_ | raced)
  · dsimp only
    split
    · exact unresolved_calm
    split
    · exact submitUnanimous_calm (by decide)
    · exact submitUnanimous_calm (by decide)
    · split
      · exact unresolved_calm
      · refine Calm.past ?_ nofun
        intro now
        split
        · exact unresolved_calm
        split
        · exact unresolved_calm
        next agreed most =>
          have side : agreed < 2 := by
            unfold majority at most
            split at most
            · cases most
              decide
            split at most
            · cases most
              decide
            · cases most
          exact settleFallback_calm fun w => runFallback_fine side
  · exact .pure

theorem generalRun_calm {cfg : Config site.oracle} {items : List Candidate} :
    Calm site (generalRun cfg items) := by
  refine Calm.past ?_ nofun
  intro canSubmit
  exact runMarkets_calm (fun _ _ _ => generalBefore_calm) fun _ _ => generalAfter_calm

/-! ### Runs of a job among everybody's calls -/

/-- The runs of the two resolvers, over any markets and with any settings. -/
inductive IsResolveRun (site : Site) : Job (List Entry) → Prop where
  | sports (cfg : Config site.oracle) (primaries : List Primary) :
      IsResolveRun site (sportsRun cfg primaries)
  | general (cfg : Config site.oracle) (items : List Candidate) :
      IsResolveRun site (generalRun cfg items)

theorem IsResolveRun.calm {job : Job (List Entry)} (run : IsResolveRun site job) :
    Calm site job := by
  cases run with
  | sports => exact sportsRun_calm
  | general => exact generalRun_calm

/-- Whenever a resolve job marks a market resolved, the payouts of the market are those of
that outcome, and no later call of anybody changes them. -/
theorem marked_outcome_paid {first : Court} {calls : List Court.Action}
    (initial : Court.Deployed site.oracle first)
    (path : Run (Court.SignedStep site.oracle) first calls w) {job : Job (List Entry)}
    (run : IsResolveRun site job) {t : Court}
    {rest : Except Exc Unit → Job (List Entry)}
    (reached : Relation.ReflTransGen (court site).Step (w, job)
      (t, .call (.markResolved c outcome) rest)) :
    (outcome = 0 ∧ t.tokens.ctf.payoutNumerators c = (1, 0) ∨
      outcome = 1 ∧ t.tokens.ctf.payoutNumerators c = (0, 1)) ∧
    t.tokens.ctf.payoutDenominator c ≠ 0 ∧
    ∀ later, Relation.ReflTransGen (anyCall site) t later →
      later.tokens.ctf.payoutNumerators c = t.tokens.ctf.payoutNumerators c ∧
        later.tokens.ctf.payoutDenominator c = t.tokens.ctf.payoutDenominator c := by
  have agreed : Agreed site.oracle w :=
    path.invariant (ConsensusOracle.initially_agreed initial) fun _ _ _ inv taken => inv.step taken
  rcases Safe.sound (run.calm w) agreed reached with ⟨agreed', safe⟩
  have paid : Paid t c outcome := (safe t .refl agreed').1
  refine ⟨?_, paid.denominator, fun later called => ?_⟩
  · have side := paid.side
    have cases : outcome = 0 ∨ outcome = 1 := by omega
    rcases cases with rfl | rfl
    · exact .inl ⟨rfl, paid.numerators⟩
    · exact .inr ⟨rfl, paid.numerators⟩
  · have kept : Stable site fun u =>
        u.tokens.ctf.payoutDenominator c = t.tokens.ctf.payoutDenominator c ∧
          u.tokens.ctf.payoutNumerators c = t.tokens.ctf.payoutNumerators c := by
      rintro u v ⟨action, taken, -⟩ ⟨denominator, numerators⟩
      rcases ConsensusOracle.payouts_stay (c := c) taken
        (by rw [denominator]; exact paid.denominator) with ⟨denominator', numerators'⟩
      exact ⟨denominator'.trans denominator, numerators'.trans numerators⟩
    exact (kept.calls ⟨rfl, rfl⟩ called).symm

/-- Settings without any agent key. -/
def Config.sample : Config OracleSite.sample where
  coord := ⟨fun _ => none, fun _ _ _ _ _ => .sample 0, fun _ _ _ _ => none,
    fun _ _ _ _ _ _ key => nomatch key⟩
  policy := .attest
  cap := 3
  clock := 100000
  pinned := true
  canSubmit := false
  delay := 0
  gatedDelay := 0
  floor := 1
  yesTeam _ := none
  same _ _ := false

def Site.sample : Site where
  oracle := .sample
  operator := 5
  external := by decide
  signed := by decide

/-- The job asks `op`, is answered `r` and goes on with `next r`. -/
theorem reads {w : Court} {p : Job (List Entry)} (op : Op) (r : Except Exc (Answer op))
    (answered : answers .sample op w r w)
    (next : Except Exc (Answer op) → Job (List Entry)) (here : p = .call op next)
    (further : ∃ rest, Relation.ReflTransGen (court .sample).Step (w, next r)
      (w, .call (.markResolved 7 1) rest)) :
    ∃ rest, Relation.ReflTransGen (court .sample).Step (w, p)
      (w, .call (.markResolved 7 1) rest) := by
  subst here
  rcases further with ⟨rest, path⟩
  exact ⟨rest, .head (.answer answered) path⟩

/-- A market the chain has resolved is marked at once. -/
theorem sample_mirrored {w : Court} (resolved : w.oracle.resolved 7 = true)
    (denominator : w.tokens.ctf.payoutDenominator 7 = 1)
    (numerators : w.tokens.ctf.payoutNumerators 7 = (0, 1)) :
    ∃ rest, Relation.ReflTransGen (court .sample).Step
      (w, generalRun Config.sample [⟨7, false, 0, 0, 0, none, none, false⟩])
      (w, .call (.markResolved 7 1) rest) := by
  refine reads .configCheck (.ok true) rfl _ rfl ?_
  refine reads (.isResolved 7) (.ok true) ⟨rfl, .inl ?_⟩ _ rfl ?_
  · exact congrArg Except.ok resolved.symm
  refine reads (.payoutDenominator 7) (.ok (1 : Nat)) ⟨rfl, .inl ?_⟩ _ rfl ?_
  · exact congrArg Except.ok denominator.symm
  have payouts (side : Fin 2) : answers .sample (.payoutNumerators 7 side) w
      (.ok (oneOf (0, 1) side)) w := by
    refine ⟨rfl, .inl ?_⟩
    rw [numerators]
    rfl
  refine reads (.payoutNumerators 7 0) (.ok (0 : Nat)) (payouts 0) _ rfl ?_
  refine reads (.payoutNumerators 7 1) (.ok (1 : Nat)) (payouts 1) _ rfl ?_
  exact ⟨_, .refl⟩

/-- The theorem over a market the operator arbitrated before the job looked at it. -/
theorem marked_outcome_paid_mirrored :
    ∃ w : Court, w.tokens.ctf.payoutNumerators 7 = (0, 1) ∧
      ∀ later, Relation.ReflTransGen (anyCall .sample) w later →
        later.tokens.ctf.payoutNumerators 7 = (0, 1) := by
  let calls := Court.sampleSplit ++ [.oracle 5 0 (.registerMarket 7 50),
    .oracle 5 90000 (.resolveArbitrated 7 1)]
  rcases (ok_of_isOk (by decide +kernel) : ∃ w, calls.foldlM (Court.perform .sample) .sample =
    .ok w) with ⟨w, done⟩
  have settled : (calls.foldlM (Court.perform .sample) .sample).toOption.map
      (fun w => (w.oracle.resolved 7, w.tokens.ctf.payoutDenominator 7,
        w.tokens.ctf.payoutNumerators 7)) = some (true, 1, 0, 1) := by
    decide +kernel
  rw [done] at settled
  simp only [Except.toOption, Option.map_some, Option.some.injEq, Prod.mk.injEq] at settled
  rcases settled with ⟨resolved, denominator, numerators⟩
  have signed : ∀ call ∈ calls, call.External .sample ∧ call.sender ≠ zeroAddress := by
    decide
  have initial : Court.Deployed Site.sample.oracle .sample := ⟨Court.sample_initial, by decide⟩
  have path : Run (Court.SignedStep Site.sample.oracle) .sample calls w :=
    Run.execute (fun _ _ _ admitted done => ⟨⟨admitted.1, done⟩, admitted.2⟩) signed done
  have resolver : IsResolveRun .sample
      (generalRun Config.sample [⟨7, false, 0, 0, 0, none, none, false⟩]) := .general _ _
  rcases sample_mirrored resolved denominator numerators with ⟨rest, reached⟩
  have paid := marked_outcome_paid initial path resolver reached
  exact ⟨w, numerators, fun later called => (paid.2.2 later called).1.trans numerators⟩

end OverUnder.Oracles
