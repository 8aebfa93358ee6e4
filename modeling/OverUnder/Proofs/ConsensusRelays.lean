/-
Module: OverUnder.Proofs.ConsensusRelays
Purpose: Signatures of a consensus that anybody relays one by one beforehand leave the
  consensus as it would have been.
Trusted boundary: none
Main exports: note, recordAll_ok, relayed, consensus_survives_relays
-/
import OverUnder.Proofs.OracleSteps

namespace OverUnder.Contracts.ConsensusOracle

open OverUnder.Vyper

/-! ### Folds that absorb -/

section Folds

variable {σ α : Type} {f : σ → α → σ}

/-- A step that commutes with all steps and is idempotent is absorbed by a fold over it. -/
theorem foldl_absorbs (commutes : ∀ s a b, f (f s a) b = f (f s b) a)
    (idempotent : ∀ s a, f (f s a) a = f s a) {a : α} {l : List α} (listed : a ∈ l) (s : σ) :
    l.foldl f (f s a) = l.foldl f s := by
  induction l generalizing s with
  | nil => cases listed
  | cons b rest ih =>
      rw [List.foldl_cons, List.foldl_cons]
      rcases List.mem_cons.mp listed with rfl | later
      · rw [idempotent]
      · rw [commutes, ih later]

end Folds

variable {site : OracleSite} {w w' next : Court} {x x' : ConsensusOracle}
variable {c : Bytes32} {outcome timestamp deadline digest : Nat} {agent : Address}

/-! ### One attestation noted -/

/-- The attestation is on record, as new or as before. -/
def note (c : Bytes32) (outcome : Nat) (x : ConsensusOracle) (agent : Address) :
    ConsensusOracle :=
  if x.agentSubmitted (c, agent) = false then { x with
    agentSubmitted := Function.update x.agentSubmitted (c, agent) true
    agentOutcome := Function.update x.agentOutcome (c, agent) outcome
    attestationCount := Function.update x.attestationCount c (x.attestationCount c + 1) }
  else x

theorem note_submitted (submitted : x.agentSubmitted (c, agent) = true) :
    note c outcome x agent = x :=
  if_neg (submitted ▸ nofun)

theorem note_records (x : ConsensusOracle) (agent : Address) :
    (note c outcome x agent).agentSubmitted (c, agent) = true := by
  unfold note
  split
  · exact Function.update_self _ _ _
  · next submitted => exact Bool.eq_true_of_not_eq_false submitted

theorem note_other (c : Bytes32) (outcome : Nat) (x : ConsensusOracle) {agent other : Address}
    (apart : other ≠ agent) :
    (note c outcome x agent).agentSubmitted (c, other) = x.agentSubmitted (c, other) ∧
      (note c outcome x agent).agentOutcome (c, other) = x.agentOutcome (c, other) := by
  have keys : (c, other) ≠ (c, agent) := fun same => apart (congrArg Prod.snd same)
  unfold note
  split
  · exact ⟨Function.update_of_ne keys _ _, Function.update_of_ne keys _ _⟩
  · exact ⟨rfl, rfl⟩

/-- What an attestation of one agent depends on besides the agent's own record. -/
theorem note_keeps (c : Bytes32) (outcome : Nat) (x : ConsensusOracle) (agent : Address) :
    (note c outcome x agent).isAgent = x.isAgent ∧
      (note c outcome x agent).closeTime = x.closeTime ∧
      x.attestationCount c ≤ (note c outcome x agent).attestationCount c := by
  unfold note
  split
  · refine ⟨rfl, rfl, ?_⟩
    simp only [Function.update_self]
    exact Nat.le_succ _
  · exact ⟨rfl, rfl, Nat.le_refl _⟩

theorem note_idempotent (x : ConsensusOracle) (agent : Address) :
    note c outcome (note c outcome x agent) agent = note c outcome x agent :=
  note_submitted (note_records x agent)

theorem note_commutes (x : ConsensusOracle) (a b : Address) :
    note c outcome (note c outcome x a) b = note c outcome (note c outcome x b) a := by
  by_cases same : a = b
  · rw [same]
  by_cases left : x.agentSubmitted (c, a) = false
  · by_cases right : x.agentSubmitted (c, b) = false
    · have keys : (c, a) ≠ (c, b) := fun pair => same (congrArg Prod.snd pair)
      have leftThen := (note_other c outcome x same).1.trans left
      have rightThen := (note_other c outcome x (Ne.symm same)).1.trans right
      rw [note, if_pos rightThen]
      conv_rhs => rw [note, if_pos leftThen]
      simp only [note, if_pos left, if_pos right, Function.update_self, Function.update_idem,
        Function.update_comm keys]
    · have submitted := Bool.eq_true_of_not_eq_false right
      have still := (note_other c outcome x (Ne.symm same)).1.trans submitted
      rw [note_submitted submitted, note_submitted still]
  · have submitted := Bool.eq_true_of_not_eq_false left
    have still := (note_other c outcome x same).1.trans submitted
    rw [note_submitted submitted, note_submitted still]

theorem record_notes (unsubmitted : x.agentSubmitted (c, agent) = false) :
    record x c agent outcome = .ok x' ↔ x.isAgent agent = true ∧ outcome < 2 ∧
      x.attestationCount c + 1 < 256 ∧ x' = note c outcome x agent := by
  simp only [record, note, if_pos unsubmitted, bind_ok, require_ok, pure_ok, exists_const]
  constructor
  · rintro ⟨known, -, binary, fits, same⟩
    exact ⟨known, binary, fits, same⟩
  · rintro ⟨known, binary, fits, same⟩
    exact ⟨known, unsubmitted, binary, fits, same⟩

/-! ### The loop of a consensus -/

/-- The agent may attest, or attested the same outcome. -/
structure Agrees (x : ConsensusOracle) (c : Bytes32) (outcome : Nat) (agent : Address) :
    Prop where
  agreed : x.agentSubmitted (c, agent) = true → x.agentOutcome (c, agent) = outcome
  allowed : x.agentSubmitted (c, agent) = false → x.isAgent agent = true ∧ outcome < 2

theorem Agrees.note {a b : Address} (agrees : Agrees x c outcome b) :
    Agrees (note c outcome x a) c outcome b := by
  by_cases same : b = a
  · subst same
    refine ⟨fun _ => ?_, fun absent => ?_⟩
    · by_cases before : x.agentSubmitted (c, b) = false
      · rw [ConsensusOracle.note, if_pos before]
        exact Function.update_self _ _ _
      · have submitted := Bool.eq_true_of_not_eq_false before
        rw [note_submitted submitted]
        exact agrees.agreed submitted
    · rw [note_records x b] at absent
      cases absent
  · rcases note_other c outcome x same with ⟨submitted, said⟩
    refine ⟨fun now => ?_, fun absent => ?_⟩
    · rw [said]
      exact agrees.agreed (submitted.symm.trans now)
    · rw [(note_keeps c outcome x a).1]
      exact agrees.allowed (submitted.symm.trans absent)

theorem Agrees.of_note {a b : Address} (apart : b ≠ a)
    (agrees : Agrees (ConsensusOracle.note c outcome x a) c outcome b) :
    Agrees x c outcome b := by
  rcases note_other c outcome x apart with ⟨submitted, said⟩
  refine ⟨fun now => ?_, fun absent => ?_⟩
  · exact said.symm.trans (agrees.agreed (submitted.trans now))
  · have allowed := agrees.allowed (submitted.trans absent)
    rw [(note_keeps c outcome x a).1] at allowed
    exact allowed

theorem notes_keep (c : Bytes32) (outcome : Nat) (x : ConsensusOracle)
    (agents : List Address) :
    (agents.foldl (note c outcome) x).closeTime = x.closeTime ∧
      x.attestationCount c ≤ (agents.foldl (note c outcome) x).attestationCount c := by
  induction agents generalizing x with
  | nil => exact ⟨rfl, Nat.le_refl _⟩
  | cons a rest ih =>
      rcases note_keeps c outcome x a with ⟨-, closes, count⟩
      exact ⟨(ih _).1.trans closes, count.trans (ih _).2⟩

theorem notes_agree {agents : List Address} {a : Address} (agrees : Agrees x c outcome a) :
    Agrees (agents.foldl (note c outcome) x) c outcome a := by
  induction agents generalizing x with
  | nil => exact agrees
  | cons b rest ih => exact ih agrees.note

/-- The signatures are of distinct agents that agree, and the count of the condition stays
within its byte. -/
structure Unanimous (site : OracleSite) (digest : Nat) (c : Bytes32) (outcome : Nat)
    (x : ConsensusOracle) (seen : List Address) (sigs : List Signature)
    (agents : List Address) : Prop where
  signers : sigs.mapM (recoverSigner site.ecrecover digest) = .ok agents
  unseen : ∀ a ∈ agents, a ∉ seen
  distinct : agents.Nodup
  agree : ∀ a ∈ agents, Agrees x c outcome a
  room : (agents.foldl (note c outcome) x).attestationCount c ≤ max 255 (x.attestationCount c)

/-- A loop that goes through notes the attestation of every signer. -/
theorem recordAll_notes {seen : List Address} {sigs : List Signature}
    (done : recordAll site digest c outcome x seen sigs = .ok x') :
    ∃ agents, Unanimous site digest c outcome x seen sigs agents ∧
      x' = agents.foldl (note c outcome) x := by
  induction sigs generalizing x seen with
  | nil =>
      cases done
      exact ⟨[], ⟨rfl, nofun, .nil, nofun, le_max_right _ _⟩, rfl⟩
  | cons sig sigs ih =>
      simp only [recordAll, bind_ok, require_ok, exists_const] at done
      rcases done with ⟨agent, recovered, fresh, done⟩
      have signed : ∀ {agents}, sigs.mapM (recoverSigner site.ecrecover digest) = .ok agents →
          (sig :: sigs).mapM (recoverSigner site.ecrecover digest) = .ok (agent :: agents) := by
        intro agents all
        simp only [List.mapM_cons, bind_ok, pure_ok]
        exact ⟨agent, recovered, agents, all, rfl⟩
      split at done
      · next unsubmitted =>
        simp only [bind_ok] at done
        rcases done with ⟨x1, recorded, done⟩
        rcases (record_notes unsubmitted).mp recorded with ⟨known, binary, fits, rfl⟩
        rcases ih done with ⟨agents, ⟨signers, unseen, distinct, agree, room⟩, rfl⟩
        have apart : ∀ a ∈ agents, a ≠ agent := fun a listed same =>
          unseen a listed (List.mem_append_right _ (List.mem_singleton.mpr same))
        have count : (note c outcome x agent).attestationCount c = x.attestationCount c + 1 := by
          rw [note, if_pos unsubmitted]
          exact Function.update_self _ _ _
        refine ⟨agent :: agents, ⟨signed signers, ?_, ?_, ?_, ?_⟩, rfl⟩
        · rw [List.forall_mem_cons]
          exact ⟨fresh, fun a listed before => unseen a listed (List.mem_append_left _ before)⟩
        · exact List.nodup_cons.mpr ⟨fun listed => apart agent listed rfl, distinct⟩
        · rw [List.forall_mem_cons]
          refine ⟨⟨fun submitted => ?_, fun _ => ⟨known, binary⟩⟩, fun a listed =>
            (agree a listed).of_note (apart a listed)⟩
          rw [unsubmitted] at submitted
          cases submitted
        · rw [count] at room
          rw [List.foldl_cons]
          omega
      · next submitted =>
        simp only [bind_ok, require_ok, exists_const] at done
        rcases ih done.2 with ⟨agents, ⟨signers, unseen, distinct, agree, room⟩, rfl⟩
        have before := Bool.eq_true_of_not_eq_false submitted
        have apart : ∀ a ∈ agents, a ≠ agent := fun a listed same =>
          unseen a listed (List.mem_append_right _ (List.mem_singleton.mpr same))
        refine ⟨agent :: agents, ⟨signed signers, ?_, ?_, ?_, ?_⟩, ?_⟩
        · rw [List.forall_mem_cons]
          exact ⟨fresh, fun a listed before => unseen a listed (List.mem_append_left _ before)⟩
        · exact List.nodup_cons.mpr ⟨fun listed => apart agent listed rfl, distinct⟩
        · rw [List.forall_mem_cons]
          exact ⟨⟨fun _ => done.1, fun absent => absurd absent submitted⟩, agree⟩
        · rw [List.foldl_cons, note_submitted before]
          exact room
        · rw [List.foldl_cons, note_submitted before]

/-- Distinct agents that agree get through the loop. -/
theorem Unanimous.recordAll {seen agents : List Address} {sigs : List Signature}
    (unanimous : Unanimous site digest c outcome x seen sigs agents) :
    ConsensusOracle.recordAll site digest c outcome x seen sigs =
      .ok (agents.foldl (note c outcome) x) := by
  induction sigs generalizing x seen agents with
  | nil =>
      cases unanimous.signers
      rfl
  | cons sig sigs ih =>
      rcases unanimous with ⟨signers, unseen, distinct, agree, room⟩
      simp only [List.mapM_cons, bind_ok, pure_ok] at signers
      rcases signers with ⟨agent, recovered, rest, all, rfl⟩
      rcases List.forall_mem_cons.mp unseen with ⟨fresh, unseen⟩
      rcases List.forall_mem_cons.mp agree with ⟨agrees, agree⟩
      rcases List.nodup_cons.mp distinct with ⟨once, distinct⟩
      have later : ∀ a ∈ rest, a ∉ seen ++ [agent] := by
        intro a listed before
        rcases List.mem_append.mp before with earlier | now
        · exact unseen a listed earlier
        · exact once (List.mem_singleton.mp now ▸ listed)
      rw [List.foldl_cons] at room ⊢
      simp only [ConsensusOracle.recordAll, bind_ok, require_ok, exists_const]
      refine ⟨agent, recovered, fresh, ?_⟩
      split
      · next unsubmitted =>
        have count : (note c outcome x agent).attestationCount c = x.attestationCount c + 1 := by
          rw [note, if_pos unsubmitted]
          exact Function.update_self _ _ _
        have more := (notes_keep c outcome (note c outcome x agent) rest).2
        rw [count] at more
        rcases agrees.allowed unsubmitted with ⟨known, binary⟩
        simp only [bind_ok]
        refine ⟨_, (record_notes unsubmitted).mpr ⟨known, binary, by omega, rfl⟩, ih
          ⟨all, later, distinct, fun a listed => (agree a listed).note, ?_⟩⟩
        omega
      · next submitted =>
        have before := Bool.eq_true_of_not_eq_false submitted
        rw [note_submitted before] at room ⊢
        simp only [bind_ok, require_ok, exists_const]
        exact ⟨agrees.agreed before, ih ⟨all, later, distinct, agree, room⟩⟩

/-! ### Relays before the consensus -/

/-- Somebody relays one of the signatures at some time. -/
structure Relay where
  sender : Address
  timestamp : Nat
  sig : Signature

/-- The court after one relay, which may revert. -/
def relay (site : OracleSite) (c : Bytes32) (outcome : Nat) (evidenceHash : Bytes32)
    (deadline : Nat) (w : Court) (r : Relay) : Court :=
  match exec site w r.sender r.timestamp
      (.submitAttestation c outcome evidenceHash deadline r.sig) with
  | .ok next => next
  | .error _ => w

/-- The court after the relays, one after the other. -/
def relayed (site : OracleSite) (c : Bytes32) (outcome : Nat) (evidenceHash : Bytes32)
    (deadline : Nat) (w : Court) (relays : List Relay) : Court :=
  relays.foldl (relay site c outcome evidenceHash deadline) w

variable {evidenceHash : Bytes32} {sigs : List Signature} {relays : List Relay}

/-- A relay notes the attestation of its signer or does nothing. -/
theorem relay_notes (w : Court) {r : Relay} {agents : List Address}
    (signers : sigs.mapM (recoverSigner site.ecrecover
      (site.attestDigest c outcome evidenceHash deadline)) = .ok agents) (listed : r.sig ∈ sigs) :
    relay site c outcome evidenceHash deadline w r = w ∨
      ∃ a ∈ agents, relay site c outcome evidenceHash deadline w r =
        { w with oracle := note c outcome w.oracle a } := by
  unfold relay
  split
  · next next done =>
    simp only [exec, submitAttestation, bind_ok, require_ok, pure_ok, exists_const] at done
    rcases done with ⟨oracle, ⟨-, -, agent, recovered, recorded⟩, rfl⟩
    right
    have known : agent ∈ agents := by
      clear recorded
      induction sigs generalizing agents with
      | nil => cases listed
      | cons sig rest ih =>
          simp only [List.mapM_cons, bind_ok, pure_ok] at signers
          rcases signers with ⟨first, signed, others, all, rfl⟩
          rcases List.mem_cons.mp listed with same | later
          · rw [← same, recovered] at signed
            cases signed
            exact .head _
          · exact .tail _ (ih all later)
    refine ⟨agent, known, ?_⟩
    have unsubmitted : w.oracle.agentSubmitted (c, agent) = false := by
      simp only [record, bind_ok, require_ok, exists_const] at recorded
      exact recorded.2.1
    rcases (record_notes unsubmitted).mp recorded with ⟨-, -, -, rfl⟩
    rfl
  · exact .inl rfl

/-- Relays note the attestations of some signers. -/
theorem relayed_notes (w : Court) {agents : List Address}
    (signers : sigs.mapM (recoverSigner site.ecrecover
      (site.attestDigest c outcome evidenceHash deadline)) = .ok agents)
    (subset : ∀ r ∈ relays, r.sig ∈ sigs) :
    ∃ noted : List Address, (∀ a ∈ noted, a ∈ agents) ∧
      relayed site c outcome evidenceHash deadline w relays =
        { w with oracle := noted.foldl (note c outcome) w.oracle } := by
  induction relays generalizing w with
  | nil => exact ⟨[], nofun, rfl⟩
  | cons r rest ih =>
      rcases List.forall_mem_cons.mp subset with ⟨listed, others⟩
      rcases relay_notes w signers listed with same | ⟨a, known, same⟩
      · rcases ih w others with ⟨noted, all, done⟩
        refine ⟨noted, all, ?_⟩
        rw [← done, relayed, List.foldl_cons, same, relayed]
      · rcases ih { w with oracle := note c outcome w.oracle a } others with ⟨noted, all, done⟩
        refine ⟨a :: noted, List.forall_mem_cons.mpr ⟨known, all⟩, ?_⟩
        rw [List.foldl_cons, ← done, relayed, List.foldl_cons, same, relayed]

/-- Notes of some of the agents are absorbed by the notes of all. -/
theorem notes_absorb (c : Bytes32) (outcome : Nat) {agents noted : List Address}
    (all : ∀ a ∈ noted, a ∈ agents) (x : ConsensusOracle) :
    agents.foldl (note c outcome) (noted.foldl (note c outcome) x) =
      agents.foldl (note c outcome) x := by
  induction noted generalizing x with
  | nil => rfl
  | cons a rest ih =>
      rcases List.forall_mem_cons.mp all with ⟨known, others⟩
      rw [List.foldl_cons, ih others,
        foldl_absorbs note_commutes note_idempotent known x]

/-- A consensus that would go through still does, with the very same result, after anybody
relayed some of its signatures in any order, at any time it is open. -/
theorem consensus_survives_relays
    (succeeds : submitConsensus site w timestamp c outcome evidenceHash deadline sigs = .ok next)
    (subset : ∀ r ∈ relays, r.sig ∈ sigs) {later : Nat}
    (closed : w.oracle.closeTime c ≤ later) (punctual : later ≤ deadline) :
    submitConsensus site (relayed site c outcome evidenceHash deadline w relays) later c outcome
      evidenceHash deadline sigs = .ok next := by
  simp only [submitConsensus, bind_ok, require_ok, exists_const] at succeeds
  rcases succeeds with ⟨-, -, three, oracle, recorded, resolved⟩
  rcases recordAll_notes recorded with ⟨agents, unanimous, rfl⟩
  rcases relayed_notes w unanimous.signers subset with ⟨noted, all, done⟩
  have absorbed := notes_absorb c outcome all w.oracle
  have still : Unanimous site (site.attestDigest c outcome evidenceHash deadline) c outcome
      (noted.foldl (note c outcome) w.oracle) [] sigs agents := by
    refine ⟨unanimous.signers, nofun, unanimous.distinct,
      fun a known => notes_agree (unanimous.agree a known), ?_⟩
    rw [absorbed]
    exact unanimous.room.trans (max_le_max_left _ (notes_keep _ _ _ _).2)
  have open' : (noted.foldl (note c outcome) w.oracle).closeTime c ≤ later := by
    rw [(notes_keep c outcome w.oracle noted).1]
    exact closed
  rw [done]
  simp only [submitConsensus, bind_ok, require_ok, exists_const]
  refine ⟨open', punctual, three, _, still.recordAll, ?_⟩
  rw [absorbed]
  exact resolved

/-- The theorem for three signatures of which two are relayed, the later one first. -/
theorem consensus_survives_two_relays :
    ∃ w next : Court, submitConsensus .sample (relayed .sample 7 1 3 100 w
        [⟨9, 40, .sample 13⟩, ⟨9, 41, .sample 12⟩]) 50 7 1 3 100
        [.sample 11, .sample 12, .sample 13] = .ok next := by
  obtain ⟨w, prepared⟩ := ok_of_isOk
    (x := Court.sampleSplit.foldlM (Court.perform .sample) .sample) (by decide +kernel)
  have open' : (Court.sampleSplit.foldlM (Court.perform .sample) .sample).toOption.map
      (fun w => ((submitConsensus .sample w 30 7 1 3 100
        [.sample 11, .sample 12, .sample 13]).isOk, decide (w.oracle.closeTime 7 ≤ 50))) =
      some (true, true) := by
    decide +kernel
  rw [prepared] at open'
  rcases Prod.mk.inj (Option.some.inj open') with ⟨fine, closed⟩
  obtain ⟨next, succeeds⟩ := ok_of_isOk fine
  refine ⟨w, next, consensus_survives_relays succeeds ?_ (of_decide_eq_true closed) (by decide)⟩
  intro r made
  simp only [List.mem_cons, List.not_mem_nil, or_false] at made
  rcases made with rfl | rfl
  · exact .tail _ (.tail _ (.head _))
  · exact .tail _ (.head _)

end OverUnder.Contracts.ConsensusOracle
