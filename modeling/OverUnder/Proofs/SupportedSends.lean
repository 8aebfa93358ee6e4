/-
Module: OverUnder.Proofs.SupportedSends
Purpose: Every transaction of the general resolver has the research and the checks of its
  turn behind it, in every run among everybody's calls and with any answers.
Trusted boundary: none
Main exports: Log, hearing, resolveAt, Over, Cleared, Confident, Supports, generalAfter_issues,
  generalBefore_hears, Behind, generalRun_behind, general_sends_supported
-/
import OverUnder.Oracles.Resolve
import OverUnder.Proofs.ResolvedOutcomes

namespace OverUnder.Oracles

open OverUnder.Vyper
open OverUnder.Library
open OverUnder.Contracts
open Program (attempt raise Issues)

variable {α β : Type} {site : Site} {c : Bytes32} {ok : Op → Prop}

/-! ### What the resolver may send -/

/-- The market a transaction is for. -/
def Op.sends : Op → Option Bytes32
  | .submitConsensus c .. | .submitAttestation c .. | .resolveFallback c
  | .resolveArbitrated c _ => some c
  | _ => none

/-- No transaction and no new research. -/
def Quiet (op : Op) : Prop := op.sends = none ∧ ∀ c, op ≠ .research c

/-- At least this confident; a floor above 0 takes a well-formed confidence. -/
abbrev Confident (floor : Rat) (report : Report) : Prop :=
  floor ≤ confidence report ∧ confidence report ≤ 1 ∧
    (0 < floor → report.confidence = some (confidence report))

/-- The reports are decided and two of them say `outcome` confidently. -/
structure TwoSay (floor : Rat) (reports : List Report) (outcome : Nat) : Prop where
  side : outcome < 2
  decided : ∀ report ∈ reports, report.outcome < 2
  two : 2 ≤ (reports.filter fun report => report.outcome = outcome ∧ Confident floor report).length

/-- What the reports must be for the resolver to issue an operation for `c`. -/
def Supports (cfg : Config site.oracle) (c : Bytes32) (reports : List Report) : Op → Prop
  | .submitConsensus c' outcome .. =>
      c' = c ∧ outcome < 2 ∧ reports ≠ [] ∧
        ∀ report ∈ reports, report.outcome = outcome ∧ Confident cfg.floor report
  | .submitAttestation c' outcome evidenceHash deadline sig =>
      c' = c ∧ TwoSay cfg.floor reports outcome ∧ ∃ report ∈ reports,
        report.outcome = outcome ∧ Confident cfg.floor report ∧ evidenceHash = report.evidenceHash ∧
        (cfg.coord.address report.agent).isSome ∧
        sig = cfg.coord.signOne report.agent c outcome evidenceHash deadline
  | .resolveFallback c' => c' = c ∧ ∃ outcome, TwoSay cfg.floor reports outcome
  | .resolveArbitrated .. | .research _ => False
  | _ => True

theorem Quiet.supports {cfg : Config site.oracle} {reports : List Report} (op : Op)
    (quiet : Quiet op) : Supports cfg c reports op := by
  cases op with
  | submitConsensus | submitAttestation | resolveFallback | resolveArbitrated => cases quiet.1
  | research c' => exact absurd rfl (quiet.2 c')
  | _ => trivial

/-! ### What the parts of the resolver issue -/

section Parts

variable (quiet : ∀ op, Quiet op → ok op)

include quiet

theorem issues_ask {op : Op} (still : Quiet op) :
    Issues ok (ask op) :=
  .perform (quiet op still)

theorem onchainOutcome_issues :
    Issues ok (onchainOutcome c) := by
  refine .bind (issues_ask quiet ⟨rfl, nofun⟩) fun denominator => ?_
  split
  · exact .pure
  · refine .bind (issues_ask quiet ⟨rfl, nofun⟩) fun yes => ?_
    exact .bind (issues_ask quiet ⟨rfl, nofun⟩) fun no => .pure

theorem mirrorChainResolved_issues {dbResolved : Bool} :
    Issues ok (mirrorChainResolved c dbResolved) := by
  unfold mirrorChainResolved
  split
  · exact .pure
  · refine .bind (onchainOutcome_issues quiet) ?_
    rintro (_ | outcome)
    · exact .pure
    · exact .bind (issues_ask quiet ⟨rfl, nofun⟩) fun _ => .pure

theorem resolvedConcurrently_issues :
    Issues ok (resolvedConcurrently c) := by
  refine .bind (Issues.attempt (issues_ask quiet ⟨rfl, nofun⟩)) ?_
  rintro (_ | _ | _)
  · exact .pure
  · exact .pure
  · exact .bind (mirrorChainResolved_issues quiet) fun _ => .pure

theorem persistResolution_issues {reports : List Report}
    {outcome : Nat} : Issues ok (persistResolution c reports outcome) := by
  refine .bind (Issues.attempt ?_) fun _ => .pure
  refine .bind (issues_ask quiet ⟨rfl, nofun⟩) fun _ => ?_
  exact issues_ask quiet ⟨rfl, nofun⟩

theorem effectiveNow_issues {cfg : Config site.oracle} :
    Issues ok (effectiveNow cfg) := by
  unfold effectiveNow
  split
  · exact .pure
  · exact .bind (issues_ask quiet ⟨rfl, nofun⟩) fun _ => .pure

theorem unresolved_issues {entry : Entry} :
    Issues ok (unresolved c entry) := by
  refine .bind (issues_ask quiet ⟨rfl, nofun⟩) ?_
  rintro (_ | _) <;> exact .pure

theorem readSlots_issues {is : List (Fin 3)}
    {slots : List Slot} : Issues ok (readSlots c is slots) := by
  induction is generalizing slots with
  | nil => exact .pure
  | cons i rest ih =>
      refine .bind (issues_ask quiet ⟨rfl, nofun⟩) fun agent => ?_
      refine .bind (issues_ask quiet ⟨rfl, nofun⟩) fun submitted => ?_
      exact .bind (issues_ask quiet ⟨rfl, nofun⟩) fun outcome => ih

theorem fallbackState_issues :
    Issues ok (fallbackState c) := by
  refine .bind (readSlots_issues quiet) fun agents => ?_
  refine .bind (issues_ask quiet ⟨rfl, nofun⟩) fun resolved => ?_
  refine .bind (issues_ask quiet ⟨rfl, nofun⟩) fun closeTime => ?_
  refine .bind (issues_ask quiet ⟨rfl, nofun⟩) fun now => ?_
  refine .bind (issues_ask quiet ⟨rfl, nofun⟩) fun window => ?_
  refine .bind (issues_ask quiet ⟨rfl, nofun⟩) fun yes => ?_
  exact .bind (issues_ask quiet ⟨rfl, nofun⟩) fun no => .pure

theorem racedSlot_issues {agent : Address} :
    Issues ok (racedSlot c agent) := by
  refine .bind (fallbackState_issues quiet).attempt ?_
  rintro (_ | _) <;> exact .pure

/-- The attestations are those of the reports. -/
theorem attestAll_issues {coord : Coordinator site.oracle}
    {derived deadline : Nat} {reports : List Report} {p : Progress}
    (allowed : ∀ report ∈ reports, (coord.address report.agent).isSome →
      ok (.submitAttestation c derived report.evidenceHash deadline
        (coord.signOne report.agent c derived report.evidenceHash deadline))) :
    Issues ok (attestAll coord c derived deadline reports p) := by
  induction reports generalizing p with
  | nil => exact .pure
  | cons report rest ih =>
      have later : ∀ {p : Progress}, Issues ok (attestAll coord c derived deadline rest p) :=
        ih fun r below => allowed r (.tail _ below)
      unfold attestAll
      simp only
      split
      · exact later
      · next agent key =>
        split
        · exact later
        · split
          · exact later
          · have here := allowed report (.head _) (by rw [key]; rfl)
            refine .bind (Issues.perform here).attempt ?_
            rintro (e | _)
            · cases e with
              | deferred => exact .raise
              | sendFailed | other =>
                  simp only
                  split
                  · refine .bind (racedSlot_issues quiet) ?_
                    rintro (_ | slot)
                    · exact .raise
                    · exact later
                  · exact .raise
            · exact later

theorem resolveSend_issues {label : String} {attested : List String} {call : Job Unit}
    (sent : Issues ok call) : Issues ok (resolveSend label attested c call) := by
  refine .bind sent.attempt ?_
  rintro (e | _)
  · cases e with
    | deferred => exact .raise
    | sendFailed | other =>
        refine .bind (Issues.attempt (issues_ask quiet ⟨rfl, nofun⟩)) ?_
        rintro (_ | _ | _)
        · exact .raise
        · exact .raise
        · exact .pure
  · exact .pure

omit quiet in
/-- Without leave to arbitrate nothing is sent. -/
theorem arbitrate_issues {derived : Nat} {policy : Policy} {base : Fragment} {blocker : String} :
    Issues ok (arbitrate c derived policy false base blocker) := by
  unfold arbitrate
  rw [if_neg (by simp)]
  exact .pure

theorem runFallback_issues {coord : Coordinator site.oracle} {derived : Nat}
    {reports : List Report} {policy : Policy} {basis : String}
    (attests : ∀ deadline, ∀ report ∈ reports, report.outcome = derived →
      (coord.address report.agent).isSome →
      ok (.submitAttestation c derived report.evidenceHash deadline
        (coord.signOne report.agent c derived report.evidenceHash deadline)))
    (resolves : ok (.resolveFallback c)) :
    Issues ok (runFallback coord c derived reports policy false basis) := by
  unfold runFallback
  simp only
  split
  · exact .pure
  · refine .bind (fallbackState_issues quiet) fun st => ?_
    split
    · exact .pure
    · split
      · exact .pure
      · split
        · exact .pure
        · split
          · exact .pure
          · refine .bind (attestAll_issues quiet ?_) fun p => ?_
            · intro report among key
              rcases List.mem_filter.mp among with ⟨there, same⟩
              exact attests _ report there (of_decide_eq_true same) key
            · split
              · exact arbitrate_issues
              · split
                · exact .pure
                · split
                  · exact arbitrate_issues
                  · refine .bind (issues_ask quiet ⟨rfl, nofun⟩) fun answer => ?_
                    rcases answer with ⟨fine, why⟩
                    simp only
                    split
                    · refine .bind (resolveSend_issues quiet (.perform resolves)) fun sent => ?_
                      split <;> exact .pure
                    · exact arbitrate_issues

theorem submitUnanimous_issues {cfg : Config site.oracle} {reports : List Report} {outcome : Nat}
    (submits : ∀ evidenceHash deadline sigs,
      ok (.submitConsensus c outcome evidenceHash deadline sigs)) :
    Issues ok (submitUnanimous cfg c reports outcome) := by
  cases reports with
  | nil => exact .raise
  | cons first rest =>
      refine .bind (effectiveNow_issues quiet) fun now => ?_
      simp only
      split
      · exact .raise
      · refine .bind (Issues.attempt (.perform (submits _ _ _))) ?_
        rintro (e | _)
        · cases e with
          | deferred => exact .pure
          | sendFailed | other =>
              refine .bind (resolvedConcurrently_issues quiet) ?_
              rintro (_ | raced) <;> exact .pure
        · exact persistResolution_issues quiet

theorem settleFallback_issues {derived : Nat} {reports : List Report} {fallback : Job Fragment}
    (issues : Issues ok fallback) : Issues ok (settleFallback c derived reports fallback) := by
  refine .bind issues.attempt ?_
  rintro (e | fragment)
  · cases e with
    | deferred => exact .pure
    | sendFailed => exact .pure
    | other => exact .raise
  · simp only
    split
    · exact persistResolution_issues quiet
    · split
      · refine .bind (resolvedConcurrently_issues quiet) ?_
        rintro (_ | raced) <;> exact .pure
      · exact unresolved_issues quiet

end Parts

/-! ### After the research -/

/-- The coordinator calls reports unanimous when they are all alike. -/
theorem coordinatorRun_unanimous {reports : List Report} {outcome : Nat}
    (unanimous : (coordinatorRun reports).unanimous = true)
    (found : (coordinatorRun reports).outcome = some outcome) :
    ∀ report ∈ reports, report.outcome = outcome := by
  have one : (reports.map Report.outcome).dedup.length = 1 := of_decide_eq_true unanimous
  have head : reports.head?.map Report.outcome = some outcome := by
    simpa [coordinatorRun, one] using found
  rcases List.length_eq_one_iff.mp one with ⟨o, only⟩
  have all : ∀ report ∈ reports, report.outcome = o := by
    intro report there
    have among := List.mem_dedup.mpr (List.mem_map_of_mem (f := Report.outcome) there)
    rw [only] at among
    exact List.mem_singleton.mp among
  cases reports with
  | nil => cases head
  | cons first rest =>
      have same : first.outcome = outcome := by simpa using head
      intro report there
      rw [all report there, ← all first (.head _), same]

theorem majority_two {outcomes : List Nat} {outcome : Nat}
    (found : majority outcomes = some outcome) :
    outcome < 2 ∧ 2 ≤ (outcomes.filter (· = outcome)).length := by
  unfold majority at found
  split at found
  · next two =>
    cases found
    exact ⟨by decide, two⟩
  · split at found
    · next two =>
      cases found
      exact ⟨by decide, two⟩
    · cases found

theorem confident_iff {floor : Rat} {report : Report} :
    Confident floor report ↔ floor ≤ confidence report := by
  constructor
  · exact And.left
  · intro above
    unfold Confident
    unfold confidence at above ⊢
    cases own : report.confidence with
    | none =>
        rw [own] at above
        exact ⟨above, zero_le_one, fun positive => absurd above (not_le.mpr positive)⟩
    | some value =>
        rw [own] at above
        simp only at above ⊢
        split at above
        · next within =>
          rw [if_pos within]
          exact ⟨above, within.2, fun _ => rfl⟩
        · next outside =>
          rw [if_neg outside]
          exact ⟨above, zero_le_one, fun positive => absurd above (not_le.mpr positive)⟩

/-- A majority of the confident reports. -/
theorem twoSay_of_majority {floor : Rat} {reports : List Report} {outcome : Nat}
    (decided : ∀ report ∈ reports, report.outcome < 2)
    (found : majority ((reports.filter fun r => floor ≤ confidence r).map Report.outcome) =
      some outcome) : TwoSay floor reports outcome := by
  rcases majority_two found with ⟨side, two⟩
  refine ⟨side, decided, ?_⟩
  rw [List.filter_map, List.length_map, List.filter_filter] at two
  refine two.trans_eq (congrArg List.length (List.filter_congr fun report _ => ?_))
  simp only [confident_iff, Bool.decide_and]
  rfl

/-- After research the resolver only sends what the reports support. -/
theorem generalAfter_issues {cfg : Config site.oracle} {ready : Ready} {reports : List Report} :
    Issues (Supports cfg ready.conditionId reports)
      (generalAfter cfg ready (coordinatorRun reports)) := by
  have quiet : ∀ op, Quiet op → Supports cfg ready.conditionId reports op := Quiet.supports
  have unanimous : ∀ outcome < 2, reports ≠ [] →
      ((coordinatorRun reports).unanimous && reports.all fun r => cfg.floor ≤ confidence r) = true →
      (coordinatorRun reports).outcome = some outcome →
      Issues (Supports cfg ready.conditionId reports)
        (submitUnanimous cfg ready.conditionId reports outcome) := by
    intro outcome side some_report agreed found
    rw [Bool.and_eq_true, List.all_eq_true] at agreed
    refine submitUnanimous_issues quiet fun _ _ _ => ⟨rfl, side, some_report, ?_⟩
    intro report there
    exact ⟨coordinatorRun_unanimous agreed.1 found report there,
      confident_iff.mpr (of_decide_eq_true (agreed.2 report there))⟩
  unfold generalAfter
  refine .bind (resolvedConcurrently_issues quiet) ?_
  rintro (_ | raced)
  · change Issues _
      (if reports = [] ∨ reports.any (fun r => decide (r.outcome ≥ 2)) = true then _ else _)
    split
    · exact unresolved_issues quiet
    · next open_ =>
      rw [not_or] at open_
      have decided : ∀ report ∈ reports, report.outcome < 2 := by
        intro report there
        by_contra beyond
        exact open_.2 (List.any_eq_true.mpr ⟨report, there, decide_eq_true (Nat.not_lt.mp beyond)⟩)
      simp only
      split
      · next agreed found => exact unanimous 0 (by decide) open_.1 agreed found
      · next agreed found => exact unanimous 1 (by decide) open_.1 agreed found
      · split
        · exact unresolved_issues quiet
        · refine .bind (issues_ask quiet ⟨rfl, nofun⟩) fun now => ?_
          split
          · exact unresolved_issues quiet
          · split
            · exact unresolved_issues quiet
            · next agreed found =>
              have two := twoSay_of_majority decided found
              refine settleFallback_issues quiet (runFallback_issues quiet ?_ ⟨rfl, agreed, two⟩)
              intro deadline report among same key
              rcases List.mem_filter.mp (List.mem_filter.mp among).1 with ⟨there, confident⟩
              exact ⟨rfl, two, report, there, same,
                confident_iff.mpr (of_decide_eq_true confident), rfl, key, rfl⟩
  · exact .pure

/-! ### What was answered before -/

/-- What the agents report is what their coordinator makes of it. -/
def Reported (op : Op) (r : Except Exc (Answer op)) : Prop :=
  match op, r with
  | .research _, .ok research => ∃ reports : List Report,
      reports.map Report.agent = ["alpha", "beta", "gamma"] ∧ research = coordinatorRun reports
  | _, _ => True

/-- The contracts among everybody's calls, and the agents. -/
def agentsAnd (site : Site) : World Court Op Answer Exc where
  other := anyCall site
  valid _ := True
  answers op w r next := answers site op w r next ∧ Reported op r
  other_valid _ _ := trivial
  answers_valid _ _ := trivial

/-- The answers of a run, with the contracts they were given by. -/
abbrev Log := List (Event Court Op Answer Exc)

/-- `op` was answered with `a`. -/
abbrev heard (op : Op) (w : Court) (a : Answer op) : Event Court Op Answer Exc := ⟨op, w, .ok a⟩

/-- `p` sends nothing and ends with `post` of its answers, appended to those of the turn. -/
def Hears (site : Site) (earlier : Log) (p : Job α) (post : Except Exc α → Log → Prop)
    (turn : Log) : Prop :=
  ∀ w, Safe (agentsAnd site).logged (fun op _ => Quiet op) p
    (fun r t => ∃ turn', t.2 = earlier ++ turn' ∧ post r turn') (w, earlier ++ turn)

namespace Hears

variable {earlier turn : Log} {post : Except Exc α → Log → Prop}

theorem pure {a : α} (holds : post (.ok a) turn) :
    Hears site earlier (Pure.pure a) post turn := by
  intro w
  refine Safe.pure fun t moved _ => ⟨turn, ?_, holds⟩
  exact World.logged_later moved

theorem bind {p : Job α} {f : α → Job β} {post : Except Exc β → Log → Prop}
    (middle : Except Exc α → Log → Prop) (first : Hears site earlier p middle turn)
    (rest : ∀ a turn, middle (.ok a) turn → Hears site earlier (f a) post turn)
    (fails : ∀ e turn, middle (.error e) turn → post (.error e) turn) :
    Hears site earlier (p >>= f) post turn := by
  intro w
  refine Safe.bind ((first w).mono ?_)
  rintro r ⟨v, log⟩ ⟨turn', rfl, holds⟩
  cases r with
  | ok a => exact rest a turn' holds v
  | error e =>
      intro u moved _
      exact ⟨turn', World.logged_later moved, fails e turn' holds⟩

theorem attempt {p : Job α} {post : Except Exc (Except Exc α) → Log → Prop}
    (hears : Hears site earlier p (fun r => post (.ok r)) turn) :
    Hears site earlier (attempt p) post turn :=
  fun w => Safe.attempt (hears w)

theorem ask {op : Op} {post : Except Exc (Answer op) → Log → Prop} (quiet : Quiet op)
    (holds : ∀ w r next, answers site op w r next → post r (turn ++ [⟨op, w, r⟩])) :
    Hears site earlier (ask op) post turn := by
  intro w
  refine Safe.perform (fun _ _ _ => quiet) ?_
  rintro t r u v moved _ answered onward _
  refine ⟨turn ++ [⟨op, t.1, r⟩], ?_, holds _ _ _ answered.1.1⟩
  rw [World.logged_later onward, answered.2, World.logged_later moved, List.append_assoc]

theorem mono {p : Job α} {post' : Except Exc α → Log → Prop} (hears : Hears site earlier p post turn)
    (weaker : ∀ r turn, post r turn → post' r turn) : Hears site earlier p post' turn := by
  intro w
  refine (hears w).mono ?_
  rintro r t ⟨turn', same, holds⟩
  exact ⟨turn', same, weaker r turn' holds⟩

/-- What is quiet only adds to the answers. -/
theorem of_issues {p : Job α} (issues : Issues Quiet p) :
    Hears site earlier p (fun _ turn' => turn ⊆ turn') turn := by
  intro w
  refine Safe.of_issues (K := fun log => ∃ turn', log = earlier ++ turn' ∧ turn ⊆ turn') issues
    (fun _ _ _ quiet _ => quiet) ?_ ⟨turn, rfl, List.Subset.refl _⟩
  rintro op w r log _ ⟨turn', rfl, kept⟩
  exact ⟨turn' ++ [⟨op, w, r⟩], List.append_assoc .., List.subset_append_of_subset_left _ kept⟩

end Hears

/-- When the resolver may research a market that closes on chain at `onchainClose`. -/
def resolveAt (cfg : Config site.oracle) (m : Candidate) (onchainClose : Nat) : Nat :=
  let closeTime := max m.closeTime onchainClose
  if m.resolveAfter ≠ 0 then max closeTime m.resolveAfter
  else closeTime + (if (gateSubject m).isSome then cfg.gatedDelay else cfg.delay)

/-- The resolver was told that the gate is done: its parent is resolved on chain, or its
score is final or cancelled. -/
def Over (gate : Gate) (turn : Log) : Prop :=
  ∃ subject, gate.subject = some subject ∧
    ((gate.parent = true ∧ ∃ w, heard (.isResolved subject) w true ∈ turn ∧
        w.oracle.resolved subject = true) ∨
      ∃ w detail, heard (.marketDetail subject) w detail ∈ turn ∧
        (detail.scoreStatus = "final" ∨ detail.scoreStatus = "cancelled"))

/-- The clock of the run, or the later of it and the clock of the chain. -/
def Clock (cfg : Config site.oracle) (turn : Log) (now : Nat) : Prop :=
  now = cfg.clock ∨ ∃ w chain, heard .chainNow w chain ∈ turn ∧ now = max cfg.clock chain

/-- The resolver was told that the market is unresolved, registered, due and past its gate. -/
structure Cleared (cfg : Config site.oracle) (m : Candidate) (turn : Log) : Prop where
  unresolved : ∃ w, heard (.isResolved m.conditionId) w false ∈ turn ∧
    w.oracle.resolved m.conditionId = false
  due : ∃ w now, heard (.closeTime m.conditionId) w (w.oracle.closeTime m.conditionId) ∈ turn ∧
    w.oracle.closeTime m.conditionId ≠ 0 ∧ Clock cfg turn now ∧
    resolveAt cfg m (w.oracle.closeTime m.conditionId) ≤ now
  gate : ∀ gate, gateSubject m = some gate → Over gate turn

section Before

variable {cfg : Config site.oracle} {m : Candidate} {earlier turn turn' : Log}

theorem Clock.mono {now : Nat} (clock : Clock cfg turn now) (kept : turn ⊆ turn') :
    Clock cfg turn' now := by
  rcases clock with same | ⟨w, chain, asked, same⟩
  · exact .inl same
  · exact .inr ⟨w, chain, kept asked, same⟩

theorem Over.mono {gate : Gate} (ended : Over gate turn) (kept : turn ⊆ turn') :
    Over gate turn' := by
  rcases ended with ⟨subject, known, ⟨parent, w, asked, resolved⟩ | ⟨w, detail, asked, final⟩⟩
  · exact ⟨subject, known, .inl ⟨parent, w, kept asked, resolved⟩⟩
  · exact ⟨subject, known, .inr ⟨w, detail, kept asked, final⟩⟩

theorem Cleared.mono (cleared : Cleared cfg m turn) (kept : turn ⊆ turn') :
    Cleared cfg m turn' := by
  rcases cleared with ⟨⟨w, asked, open_⟩, ⟨w', now, closes, registered, clock, late⟩, gate⟩
  refine ⟨⟨w, kept asked, open_⟩, ⟨w', now, kept closes, registered, clock.mono kept, late⟩, ?_⟩
  exact fun g known => (gate g known).mono kept

/-- What a turn ends with before the research. -/
def Ends (cfg : Config site.oracle) (m : Candidate) (r : Except Exc (Entry ⊕ Ready))
    (turn : Log) : Prop :=
  ∀ ready, r = .ok (.inr ready) → ready.conditionId = m.conditionId ∧ Cleared cfg m turn

theorem ends_entry {entry : Entry} : Ends cfg m (.ok (.inl entry)) turn := nofun

theorem ends_error {e : Exc} : Ends cfg m (.error e) turn := nofun

/-- The market that is researched is the one that was checked. -/
theorem mayResearch_hears {researched failed : Nat} {ready : Ready}
    (same : ready.conditionId = m.conditionId) (cleared : Cleared cfg m turn) :
    Hears site earlier (mayResearch cfg researched failed ready) (Ends cfg m) turn := by
  unfold mayResearch
  simp only
  split
  · exact .pure ends_entry
  · refine .bind _ (.of_issues (issues_ask (fun _ => id) ⟨rfl, nofun⟩)) ?_ fun _ _ _ => ends_error
    rintro (_ | _) turn' kept
    · refine .bind _ (.of_issues (issues_ask (fun _ => id) ⟨rfl, nofun⟩)) ?_ fun _ _ _ => ends_error
      intro left turn'' kept'
      split
      · exact .pure ends_entry
      · split
        · exact .pure ends_entry
        · refine .pure ?_
          rintro _ ⟨⟩
          exact ⟨same, cleared.mono (List.Subset.trans kept kept')⟩
    · exact .pure ends_entry

/-- The answer of one read, and those before it. -/
theorem ask_hears {op : Op} (quiet : Quiet op) : Hears site earlier (ask op)
    (fun r turn' => turn ⊆ turn' ∧
      ∃ w next, ⟨op, w, r⟩ ∈ turn' ∧ answers site op w r next) turn :=
  .ask quiet fun w _ next answered =>
    ⟨List.subset_append_left _ _, w, next, List.mem_concat_self, answered⟩

theorem effectiveNow_hears : Hears site earlier (effectiveNow cfg)
    (fun r turn' => turn ⊆ turn' ∧ ∀ now, r = .ok now → Clock cfg turn' now) turn := by
  unfold effectiveNow
  split
  · refine .pure ⟨List.Subset.refl _, ?_⟩
    rintro _ ⟨⟩
    exact .inl rfl
  · refine .bind _ (ask_hears ⟨rfl, nofun⟩) ?_ ?_
    · rintro chain turn' ⟨kept, w, -, there, -⟩
      refine .pure ⟨kept, ?_⟩
      rintro _ ⟨⟩
      exact .inr ⟨w, chain, there, rfl⟩
    · rintro e turn' ⟨kept, -⟩
      exact ⟨kept, nofun⟩

theorem attempt_hears {op : Op} (quiet : Quiet op) : Hears site earlier (attempt (ask op))
    (fun r turn' => turn ⊆ turn' ∧ ∃ a, r = .ok a ∧
      ∃ w next, ⟨op, w, a⟩ ∈ turn' ∧ answers site op w a next) turn := by
  refine Hears.attempt ((ask_hears quiet).mono ?_)
  rintro r turn' ⟨kept, asked⟩
  exact ⟨kept, r, rfl, asked⟩

/-- What a read of the chain says is so when it is read. -/
theorem Truthful.value {value a : α} {w next : Court} (answered : Truthful value w (.ok a) next) :
    value = a := by
  rcases answered.2 with same | ⟨_, failed⟩
  · exact (Except.ok.inj same).symm
  · cases failed

theorem scoreOver_hears {gate : Gate} {subject : Bytes32} {turn' : Log} (parentResolved : Bool)
    (known : gate.subject = some subject) (kept : turn ⊆ turn')
    (parentOver : parentResolved = true → Over gate turn') :
    Hears site earlier (scoreOver subject parentResolved)
      (fun r turn' => turn ⊆ turn' ∧ (r = .ok true → Over gate turn')) turn' := by
  cases parentResolved with
  | true => exact .pure ⟨kept, fun _ => parentOver rfl⟩
  | false =>
      refine .bind _ (attempt_hears ⟨rfl, by rintro _ ⟨⟩⟩) ?_ ?_
      · rintro r turn'' ⟨kept', a, same, w, next, there, -⟩
        cases same
        cases r with
        | error e => exact .pure ⟨List.Subset.trans kept kept', by rintro ⟨⟩⟩
        | ok detail =>
            refine .pure ⟨List.Subset.trans kept kept', fun final => ?_⟩
            exact ⟨subject, known, .inr ⟨w, detail, there,
              of_decide_eq_true (Except.ok.inj final)⟩⟩
      · rintro e turn'' ⟨-, a, same, -⟩
        cases same

theorem eventStatus_hears {gate : Gate} : Hears site earlier (eventStatus gate)
    (fun r turn' => turn ⊆ turn' ∧ (r = .ok true → Over gate turn')) turn := by
  unfold eventStatus
  split
  · exact .pure ⟨List.Subset.refl _, by rintro ⟨⟩⟩
  · next subject known =>
    split
    · next isParent =>
      refine .bind _ (attempt_hears ⟨rfl, by rintro _ ⟨⟩⟩) ?_ ?_
      · rintro r turn' ⟨kept, a, same, w, next, there, answered⟩
        cases same
        cases r with
        | error e => exact scoreOver_hears false known kept (by rintro ⟨⟩)
        | ok resolved =>
            refine scoreOver_hears resolved known kept ?_
            rintro rfl
            exact ⟨subject, known, .inl ⟨isParent, w, there, Truthful.value answered⟩⟩
      · rintro e turn' ⟨-, a, same, -⟩
        cases same
    · exact scoreOver_hears false known (List.Subset.refl _) (by rintro ⟨⟩)

/-- The last part of `generalBefore`: what waits for its event, and what may be researched. -/
def gated {site : OracleSite} (cfg : Config site) (researched failed : Nat) (m : Candidate)
    (ready : Ready) : Job (Entry ⊕ Ready) :=
  match gateSubject m with
  | none => mayResearch cfg researched failed ready
  | some gate => eventStatus gate >>= fun ended =>
      if ended then mayResearch cfg researched failed ready
      else Pure.pure (.inl (.plain m.conditionId
        (if gate.parent then "parent not final" else "event not final")))

theorem generalBefore_hears {researched failed : Nat} :
    Hears site earlier (generalBefore cfg researched failed m) (Ends cfg m) [] := by
  unfold generalBefore
  refine .bind _ (ask_hears ⟨rfl, by rintro _ ⟨⟩⟩) ?_ fun _ _ _ => ends_error
  rintro resolved turn ⟨-, w, _, asked, answered⟩
  cases resolved with
  | true =>
      refine .bind _ (.of_issues (mirrorChainResolved_issues fun _ => id)) ?_ fun _ _ _ => ends_error
      exact fun entry turn' _ => .pure ends_entry
  | false =>
      have open_ := Truthful.value answered
      refine .bind _ (ask_hears ⟨rfl, by rintro _ ⟨⟩⟩) ?_ fun _ _ _ => ends_error
      rintro onchainClose turn₁ ⟨kept₁, w', _, closes, answered'⟩
      have closed := Truthful.value answered'
      subst closed
      split
      · exact .pure ends_entry
      · next registered =>
        simp only
        let ready : Ready := ⟨m.conditionId, w'.oracle.closeTime m.conditionId, none⟩
        let due := resolveAt cfg m (w'.oracle.closeTime m.conditionId)
        have past : ∀ (now : Nat) (turn₂ : Log), turn₁ ⊆ turn₂ → Clock cfg turn₂ now →
            due ≤ now → Hears site earlier (gated cfg researched failed m ready) (Ends cfg m) turn₂ := by
          intro now turn₂ kept₂ clock late
          have cleared : ∀ turn₃, turn₂ ⊆ turn₃ →
              (∀ gate, gateSubject m = some gate → Over gate turn₃) → Cleared cfg m turn₃ := by
            intro turn₃ kept₃ gates
            have all : turn₁ ⊆ turn₃ := List.Subset.trans kept₂ kept₃
            exact ⟨⟨w, all (kept₁ asked), open_⟩,
              ⟨w', now, all closes, registered, clock.mono kept₃, late⟩, gates⟩
          unfold gated
          split
          · next ungated =>
            refine mayResearch_hears rfl (cleared turn₂ (List.Subset.refl _) ?_)
            rw [ungated]
            rintro gate ⟨⟩
          · next gate known =>
            refine .bind _ eventStatus_hears ?_ fun _ _ _ => ends_error
            rintro ended turn₃ ⟨kept₃, final⟩
            cases ended with
            | false => exact .pure ends_entry
            | true =>
                refine mayResearch_hears rfl (cleared turn₃ kept₃ ?_)
                rintro g same
                rw [known] at same
                cases same
                exact final rfl
        let timed (current : Nat) : Job (Entry ⊕ Ready) :=
          if current < max m.closeTime (w'.oracle.closeTime m.conditionId) then
            Pure.pure (.inl (.plain m.conditionId "not closed"))
          else if current < due then Pure.pure (.inl (.plain m.conditionId "resolve delay"))
          else gated cfg researched failed m ready
        have timely : ∀ (now : Nat) (turn₂ : Log), turn₁ ⊆ turn₂ → Clock cfg turn₂ now →
            Hears site earlier (timed now) (Ends cfg m) turn₂ := by
          intro now turn₂ kept₂ clock
          change Hears site earlier (if _ then _ else _) _ _
          split
          · exact .pure ends_entry
          · split
            · exact .pure ends_entry
            · next late => exact past now turn₂ kept₂ clock (Nat.not_lt.mp late)
        change Hears site earlier
          (if cfg.clock ≥ due then timed cfg.clock else effectiveNow cfg >>= timed) _ _
        split
        · exact timely cfg.clock turn₁ (List.Subset.refl _) (.inl rfl)
        · refine .bind _ effectiveNow_hears ?_ fun _ _ _ => ends_error
          rintro now turn₂ ⟨kept₂, clock⟩
          exact timely now turn₂ kept₂ (clock now rfl)

end Before

/-! ### Every run -/

/-- A transaction for `c` has a turn behind it: the market was cleared, researched, and not
seen resolved right after; the reports support it; there was no research since. -/
def Behind (cfg : Config site.oracle) (items : List Candidate) (op : Op) (s : Court × Log) : Prop :=
  ∀ c, op.sends = some c → ∃ m ∈ items, m.conditionId = c ∧
    ∃ earlier checks w reports v seen later,
      s.2 = earlier ++ checks ++ heard (.research c) w (coordinatorRun reports) ::
        ⟨.isResolved c, v, seen⟩ :: later ∧
      seen ≠ .ok true ∧ (∀ event ∈ later, ∀ c', event.op ≠ .research c') ∧
      Cleared cfg m checks ∧ Supports cfg c reports op

variable {cfg : Config site.oracle} {items : List Candidate}

theorem Quiet.behind {s : Court × Log} (op : Op) (quiet : op.sends = none) :
    Behind cfg items op s := by
  intro c sends
  rw [quiet] at sends
  cases sends

theorem Supports.not_research {reports : List Report} {op : Op}
    (supports : Supports cfg c reports op) (c' : Bytes32) : op ≠ .research c' := by
  rintro rfl
  exact supports

theorem Supports.market {reports : List Report} {op : Op} {c' : Bytes32}
    (supports : Supports cfg c reports op) (sends : op.sends = some c') : c' = c := by
  cases op with
  | submitConsensus | submitAttestation | resolveFallback =>
      cases sends
      exact supports.1
  | resolveArbitrated => exact supports.elim
  | _ => cases sends

/-- Right after the research the market is read again, and given up if it is resolved. -/
theorem generalAfter_rechecks {ready : Ready} {found : Research} :
    ∃ next, generalAfter cfg ready found = .call (.isResolved ready.conditionId) next ∧
      Issues Quiet (next (.ok true)) := by
  refine ⟨_, rfl, ?_⟩
  change Issues Quiet (mirrorChainResolved ready.conditionId false >>=
    (fun fragment => (Pure.pure (some _) : Job (Option Entry))) >>= _)
  rw [Program.bind_assoc]
  exact .bind (mirrorChainResolved_issues fun _ => id) fun _ => .pure

/-- The part of a turn after the research. -/
theorem generalAfter_behind {m : Candidate} {ready : Ready} {reports : List Report}
    {earlier checks : Log} {w : Court} {canSubmit : Bool} {s : Court × Log} (there : m ∈ items)
    (same : ready.conditionId = m.conditionId) (cleared : Cleared cfg m checks)
    (log : s.2 = earlier ++ checks ++
      [heard (.research m.conditionId) w (coordinatorRun reports)]) :
    Safe (agentsAnd site).logged (Behind cfg items)
      (generalAfter { cfg with canSubmit } ready (coordinatorRun reports)) (fun _ _ => True) s := by
  have issues := @generalAfter_issues site { cfg with canSubmit } ready reports
  rcases @generalAfter_rechecks site { cfg with canSubmit } ready (coordinatorRun reports) with
    ⟨next, reads, gives_up⟩
  rw [same] at issues reads
  rw [reads] at issues ⊢
  intro t moved _
  refine ⟨Quiet.behind _ rfl, fun seen u answered => ?_⟩
  have appended : u.2 = earlier ++ checks ++
      heard (.research m.conditionId) w (coordinatorRun reports) ::
        ⟨.isResolved m.conditionId, t.1, seen⟩ :: [] := by
    rw [answered.2, World.logged_later moved, log]
    simp
  by_cases resolved : seen = .ok true
  · rw [resolved]
    refine (Safe.of_issues (K := fun _ => True) gives_up ?_ (fun _ _ _ _ _ _ => trivial)
      trivial).mono fun _ _ _ => trivial
    exact fun op v log quiet _ => Quiet.behind op quiet.1
  · refine (Safe.of_issues (K := fun log => ∃ later, log = earlier ++ checks ++
        heard (.research m.conditionId) w (coordinatorRun reports) ::
          ⟨.isResolved m.conditionId, t.1, seen⟩ :: later ∧
        ∀ event ∈ later, ∀ c', event.op ≠ .research c') (issues.2 seen) ?_ ?_
      ⟨[], appended, nofun⟩).mono fun _ _ _ => trivial
    · rintro op v log supports ⟨later, rfl, quiet⟩ c sends
      cases supports.market sends
      exact ⟨m, there, rfl, earlier, checks, w, reports, t.1, seen, later, rfl, resolved, quiet,
        cleared, supports⟩
    · rintro op v r log supports ⟨later, rfl, quiet⟩
      refine ⟨later ++ [⟨op, v, r⟩], by simp, ?_⟩
      intro event among c'
      rcases List.mem_append.mp among with before | last
      · exact quiet event before c'
      · cases List.mem_singleton.mp last
        exact supports.not_research c'

theorem generalMarkets_behind {canSubmit : Bool} {markets : List Candidate}
    (listed : ∀ m ∈ markets, m ∈ items) {researched failed : Nat} {entries : List Entry}
    (s : Court × Log) :
    Safe (agentsAnd site).logged (Behind cfg items)
      (runMarkets Candidate.conditionId (generalBefore { cfg with canSubmit })
        (generalAfter { cfg with canSubmit }) markets researched failed entries)
      (fun _ _ => True) s := by
  induction markets generalizing researched failed entries s with
  | nil => exact Safe.pure fun _ _ _ => trivial
  | cons m rest ih =>
      have others : ∀ {researched failed : Nat} {entries : List Entry} (s : Court × Log),
          Safe (agentsAnd site).logged (Behind cfg items)
            (runMarkets Candidate.conditionId (generalBefore { cfg with canSubmit })
              (generalAfter { cfg with canSubmit }) rest researched failed entries)
            (fun _ _ => True) s := fun s => ih (fun m below => listed m (.tail _ below)) s
      unfold runMarkets
      refine Safe.bind (Safe.attempt ?_)
      have before := @generalBefore_hears site { cfg with canSubmit } m s.2 researched failed s.1
      rw [List.append_nil] at before
      refine (before.allow fun op t quiet => Quiet.behind op quiet.1).mono ?_
      rintro (e | entry | ready) ⟨v, _⟩ ⟨checks, rfl, ends⟩
      · exact others _
      · exact others _
      · rcases ends ready rfl with ⟨same, cleared⟩
        refine Safe.bind (Safe.attempt (Safe.perform (fun t _ _ => Quiet.behind _ rfl) ?_))
        rintro t r u t' moved _ ⟨⟨-, reported⟩, appended⟩ onward _
        cases r with
        | error e =>
            simp only
            refine Safe.bind (Safe.perform (fun t _ _ => Quiet.behind _ rfl) ?_)
            rintro - (e | exhausted) - t'' - - - - -
            · exact fun _ _ _ => trivial
            · simp only
              split
              · exact others _
              · refine Safe.bind (Safe.perform (fun t _ _ => Quiet.behind _ rfl) ?_)
                rintro - (e | recorded) - t'' - - - - -
                · exact fun _ _ _ => trivial
                · exact others _
        | ok found =>
            rcases reported with ⟨reports, -, rfl⟩
            simp only
            refine Safe.bind (Safe.attempt ?_)
            have log : t'.2 = s.2 ++ checks ++
                [heard (.research m.conditionId) t.1 (coordinatorRun reports)] := by
              rw [World.logged_later onward, appended, World.logged_later moved]
            have settled : Cleared cfg m checks :=
              ⟨cleared.unresolved, cleared.due, cleared.gate⟩
            refine (generalAfter_behind (listed m (.head _)) same settled log).mono ?_
            rintro (e | entry) t'' - <;> exact others _

theorem generalRun_behind (s : Court × Log) :
    Safe (agentsAnd site).logged (Behind cfg items) (generalRun cfg items) (fun _ _ => True) s := by
  refine Safe.bind (Safe.perform (fun _ _ _ => Quiet.behind _ rfl) ?_)
  rintro - (e | canSubmit) - t - - - - -
  · exact fun _ _ _ => trivial
  · exact generalMarkets_behind (fun _ listed => listed) t

/-- In every run of the general resolver among everybody's calls, whatever the agents, the
API and the chain answer: no transaction is `resolveArbitrated`, and each has behind it a turn
that was told the market is unresolved, registered, due and past its gate, and reports
that support it. -/
theorem general_sends_supported {w w' : Court} {log : Log} {op : Op}
    {next : Except Exc (Answer op) → Job (List Entry)} {c : Bytes32}
    (reached : Relation.ReflTransGen (agentsAnd site).logged.Step
      ((w, []), generalRun cfg items) ((w', log), .call op next))
    (sends : op.sends = some c) :
    (∀ outcome, op ≠ .resolveArbitrated c outcome) ∧
    ∃ m ∈ items, m.conditionId = c ∧
      ∃ earlier checks w reports v seen later,
        log = earlier ++ checks ++ heard (.research c) w (coordinatorRun reports) ::
          ⟨.isResolved c, v, seen⟩ :: later ∧
        seen ≠ .ok true ∧ (∀ event ∈ later, ∀ c', event.op ≠ .research c') ∧
        Cleared cfg m checks ∧ Supports cfg c reports op := by
  rcases Safe.sound (generalRun_behind (w, [])) trivial reached with ⟨-, safe⟩
  have behind : Behind cfg items op (w', log) := (safe (w', log) .refl trivial).1
  refine ⟨?_, behind c sends⟩
  rintro outcome rfl
  rcases behind c sends with ⟨_, _, _, _, _, _, _, _, _, _, _, _, _, _, supports⟩
  exact supports

/-! ### A run that sends -/

/-- The last byte of the address of an agent of the sample court. -/
def agentKey (name : String) : Option (BitVec 8) :=
  if name = "alpha" then some 11 else if name = "beta" then some 12
  else if name = "gamma" then some 13 else none

/-- Settings with the keys of the agents. -/
def Config.keyed (floor : Rat) : Config OracleSite.sample where
  coord :=
    { address := fun name => (agentKey name).map fun key => key.setWidth 160
      signOne := fun name _ _ _ _ => .sample ((agentKey name).getD 0)
      signUnanimous := fun _ _ _ _ => some [.sample 11, .sample 12, .sample 13]
      recovers := by
        intro name agent c outcome evidenceHash deadline known
        rcases Option.map_eq_some_iff.mp known with ⟨key, found, rfl⟩
        rw [found]
        unfold agentKey at found
        split at found
        · cases found
          rfl
        · split at found
          · cases found
            rfl
          · split at found
            · cases found
              rfl
            · cases found }
  policy := .attest
  cap := 3
  clock := 100000
  pinned := true
  canSubmit := false
  delay := 0
  gatedDelay := 0
  floor
  yesTeam _ := none
  same _ _ := false

/-- The agents all found outcome 0. -/
def sampleReports (confidence : Option Rat) : List Report :=
  [⟨"alpha", 0, confidence, 3⟩, ⟨"beta", 0, confidence, 4⟩, ⟨"gamma", 0, confidence, 5⟩]

/-- A run that goes on from here sends three signatures for outcome 0 of market 7. -/
def Submits (w w' : Court) (log : Log) (p : Job (List Entry)) (event : Event Court Op Answer Exc) :
    Prop :=
  ∃ log' rest, event ∈ log' ∧ Relation.ReflTransGen (agentsAnd .sample).logged.Step
    ((w, log), p)
    ((w', log'), .call (.submitConsensus 7 0 3 103600 [.sample 11, .sample 12, .sample 13]) rest)

/-- The resolver asks `op`, is answered `r` and goes on with `next r`. -/
theorem Submits.told {w w' : Court} {log : Log} {p : Job (List Entry)}
    {event : Event Court Op Answer Exc} (op : Op) (r : Except Exc (Answer op))
    (answered : answers .sample op w r w ∧ Reported op r)
    (next : Except Exc (Answer op) → Job (List Entry)) (here : p = .call op next)
    (further : Submits w w' (log ++ [⟨op, w, r⟩]) (next r) event) :
    Submits w w' log p event := by
  subst here
  have taken : (agentsAnd .sample).logged.answers op (w, log) r (w, log ++ [⟨op, w, r⟩]) :=
    ⟨answered, rfl⟩
  rcases further with ⟨log', rest, among, path⟩
  exact ⟨log', rest, among, .head (.answer taken) path⟩

theorem Submits.after {w w' : Court} {log : Log} {p q : Job Entry}
    {next : Except Exc Entry → Job (List Entry)} {event : Event Court Op Answer Exc} (same : p = q)
    (further : Submits w w' log (attempt q >>= next) event) :
    Submits w w' log (attempt p >>= next) event := by
  rw [same]
  exact further

/-- A market that closed at 50, without a gate. -/
def sampleItem : Candidate := ⟨7, false, 0, 0, 0, none, none, false⟩

/-- Confident reports that agree are sent, unless the market was seen resolved. -/
theorem sample_after {oracle : OracleSite} {cfg : Config oracle} {ready : Ready} {sure : Option Rat}
    (confident : (sampleReports sure).all (fun r => cfg.floor ≤ confidence r) = true) :
    generalAfter cfg ready (coordinatorRun (sampleReports sure)) =
      resolvedConcurrently ready.conditionId >>= fun seen => match seen with
        | some raced => Pure.pure raced
        | none => submitUnanimous cfg ready.conditionId (sampleReports sure) 0 := by
  refine congrArg (resolvedConcurrently ready.conditionId >>= ·) (funext fun seen => ?_)
  cases seen with
  | some raced => rfl
  | none =>
      simp only [show (coordinatorRun (sampleReports sure)).reports = sampleReports sure from rfl,
        confident]
      rfl

/-- Up to the send, with what others do meanwhile. -/
theorem sample_sends {floor : Rat} {sure : Option Rat} {w w' : Court}
    (confident : (sampleReports sure).all (fun r => floor ≤ confidence r) = true)
    (unresolved : w.oracle.resolved 7 = false) (registered : w.oracle.closeTime 7 = 50)
    (moved : Relation.ReflTransGen (anyCall .sample) w w') :
    Submits w w' [] (generalRun (Config.keyed floor) [sampleItem])
      (heard (.research 7) w (coordinatorRun (sampleReports sure))) := by
  have read : answers .sample (.isResolved 7) w (.ok false) w :=
    ⟨rfl, .inl (congrArg Except.ok unresolved.symm)⟩
  have close : answers .sample (.closeTime 7) w (.ok (50 : Nat)) w :=
    ⟨rfl, .inl (congrArg Except.ok registered.symm)⟩
  have meanwhile : ∀ (log : Log) (p : Job (List Entry)), Relation.ReflTransGen
      (agentsAnd .sample).logged.Step ((w, log), p) ((w', log), p) :=
    fun log p => moved.lift (fun v => ((v, log), p)) fun _ _ call => .other ⟨call, rfl⟩
  refine Submits.told .configCheck (.ok true) ⟨rfl, trivial⟩ _ rfl ?_
  refine Submits.told (.isResolved 7) (.ok false) ⟨read, trivial⟩ _ rfl ?_
  refine Submits.told (.closeTime 7) (.ok (50 : Nat)) ⟨close, trivial⟩ _ rfl ?_
  refine Submits.told (.retryAt 7) (.ok (none : Option Nat)) ⟨rfl, trivial⟩ _ rfl ?_
  refine Submits.told .budgetLeft (.ok true) ⟨rfl, trivial⟩ _ rfl ?_
  refine Submits.told (.research 7) (.ok (coordinatorRun (sampleReports sure)))
    ⟨rfl, sampleReports sure, rfl, rfl⟩ _ rfl ?_
  refine Submits.after (sample_after confident) ?_
  refine Submits.told (.isResolved 7) (.ok false) ⟨read, trivial⟩ _ rfl ?_
  exact ⟨_, _, by simp, meanwhile _ _⟩

/-- A court with market 7 that closes at 50, before and after the operator arbitrates it. -/
theorem sample_courts : ∃ w w' : Court,
    (∃ calls, Run (Court.SignedStep Site.sample.oracle) .sample calls w) ∧
    w.oracle.resolved 7 = false ∧ w.oracle.closeTime 7 = 50 ∧
    anyCall .sample w w' ∧ w'.oracle.resolved 7 = true := by
  let calls := Court.sampleSplit ++ [.oracle 5 0 (.registerMarket 7 50)]
  rcases (ok_of_isOk (by decide +kernel) : ∃ w, calls.foldlM (Court.perform .sample) .sample =
    .ok w) with ⟨w, done⟩
  let arbitrate := Court.Action.oracle 5 90000 (.resolveArbitrated 7 1)
  have settled : (calls.foldlM (Court.perform .sample) .sample).toOption.map (fun w =>
      (w.oracle.resolved 7, w.oracle.closeTime 7,
        (Court.perform .sample w arbitrate).toOption.map fun w' => w'.oracle.resolved 7)) =
      some (false, 50, some true) := by
    decide +kernel
  rw [done] at settled
  simp only [Except.toOption, Option.map_some, Option.some.injEq, Prod.mk.injEq] at settled
  rcases settled with ⟨unresolved, registered, raced⟩
  have signed : ∀ call ∈ calls, call.External .sample ∧ call.sender ≠ zeroAddress := by
    decide
  have path : Run (Court.SignedStep Site.sample.oracle) .sample calls w :=
    Run.execute (fun _ _ _ outsider done => ⟨⟨outsider.1, done⟩, outsider.2⟩) signed done
  cases mined : Court.perform .sample w arbitrate with
  | error e =>
      rw [mined] at raced
      cases raced
  | ok w' =>
      rw [mined] at raced
      refine ⟨w, w', ⟨calls, path⟩, unresolved, registered, ?_, by simpa using raced⟩
      exact ⟨arbitrate, ⟨by decide, mined⟩, by decide⟩

/-- The theorem over the sample run. -/
theorem general_sends_supported_sample :
    ∃ m ∈ [sampleItem], m.conditionId = 7 ∧ ∃ reports : List Report,
      (∀ report ∈ reports, report.outcome = 0 ∧ Confident (4 / 5) report) ∧
      ∃ checks, @Cleared .sample (Config.keyed (4 / 5)) m checks := by
  rcases sample_courts with ⟨w, -, -, unresolved, registered, -, -⟩
  have confident : (sampleReports (some (9 / 10))).all
      (fun r => (4 / 5 : Rat) ≤ confidence r) = true := by
    decide +kernel
  rcases sample_sends confident unresolved registered .refl with ⟨log, rest, -, path⟩
  rcases general_sends_supported path rfl with
    ⟨-, m, listed, same, _, checks, _, reports, _, _, _, -, -, -, cleared, supports⟩
  exact ⟨m, listed, same, reports, supports.2.2.2, checks, cleared⟩

/-- With floor 0 a malformed confidence is enough, and a market may be resolved between the
last read and the send. -/
theorem unsure_and_resolved_sent : ∃ (w w' : Court) (log : Log)
    (rest : Except Exc Unit → Job (List Entry)),
    (∃ calls, Run (Court.SignedStep Site.sample.oracle) .sample calls w) ∧
    Relation.ReflTransGen (agentsAnd .sample).logged.Step
      ((w, []), generalRun (Config.keyed 0) [sampleItem])
      ((w', log),
        .call (.submitConsensus 7 0 3 103600 [.sample 11, .sample 12, .sample 13]) rest) ∧
    heard (.research 7) w (coordinatorRun (sampleReports none)) ∈ log ∧
    (∀ report ∈ sampleReports none, report.confidence = none) ∧
    w'.oracle.resolved 7 = true := by
  rcases sample_courts with ⟨w, w', real, unresolved, registered, raced, resolved⟩
  have confident : (sampleReports none).all (fun r => (0 : Rat) ≤ confidence r) = true := by
    decide +kernel
  rcases sample_sends confident unresolved registered (.single raced) with ⟨log, rest, told, path⟩
  refine ⟨w, w', log, rest, real, path, told, ?_, resolved⟩
  intro report among
  simp only [sampleReports, List.mem_cons, List.not_mem_nil, or_false] at among
  rcases among with rfl | rfl | rfl <;> rfl

end OverUnder.Oracles
