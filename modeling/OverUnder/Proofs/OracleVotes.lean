/-
Module: OverUnder.Proofs.OracleVotes
Purpose: The weight of a vote is the voter's balance when it votes. While voters
  keep what they voted with, the votes on a condition are backed by its supply;
  once a voter passes its tokens on they vote again.
Trusted boundary: none
Main exports: Ballot, ballots, Counted, VotersKeep, KeepingStep, Backed,
  votes_backed_by_supply, votes_exceed_every_supply
-/
import OverUnder.Proofs.OracleSteps

namespace OverUnder.Contracts.ConsensusOracle

open OverUnder.Vyper
open OverUnder.Library
open ConditionalTokens (supply)

variable (site : OracleSite)

/-! ### The ballots of a run -/

/-- A vote that was cast: by whom, for which outcome, and what it weighed. -/
structure Ballot where
  voter : Address
  outcome : Nat
  weight : Nat
deriving DecidableEq

/-- The vote on `c` that a call casts in a state, with what the voter holds there. -/
def ballot (c : Bytes32) (w : Court) : Court.Action → List Ballot
  | .oracle voter _ (.castVote conditionId outcome) =>
      if conditionId = c then [⟨voter, outcome, holding site w c voter⟩] else []
  | _ => []

/-- The votes on `c` that the calls of a run cast, up to a call that reverts. -/
def ballots (c : Bytes32) : Court → List Court.Action → List Ballot
  | _, [] => []
  | w, call :: rest =>
      match Court.perform site w call with
      | .error _ => []
      | .ok next => ballot site c w call ++ ballots c next rest

/-- The weight of the ballots for the outcomes of one side. -/
def cast (side : Nat → Bool) (counted : List Ballot) : Nat :=
  ((counted.filter fun b => side b.outcome).map Ballot.weight).sum

/-- The votes recorded for `c` are the ballots: an account has one or none, and each side
weighs what its ballots do. -/
structure Counted (c : Bytes32) (counted : List Ballot) (x : ConsensusOracle) : Prop where
  once : (counted.map Ballot.voter).Nodup
  voted : ∀ a, x.voted (c, a) = true ↔ a ∈ counted.map Ballot.voter
  yes : (x.voteWeight c).1 = cast (fun o => o = 0) counted
  no : (x.voteWeight c).2 = cast (fun o => o ≠ 0) counted

/-! ### Voters that keep what they voted with -/

/-- No account that voted on `c` holds less of it after the step, as long as `c` is
unresolved. -/
def VotersKeep (c : Bytes32) (w next : Court) : Prop :=
  next.tokens.ctf.payoutDenominator c = 0 →
    ∀ a, w.oracle.voted (c, a) = true → holding site w c a ≤ holding site next c a

/-- A call in which the voters of `c` keep what they voted with. -/
def KeepingStep (c : Bytes32) (w : Court) (action : Court.Action) (next : Court) : Prop :=
  Court.Step site w action next ∧ VotersKeep site c w next

/-- What the voters of `c` hold now. -/
def votersHolding (c : Bytes32) (w : Court) : Address → Nat :=
  fun a => if w.oracle.voted (c, a) = true then holding site w c a else 0

/-- The votes on an unresolved condition weigh at most what its voters hold. -/
def Backed (c : Bytes32) (w : Court) : Prop :=
  w.tokens.ctf.payoutDenominator c = 0 →
    weight w.oracle c ≤ total (votersHolding site c w)

variable {site} {c : Bytes32} {w next : Court} {action : Court.Action}

theorem ballots_snoc {start : Court} {calls : List Court.Action}
    (done : calls.foldlM (Court.perform site) start = .ok w)
    (last : Court.perform site w action = .ok next) :
    ballots site c start (calls ++ [action]) =
      ballots site c start calls ++ ballot site c w action := by
  induction calls generalizing start with
  | nil =>
      cases done
      simp only [List.nil_append, ballots, last, List.append_nil]
  | cons call rest ih =>
      rw [List.foldlM_cons, bind_ok] at done
      rcases done with ⟨middle, first, done⟩
      simp only [List.cons_append, ballots, first, ih done, List.append_assoc]

theorem cast_append (side : Nat → Bool) (counted more : List Ballot) :
    cast side (counted ++ more) = cast side counted + cast side more := by
  simp only [cast, List.filter_append, List.map_append, List.sum_append]

theorem Counted.initially (initial : Court.Initial site w) : Counted c [] w.oracle := by
  rcases initial.deployed with ⟨operator, agents, fresh⟩
  rw [fresh]
  exact ⟨List.nodup_nil, fun a => by simp [deployed], rfl, rfl⟩

/-- A call that casts no vote on `c` leaves its ballots. -/
theorem Counted.of_same {x x' : ConsensusOracle} {counted : List Ballot}
    (inv : Counted c counted x) (voted : ∀ a, x'.voted (c, a) = x.voted (c, a))
    (weights : x'.voteWeight c = x.voteWeight c) : Counted c (counted ++ []) x' := by
  rw [List.append_nil]
  refine ⟨inv.once, fun a => ?_, ?_, ?_⟩
  · rw [voted]
    exact inv.voted a
  · rw [weights]
    exact inv.yes
  · rw [weights]
    exact inv.no

/-- A vote adds what its voter holds to the side of its outcome. -/
theorem castVote_counted {sender : Address} {timestamp : Nat} {c' : Bytes32} {outcome : Nat}
    {counted : List Ballot} (inv : Counted c counted w.oracle)
    (done : castVote site w sender timestamp c' outcome = .ok next) :
    Counted c (counted ++ ballot site c w (.oracle sender timestamp (.castVote c' outcome)))
      next.oracle := by
  simp only [castVote, bind_ok, require_ok, uadd_ok, pure_ok, exists_const] at done
  rcases done with ⟨-, -, -, -, first, _, ⟨-, rfl⟩, -, weights, added, rfl⟩
  simp only [ballot]
  by_cases here : c' = c
  · subst here
    rw [if_pos rfl]
    have new : sender ∉ counted.map Ballot.voter := fun listed => by
      rw [(inv.voted sender).mpr listed] at first
      cases first
    have sides : weights.1 = (w.oracle.voteWeight c').1 +
          cast (fun o => o = 0) [⟨sender, outcome, holding site w c' sender⟩] ∧
        weights.2 = (w.oracle.voteWeight c').2 +
          cast (fun o => o ≠ 0) [⟨sender, outcome, holding site w c' sender⟩] := by
      unfold addVote at added
      split at added
      · next yes =>
        simp only [bind_ok, uadd_ok, pure_ok] at added
        rcases added with ⟨_, ⟨-, rfl⟩, rfl⟩
        simp [cast, yes, holding]
      · next no =>
        simp only [bind_ok, uadd_ok, pure_ok] at added
        rcases added with ⟨_, ⟨-, rfl⟩, rfl⟩
        simp [cast, no, holding]
    refine ⟨?_, fun a => ?_, ?_, ?_⟩
    · rw [List.map_append, List.map_singleton, ← List.concat_eq_append]
      exact inv.once.concat new
    · rw [List.map_append, List.mem_append, List.map_singleton, List.mem_singleton, ← inv.voted a]
      by_cases voter : a = sender
      · simp [voter]
      · have apart : (c', a) ≠ (c', sender) := fun pair => voter (congrArg Prod.snd pair)
        simp only [Function.update_of_ne apart, voter, or_false]
    · rw [cast_append, ← inv.yes]
      simpa only [Function.update_self] using sides.1
    · rw [cast_append, ← inv.no]
      simpa only [Function.update_self] using sides.2
  · rw [if_neg here]
    refine inv.of_same (fun a => ?_) ?_
    · exact Function.update_of_ne (fun pair => here (congrArg Prod.fst pair).symm) _ _
    · exact Function.update_of_ne (Ne.symm here) _ _

theorem Counted.step {counted : List Ballot} (inv : Counted c counted w.oracle)
    (taken : Court.Step site w action next) :
    Counted c (counted ++ ballot site c w action) next.oracle := by
  have done := taken.done
  cases action with
  | tokens sender tx =>
      simp only [Court.perform, bind_ok, pure_ok] at done
      rcases done with ⟨tokens, -, rfl⟩
      exact inv.of_same (fun _ => rfl) rfl
  | oracle sender timestamp tx =>
      change exec site w sender timestamp tx = .ok next at done
      cases tx with
      | castVote c' outcome => exact castVote_counted inv done
      | _ =>
          rcases exec_cases done with ⟨-, records⟩ | ⟨_, _, vote, -⟩ | ⟨_, _, _, -, -, resolves⟩
          · exact inv.of_same (fun a => congrFun records.voted _) (congrFun records.voteWeight _)
          · cases vote
          · exact inv.of_same (fun a => congrFun resolves.voted _) (congrFun resolves.voteWeight _)

/-- The votes on a condition after a run are the ballots of the run. -/
theorem run_counted {start : Court} {calls : List Court.Action}
    (initial : Court.Initial site start) (path : Run (Court.Step site) start calls w) :
    Counted c (ballots site c start calls) w.oracle := by
  induction path with
  | nil => exact .initially initial
  | snoc before taken ih =>
      have done := before.foldlM_eq fun _ _ _ taken => Court.Step.done taken
      rw [ballots_snoc done taken.done]
      exact ih.step taken

theorem initially_backed (initial : Court.Initial site w) : Backed site c w := by
  rcases initial.deployed with ⟨operator, agents, fresh⟩
  intro _
  have none : weight w.oracle c = 0 := by
    rw [fresh]
    rfl
  rw [none]
  exact Nat.zero_le _

/-- A condition unresolved after a call was unresolved before it. -/
theorem unresolved_before (taken : Court.Step site w action next)
    (unresolved : next.tokens.ctf.payoutDenominator c = 0) :
    w.tokens.ctf.payoutDenominator c = 0 := by
  by_contra resolved
  rcases tokens_step taken with same | ⟨sender, tx, -, done⟩
  · rw [same] at unresolved
    exact resolved unresolved
  · cases tx with
    | ctf tx =>
        have kept := (ConditionalTokens.exec_keeps_payouts resolved done).1
        rw [kept] at unresolved
        exact resolved unresolved
    | usdc tx =>
        simp only [Tokens.exec, bind_ok, pure_ok] at done
        rcases done with ⟨usdc, -, tokens⟩
        rw [tokens] at unresolved
        exact resolved unresolved

/-- A call that casts no vote leaves the weights, and the voters keep their holdings. -/
theorem Backed.of_same (inv : Backed site c w) (taken : Court.Step site w action next)
    (keep : VotersKeep site c w next) (voted : next.oracle.voted = w.oracle.voted)
    (weights : next.oracle.voteWeight = w.oracle.voteWeight) : Backed site c next := by
  intro unresolved
  have before := inv (unresolved_before taken unresolved)
  have same : weight next.oracle c = weight w.oracle c := by
    unfold weight
    rw [weights]
  rw [same]
  refine before.trans (total_le_total ?_)
  intro a
  unfold votersHolding
  rw [voted]
  split
  · next hasVoted => exact keep unresolved a hasVoted
  · exact Nat.le_refl _

/-- A vote adds its weight to both sides. -/
theorem Backed.of_vote {sender : Address} {c' : Bytes32} (inv : Backed site c w)
    (votes : Votes site w next sender c') : Backed site c next := by
  intro unresolved
  have before := inv (by rw [← votes.tokens]; exact unresolved)
  have same : ∀ a, holding site next c a = holding site w c a := by
    intro a
    unfold holding
    rw [votes.tokens]
  by_cases here : c = c'
  · subst here
    have posted : Gains (votersHolding site c w) (votersHolding site c next) sender
        (holding site w c sender) := by
      intro a
      unfold votersHolding
      rw [votes.voted, same]
      by_cases voter : a = sender
      · subst voter
        simp [votes.first]
      · have apart : (c, a) ≠ (c, sender) := fun pair => voter (congrArg Prod.snd pair)
        rw [Function.update_of_ne apart, if_neg voter, Nat.add_zero]
    rw [votes.counted, posted.total_eq]
    exact Nat.add_le_add_right before _
  · rw [votes.others c here]
    refine before.trans (total_le_total ?_)
    intro a
    have apart : (c, a) ≠ (c', sender) := fun pair => here (congrArg Prod.fst pair)
    unfold votersHolding
    rw [votes.voted, same, Function.update_of_ne apart]

theorem Backed.step (inv : Backed site c w) (taken : KeepingStep site c w action next) :
    Backed site c next := by
  rcases taken with ⟨taken, keep⟩
  have done := taken.done
  cases action with
  | tokens sender tx =>
      simp only [Court.perform, bind_ok, pure_ok] at done
      rcases done with ⟨tokens, -, rfl⟩
      exact inv.of_same taken keep rfl rfl
  | oracle sender timestamp tx =>
      rcases exec_cases done with ⟨-, records⟩ | ⟨c', -, -, votes⟩ |
        ⟨c', delay, outcome, -, -, resolves⟩
      · exact inv.of_same taken keep records.voted records.voteWeight
      · exact inv.of_vote votes
      · exact inv.of_same taken keep resolves.voted resolves.voteWeight

/-- What the voters hold is part of the supply. -/
theorem votersHolding_le_supply (site : OracleSite) (c : Bytes32) (w : Court) :
    total (votersHolding site c w) ≤
      supply site.ctf w.tokens.ctf c 0 + supply site.ctf w.tokens.ctf c 1 := by
  unfold supply columnTotal
  rw [← total_add]
  refine total_le_total fun a => ?_
  unfold votersHolding holding
  split
  · exact Nat.le_refl _
  · exact Nat.zero_le _

/-- In every run an account votes at most once on a condition, each side weighs what its voters
held when they voted, and one that has voted is refused; and if voters keep what they voted with,
the votes on an unresolved condition weigh at most its YES and NO supply together. -/
theorem votes_backed_by_supply {start : Court} {calls : List Court.Action}
    (initial : Court.Initial site start) (path : Run (Court.Step site) start calls w) :
    Counted c (ballots site c start calls) w.oracle ∧
    (∀ b ∈ ballots site c start calls, ∀ timestamp outcome next,
      castVote site w b.voter timestamp c outcome ≠ .ok next) ∧
    (Run (KeepingStep site c) start calls w → w.tokens.ctf.payoutDenominator c = 0 →
      (w.oracle.voteWeight c).1 + (w.oracle.voteWeight c).2 ≤
        supply site.ctf w.tokens.ctf c 0 + supply site.ctf w.tokens.ctf c 1) := by
  have counted : Counted c (ballots site c start calls) w.oracle := run_counted initial path
  refine ⟨counted, ?_, ?_⟩
  · intro b cast timestamp outcome next done
    have first := (castVote_spec done).first
    rw [(counted.voted b.voter).mpr (List.mem_map_of_mem cast)] at first
    cases first
  · intro keeping unresolved
    have inv : Backed site c w := keeping.invariant (initially_backed initial)
      fun _ _ _ inv taken => inv.step taken
    exact (inv unresolved).trans (votersHolding_le_supply site c w)

/-- Whether a call is a vote. -/
def isVote : Court.Action → Bool
  | .oracle _ _ (.castVote ..) => true
  | _ => false

/-- Where nobody has voted yet, every call but a vote keeps the voters' holdings. -/
theorem keeping_before_votes {start : Court} {calls : List Court.Action}
    (path : Run (Court.Step site) start calls w) (nobody : start.oracle.voted = fun _ => false)
    (silent : ∀ call ∈ calls, isVote call = false) :
    Run (KeepingStep site c) start calls w ∧ w.oracle.voted = fun _ => false := by
  induction path with
  | nil => exact ⟨.nil _, nobody⟩
  | @snoc before after labels label _ taken ih =>
      rcases ih fun call member => silent call (List.mem_append_left _ member) with
        ⟨keeping, nobodyYet⟩
      have quiet := silent label (List.mem_append_right _ (List.mem_singleton_self _))
      refine ⟨keeping.snoc ⟨taken, ?_⟩, ?_⟩
      · intro _ a hasVoted
        rw [nobodyYet] at hasVoted
        cases hasVoted
      · rw [← nobodyYet]
        have done := taken.done
        cases label with
        | tokens sender tx =>
            simp only [Court.perform, bind_ok, pure_ok] at done
            rcases done with ⟨tokens, -, rfl⟩
            rfl
        | oracle sender timestamp tx =>
            rcases exec_cases done with ⟨-, records⟩ | ⟨_, _, rfl, -⟩ | ⟨_, _, _, -, -, resolves⟩
            · exact records.voted
            · cases quiet
            · exact resolves.voted

/-- The theorem after one vote with twenty tokens. -/
theorem votes_backed_by_supply_after_vote :
    ∃ (calls : List Court.Action) (w : Court), ballots .sample 7 .sample calls = [⟨2, 0, 20⟩] ∧
      Counted 7 [⟨2, 0, 20⟩] w.oracle ∧ w.tokens.ctf.payoutDenominator 7 = 0 ∧
      (w.oracle.voteWeight 7).1 + (w.oracle.voteWeight 7).2 ≤
        supply OracleSite.sample.ctf w.tokens.ctf 7 0 +
          supply OracleSite.sample.ctf w.tokens.ctf 7 1 := by
  let listing := Court.sampleSplit ++ [.oracle 5 0 (.registerMarket 7 50)]
  let vote : Court.Action := .oracle 2 60 (.castVote 7 0)
  obtain ⟨listed, ready⟩ : ∃ w, listing.foldlM (Court.perform .sample) .sample = .ok w :=
    ok_of_isOk (by decide +kernel)
  obtain ⟨w, done⟩ : ∃ w, (listing ++ [vote]).foldlM (Court.perform .sample) .sample = .ok w :=
    ok_of_isOk (by decide +kernel)
  have unresolved : ((listing ++ [vote]).foldlM (Court.perform .sample) .sample).toOption.map
      (fun w => w.tokens.ctf.payoutDenominator 7) = some 0 := by
    decide +kernel
  rw [done] at unresolved
  have unresolved := Option.some.inj unresolved
  have cast : ballots .sample 7 .sample (listing ++ [vote]) = [⟨2, 0, 20⟩] := by decide +kernel
  rw [List.foldlM_append, ready] at done
  simp only [bind_ok, List.foldlM_cons, List.foldlM_nil, pure_ok, Except.ok.injEq,
    exists_eq_left'] at done
  rcases done with ⟨_, taken, rfl⟩
  have path := Court.sample_run (by decide) ready
  have keeping := (keeping_before_votes (c := 7) path rfl (by decide)).1
  have kept : VotersKeep OracleSite.sample 7 listed w := by
    intro _ a _
    unfold holding
    rw [(castVote_spec taken).tokens]
  have votes := votes_backed_by_supply (c := 7) Court.sample_initial (path.snoc ⟨by decide, taken⟩)
  rw [cast] at votes
  exact ⟨listing ++ [vote], w, cast, votes.1, unresolved,
    votes.2.2 (keeping.snoc ⟨⟨by decide, taken⟩, kept⟩) unresolved⟩

/-- The holder of ten complete sets votes, passes them on, and the receiver votes again. -/
def votingTwice : List Court.Action :=
  Court.sampleSplit ++
    [.oracle 5 0 (.registerMarket 7 50), .oracle 2 60 (.castVote 7 0),
      .tokens 2 (.ctf (.safeTransferFrom 2 3 (Nat.pair 7 0) 10)),
      .tokens 2 (.ctf (.safeTransferFrom 2 3 (Nat.pair 7 1) 10)),
      .oracle 3 60 (.castVote 7 0)]

/-- The supply of an unresolved condition is at most twice the collateral behind it. -/
theorem supply_le_collateral {tokens : Tokens} {ctfSite : CtfSite}
    (inv : ConditionalTokens.Collateralised ctfSite tokens)
    (unresolved : tokens.ctf.payoutDenominator c = 0) :
    supply ctfSite tokens.ctf c 0 + supply ctfSite tokens.ctf c 1 ≤
      2 * tokens.usdc.balanceOf ctfSite.self := by
  have owed := ConditionalTokens.obligation_le_total ctfSite tokens.ctf c
  rw [ConditionalTokens.obligation_unresolved unresolved] at owed
  have covered : supply ctfSite tokens.ctf c 0 ≤ tokens.usdc.balanceOf ctfSite.self := by
    exact_mod_cast owed.trans inv.covered
  have matched := inv.matched c unresolved
  omega

/-- The tokens under a run of the oracle stay collateralised. -/
theorem run_collateralised {start : Court} {calls : List Court.Action}
    (initial : Court.Initial site start) (path : Run (Court.Step site) start calls w) :
    ConditionalTokens.Collateralised site.ctf w.tokens := by
  refine path.invariant (I := fun w => ConditionalTokens.Collateralised site.ctf w.tokens)
    (ConditionalTokens.initially_collateralised initial.tokens) ?_
  intro before action after inv taken
  rcases tokens_step taken with same | step
  · rw [same]
    exact inv
  · exact inv.step step

/-- Forty votes on a condition whose YES and NO supply was twenty at most at every
moment of the run. -/
theorem votes_exceed_every_supply :
    ∃ w : Court, Court.Initial .sample .sample ∧
      Run (Court.Step .sample) .sample votingTwice w ∧
      w.tokens.ctf.payoutDenominator 7 = 0 ∧ w.oracle.resolved 7 = false ∧
      (w.oracle.voteWeight 7).1 + (w.oracle.voteWeight 7).2 = 40 ∧
      ∀ earlier s, earlier <+: votingTwice → Run (Court.Step .sample) .sample earlier s →
        supply OracleSite.sample.ctf s.tokens.ctf 7 0 +
          supply OracleSite.sample.ctf s.tokens.ctf 7 1 ≤ 20 := by
  obtain ⟨w, done⟩ : ∃ w, votingTwice.foldlM (Court.perform .sample) .sample = .ok w :=
    ok_of_isOk (by decide +kernel)
  have values : (votingTwice.foldlM (Court.perform .sample) .sample).toOption.map
      (fun w => (w.tokens.ctf.payoutDenominator 7, w.oracle.resolved 7,
        (w.oracle.voteWeight 7).1 + (w.oracle.voteWeight 7).2)) = some (0, false, 40) := by
    decide +kernel
  rw [done] at values
  simp only [Except.toOption, Option.map_some, Option.some.injEq, Prod.mk.injEq] at values
  rcases values with ⟨unresolved, undecided, weight⟩
  refine ⟨w, Court.sample_initial, Court.sample_run (by decide) done, unresolved, undecided,
    weight, ?_⟩
  intro earlier s part path
  -- at every moment at most ten units of collateral are locked
  have locked : ∀ n ≤ votingTwice.length,
      ((votingTwice.take n).foldlM (Court.perform .sample) .sample).toOption.all (fun s =>
        s.tokens.usdc.balanceOf 9 ≤ 10 ∧ s.tokens.ctf.payoutDenominator 7 = 0) = true := by
    decide +kernel
  have here := locked earlier.length part.length_le
  rw [← List.prefix_iff_eq_take.mp part, path.foldlM_eq fun _ _ _ taken => taken.done] at here
  simp only [Except.toOption, Option.all_some, decide_eq_true_eq] at here
  have bound := supply_le_collateral (run_collateralised Court.sample_initial path) here.2
  exact bound.trans (Nat.mul_le_mul_left 2 here.1)

end OverUnder.Contracts.ConsensusOracle
