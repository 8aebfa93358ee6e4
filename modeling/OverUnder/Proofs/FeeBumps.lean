/-
Module: OverUnder.Proofs.FeeBumps
Purpose: The transactions the relayer signs for one job, over any run: fees and gas within their
  caps, every replacement raised by a tenth against all it replaces, and so only as many of them
  as the cap has room for.
Trusted boundary: none
Main exports: Priced, bumpFees_spec, storedQuote_storeQuote, Sound, Escalates, replacements_raise
-/
import Mathlib
import OverUnder.Backend.Fees
import OverUnder.Library.Escalation
import OverUnder.Library.Reachable

namespace OverUnder.Backend.Fees

open OverUnder.Library

variable {s : Settings} {q q' : FeeQuote}

/-! ### Quotes -/

/-- The tip is part of the fee, the fee is within the cap, and a legacy price is both. -/
structure Priced (s : Settings) (q : FeeQuote) : Prop where
  tip_le : q.tip ≤ q.maxFee
  capped : q.maxFee ≤ s.relayerMaxFeePerGasWei
  legacy : ∀ gp, q.legacyGasPrice = some gp → q = ⟨gp, gp, some gp⟩

/-- Rounding up, a factor of eleven tenths or more is reached. -/
theorem raised_ceilBps (s : Settings) (x : Nat) : Raised 11 10 x (ceilBps x (bumpFactor s)) := by
  have factor : 11000 ≤ bumpFactor s := by
    unfold bumpFactor bps
    omega
  have product : x * 11000 ≤ x * bumpFactor s := Nat.mul_le_mul_left x factor
  unfold Raised ceilBps bps
  omega

theorem quoteFees_priced {baseFee suggestedTip gasPrice : Option Nat}
    (quoted : quoteFees s baseFee suggestedTip gasPrice = some q) : Priced s q := by
  unfold quoteFees at quoted
  cases baseFee with
  | none =>
      cases gasPrice with
      | none => cases quoted
      | some gasPrice =>
          dsimp only at quoted
          split at quoted
          · cases quoted
          · rename_i fits
            cases quoted
            constructor
            · exact le_rfl
            · exact not_lt.mp fun high => fits (.inr high)
            · intro gp same
              cases same
              rfl
  | some baseFee =>
      dsimp only at quoted
      split at quoted
      · cases quoted
      · rename_i fits
        cases quoted
        constructor
        · dsimp only
          apply le_min <;> omega
        · exact min_le_right _ _
        · intro gp same
          cases same

/-- A replacement is priced, of the same kind, and raises both the fee and the tip by a tenth. -/
theorem bumpFees_spec {baseFee : Option Nat} (priced : Priced s q)
    (bumped : bumpFees s q baseFee = some q') :
    Priced s q' ∧ Raised 11 10 q.maxFee q'.maxFee ∧ Raised 11 10 q.tip q'.tip ∧
      q'.legacyGasPrice.isSome = q.legacyGasPrice.isSome := by
  unfold bumpFees at bumped
  cases kind : q.legacyGasPrice with
  | some gasPrice =>
      rw [kind] at bumped
      have same := priced.legacy gasPrice kind
      dsimp only at bumped
      split at bumped
      · cases bumped
      · rename_i fits
        cases bumped
        have raised := raised_ceilBps s gasPrice
        rw [same]
        refine ⟨⟨le_rfl, not_lt.mp fits, ?_⟩, raised, raised, rfl⟩
        intro gp this
        cases this
        rfl
  | none =>
      rw [kind] at bumped
      dsimp only at bumped
      split at bumped
      · cases bumped
      · rename_i fits
        rw [not_or, not_lt, not_lt] at fits
        cases bumped
        refine ⟨⟨fits.2, min_le_right _ _, ?_⟩, ?_, raised_ceilBps s q.tip, rfl⟩
        · intro gp this
          cases this
        · have raised := raised_ceilBps s q.maxFee
          unfold Raised at raised ⊢
          exact raised.trans (Nat.mul_le_mul_right 10 fits.1)

/-- What the columns keep of a quote is the quote. -/
theorem storedQuote_storeQuote (priced : Priced s q) : storedQuote (storeQuote q) = q := by
  cases kind : q.legacyGasPrice with
  | none =>
      cases q
      cases kind
      rfl
  | some gasPrice =>
      rw [priced.legacy gasPrice kind]
      rfl

theorem gasLimit_le {estimate gas : Nat} (limited : gasLimit s estimate = some gas) :
    gas ≤ s.relayerGasLimitCap := by
  unfold gasLimit at limited
  dsimp only at limited
  split at limited
  · cases limited
  · cases limited
    exact min_le_right _ _

/-! ### Runs -/

/-- What holds of the transactions signed under one nonce. -/
structure Sound (s : Settings) (attempt : Attempt) : Prop where
  gas_capped : attempt.gas ≤ s.relayerGasLimitCap
  priced : ∀ q ∈ attempt.quotes, Priced s q
  fees_raised : (attempt.quotes.map FeeQuote.maxFee).IsChain (Raised 11 10)
  tips_raised : (attempt.quotes.map FeeQuote.tip).IsChain (Raised 11 10)
  one_kind : ∀ q ∈ attempt.quotes, ∀ last ∈ attempt.quotes.getLast?,
    q.legacyGasPrice.isSome = last.legacyGasPrice.isSome

/-- Every attempt is sound, and the columns hold the last quote of the running one. -/
structure Kept (s : Settings) (job : JobFees) : Prop where
  sound : ∀ attempt ∈ job.attempts, Sound s attempt
  stored : job.nonce ≠ none → job.quotes.getLast? = some (storedQuote job.stored)

theorem Sound.first {nonce gas : Nat} (priced : Priced s q) (capped : gas ≤ s.relayerGasLimitCap) :
    Sound s ⟨nonce, gas, [q]⟩ where
  gas_capped := capped
  priced := by simpa using priced
  fees_raised := List.isChain_singleton _
  tips_raised := List.isChain_singleton _
  one_kind := by simp

theorem Sound.replace {nonce gas : Nat} {quotes : List FeeQuote} {baseFee : Option Nat}
    (sound : Sound s ⟨nonce, gas, quotes⟩) (last : quotes.getLast? = some q)
    (bumped : bumpFees s q baseFee = some q') : Sound s ⟨nonce, gas, quotes ++ [q']⟩ := by
  have here : q ∈ quotes := List.mem_of_getLast? last
  rcases bumpFees_spec (sound.priced q here) bumped with ⟨priced, fee, tip, kind⟩
  constructor
  · exact sound.gas_capped
  · intro x member
    rcases List.mem_append.mp member with before | new
    · exact sound.priced x before
    · rw [List.mem_singleton.mp new]
      exact priced
  · rw [List.map_append]
    apply List.isChain_append.mpr
    refine ⟨sound.fees_raised, List.isChain_singleton _, ?_⟩
    simpa [List.getLast?_map, last] using fee
  · rw [List.map_append]
    apply List.isChain_append.mpr
    refine ⟨sound.tips_raised, List.isChain_singleton _, ?_⟩
    simpa [List.getLast?_map, last] using tip
  · intro x member end' this
    rw [List.getLast?_concat, Option.mem_some_iff] at this
    subst this
    rcases List.mem_append.mp member with before | new
    · exact (sound.one_kind x before q last).trans kind.symm
    · rw [List.mem_singleton.mp new]

theorem send_eq_some {job job' : JobFees} {nonce estimate : Nat}
    {baseFee suggestedTip gasPrice : Option Nat} :
    step s job (.send nonce estimate baseFee suggestedTip gasPrice) = some job' ↔
      job.nonce = none ∧ ∃ gas, gasLimit s estimate = some gas ∧
        ∃ q, quoteFees s baseFee suggestedTip gasPrice = some q ∧
          { job with
            nonce := some nonce, gas := gas, stored := storeQuote q, quotes := [q] } = job' := by
  simp [step, Option.bind_eq_some_iff, Option.map_eq_some_iff]

theorem bump_eq_some {job job' : JobFees} {baseFee : Option Nat} :
    step s job (.bump baseFee) = some job' ↔
      ¬(job.nonce = none ∨ job.gas = 0) ∧
        ∃ q, bumpFees s (storedQuote job.stored) baseFee = some q ∧
          { job with stored := storeQuote q, quotes := job.quotes ++ [q] } = job' := by
  simp [step, Option.map_eq_some_iff]

theorem step_kept {job job' : JobFees} {event : Event} (kept : Kept s job)
    (taken : step s job event = some job') : Kept s job' := by
  cases event with
  | send nonce estimate baseFee suggestedTip gasPrice =>
      rcases send_eq_some.mp taken with ⟨idle, gas, limited, q, quoted, rfl⟩
      have priced := quoteFees_priced quoted
      constructor
      · intro attempt here
        unfold JobFees.attempts at here
        rcases List.mem_append.mp here with before | new
        · apply kept.sound
          unfold JobFees.attempts
          rw [idle]
          exact before
        · rw [List.mem_singleton.mp new]
          exact Sound.first priced (gasLimit_le limited)
      · intro _
        rw [storedQuote_storeQuote priced]
        rfl
  | bump baseFee =>
      rcases bump_eq_some.mp taken with ⟨ready, q, bumped, rfl⟩
      have running : job.nonce ≠ none := fun idle => ready (.inl idle)
      rcases Option.ne_none_iff_exists'.mp running with ⟨nonce, signing⟩
      have attempts : job.attempts = job.past ++ [⟨nonce, job.gas, job.quotes⟩] := by
        unfold JobFees.attempts
        rw [signing]
      have sound : Sound s ⟨nonce, job.gas, job.quotes⟩ := by
        apply kept.sound
        simp [attempts]
      have replaced := sound.replace (kept.stored running) bumped
      constructor
      · intro attempt here
        unfold JobFees.attempts at here
        dsimp only at here
        rw [signing] at here
        rcases List.mem_append.mp here with before | new
        · apply kept.sound
          rw [attempts]
          exact List.mem_append_left _ before
        · rw [List.mem_singleton.mp new]
          exact replaced
      · intro _
        have priced : Priced s q := replaced.priced q (by simp)
        rw [storedQuote_storeQuote priced]
        exact List.getLast?_concat
  | backToPending =>
      cases taken
      constructor
      · exact kept.sound
      · intro running
        exact absurd rfl running

/-- What a job's transactions under one nonce come to: gas and fees within the caps, each fee and
tip a tenth above all they replace, one kind of fee, and as many as the cap has room for. -/
structure Escalates (s : Settings) (attempt : Attempt) : Prop where
  gas_capped : attempt.gas ≤ s.relayerGasLimitCap
  fees_capped : ∀ q ∈ attempt.quotes, q.tip ≤ q.maxFee ∧ q.maxFee ≤ s.relayerMaxFeePerGasWei
  raised : attempt.quotes.Pairwise fun q q' => q.maxFee * 11 ≤ q'.maxFee * 10 ∧
    q.tip * 11 ≤ q'.tip * 10 ∧ q.legacyGasPrice.isSome = q'.legacyGasPrice.isSome
  bounded : ∀ first rest, attempt.quotes = first :: rest →
    first.maxFee * 11 ^ rest.length ≤ s.relayerMaxFeePerGasWei * 10 ^ rest.length

theorem Sound.escalates {attempt : Attempt} (sound : Sound s attempt) : Escalates s attempt where
  gas_capped := sound.gas_capped
  fees_capped := fun q here => ⟨(sound.priced q here).tip_le, (sound.priced q here).capped⟩
  raised := by
    have fees := raised_pairwise (by omega) sound.fees_raised
    have tips := raised_pairwise (by omega) sound.tips_raised
    rw [List.pairwise_map] at fees tips
    have kinds : attempt.quotes.Pairwise fun q q' =>
        q.legacyGasPrice.isSome = q'.legacyGasPrice.isSome := by
      apply List.pairwise_of_forall_mem_list
      intro q here q' there
      cases last : attempt.quotes.getLast? with
      | none =>
          rw [List.getLast?_eq_none_iff.mp last] at here
          cases here
      | some end' =>
          exact (sound.one_kind q here end' last).trans (sound.one_kind q' there end' last).symm
    exact fees.and (tips.and kinds)
  bounded := by
    intro first rest same
    have chain := sound.fees_raised
    rw [same, List.map_cons] at chain
    have capped : ∀ fee ∈ first.maxFee :: rest.map FeeQuote.maxFee,
        fee ≤ s.relayerMaxFeePerGasWei := by
      intro fee here
      rw [← List.map_cons (f := FeeQuote.maxFee), ← same] at here
      rcases List.mem_map.mp here with ⟨q, member, rfl⟩
      exact (sound.priced q member).capped
    simpa using raised_bounded _ chain capped

/-- In every run of sends, replacements and returns to pending, with any prices, what was signed for
the job under each nonce escalates within the caps. -/
theorem replacements_raise {events : List Event} {job : JobFees} {attempt : Attempt}
    (done : events.foldlM (step s) {} = some job) (signed : attempt ∈ job.attempts) :
    Escalates s attempt := by
  have path : Run (fun job event job' => step s job event = some job') {} events job :=
    Run.of_foldlM (fun _ _ _ taken => taken) done
  have start : Kept s {} := by
    constructor
    · intro attempt here
      cases here
    · intro running
      exact absurd rfl running
  have kept : Kept s job := path.invariant start fun a event b kept taken => step_kept kept taken
  exact (kept.sound attempt signed).escalates

def Settings.sample : Settings := ⟨5000000000, 1000000, 1250, 600000, 2000⟩

def Event.sample : List Event :=
  [.send 7 100000 (some 1000000) (some 2000000) none, .bump (some 1000000), .backToPending,
    .send 8 100000 none none (some 3000000)]

def Attempt.sample : Attempt :=
  ⟨7, 120000, [{ maxFee := 4000000, tip := 2000000 }, { maxFee := 4500000, tip := 2250000 }]⟩

def JobFees.sample : JobFees where
  nonce := some 8
  gas := 120000
  stored := { maxFeePerGas := some 3000000 }
  quotes := [{ maxFee := 3000000, tip := 3000000, legacyGasPrice := some 3000000 }]
  past := [.sample]

theorem sample_replacements_raise : Escalates .sample .sample := by
  have done : Event.sample.foldlM (step .sample) {} = some JobFees.sample := by
    decide +kernel
  exact replacements_raise done (List.mem_cons_self ..)

end OverUnder.Backend.Fees
