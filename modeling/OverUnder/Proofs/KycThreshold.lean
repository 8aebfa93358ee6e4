/-
Module: OverUnder.Proofs.KycThreshold
Purpose: What a user without identification completes within a day stays below the threshold
  as long as no session is opened that does not fit beside those still outstanding, or that the
  float sum of the gate rounds below the threshold.
Trusted boundary: none
Main exports: sum_find?_le, completedWithin, recorded, outstanding, RoundedBelow, Fits,
  Unverified, gate_ge, Exposed, daily_volume_below_threshold, threshold_passed
-/
import Mathlib
import OverUnder.Library.Reachable
import OverUnder.Backend.Ramps

namespace OverUnder.Backend.Ramps

open OverUnder.Library

section Tables

variable {α β κ : Type} [DecidableEq κ] {key : α → κ}

/-- A value that replaces another at no more than one place adds itself at most. -/
theorem sum_replaced_le {k : κ} {c : Rat} {v : α → Rat} {keys : List α}
    (distinct : (keys.map key).Nodup) (c_pos : 0 ≤ c) (v_pos : ∀ a ∈ keys, 0 ≤ v a) :
    (keys.map fun a => if k = key a then c else v a).sum ≤ c + (keys.map v).sum := by
  induction keys with
  | nil => simpa using c_pos
  | cons a rest ih =>
      rw [List.map_cons, List.nodup_cons] at distinct
      have later := fun b listed => v_pos b (.tail a listed)
      simp only [List.map_cons, List.sum_cons]
      by_cases here : k = key a
      · have others : (rest.map fun b => if k = key b then c else v b) = rest.map v := by
          refine List.map_congr_left fun b listed => if_neg fun again => distinct.1 ?_
          rw [← here, again]
          exact List.mem_map_of_mem listed
        rw [if_pos here, others]
        have := v_pos a (.head rest)
        linarith
      · rw [if_neg here]
        have := ih distinct.2 later
        linarith

/-- Rows found by distinct keys weigh no more together than the whole table. -/
theorem sum_find?_le (name : β → κ) (weight : β → Rat) {keys : List α} {rows : List β}
    (distinct : (keys.map key).Nodup) (positive : ∀ r ∈ rows, 0 ≤ weight r) :
    (keys.map fun a =>
      ((rows.find? fun r => decide (name r = key a)).map weight).getD 0).sum ≤
      (rows.map weight).sum := by
  induction rows with
  | nil => simp
  | cons r rest ih =>
      have later := fun x listed => positive x (.tail r listed)
      have split : ∀ a, (((r :: rest).find? fun r => decide (name r = key a)).map weight).getD 0 =
          if name r = key a then weight r else
            ((rest.find? fun r => decide (name r = key a)).map weight).getD 0 := by
        intro a
        rw [List.find?_cons]
        by_cases here : name r = key a
        · simp [here]
        · simp [here]
      simp only [split, List.map_cons, List.sum_cons]
      refine (sum_replaced_le distinct (positive r (.head rest)) fun a _ => ?_).trans
        (by linarith [ih later])
      cases found : rest.find? fun r => decide (name r = key a) with
      | none => exact le_refl 0
      | some x => exact later x (List.mem_of_find?_eq_some found)

end Tables

variable {settings : Settings} {address : String} {w next : State} {event : Event}

/-- The gate passes below the threshold, or with an identification. -/
theorem enforceKycGate_spec {db : Db} {recentTxs : List RampTx} {notionalUsdc : Rat}
    (passed : enforceKycGate settings db recentTxs notionalUsdc address = .ok ()) :
    Floating.round (dailyVolume recentTxs + notionalUsdc) < settings.kycThresholdUsdc ∨
      ∃ record, db.kycRecords address = some record ∧
        (record.status = "pass" ∨ record.status = "not_required") := by
  unfold enforceKycGate at passed
  split at passed
  · cases passed
  · dsimp only at passed
    split at passed
    · cases found : db.kycRecords address with
      | none =>
          rw [found] at passed
          cases passed
      | some record =>
          rw [found] at passed
          dsimp only at passed
          split at passed
          · next verified => exact .inr ⟨record, rfl, verified⟩
          · cases passed
    · next below => exact .inl (lt_of_not_ge fun high => below (.inl high))

theorem normalize_pos {x : Rat} (x_pos : 0 < x) : 0 < normalize x := by
  have large := Int.zpow_log_le_self (b := 10) (by decide) x_pos
  unfold normalize
  rw [abs_of_pos x_pos]
  refine Floating.roundTo_pos (by positivity) (le_trans ?_ (mod_cast large))
  exact zpow_le_zpow_right₀ (by norm_num) (by omega)

/-- A session opens on the asked amount, below the threshold or with an identification. -/
theorem session_spec {recentTxs : List RampTx} {usdcAmount : Rat} {widget : Widget}
    (done : moonpaySession settings w.db recentTxs usdcAmount address = .ok widget) :
    0 < usdcAmount ∧ widget = ⟨address, normalize usdcAmount⟩ ∧
      (Floating.round (dailyVolume recentTxs + Floating.round usdcAmount) <
          settings.kycThresholdUsdc ∨
        ∃ record, w.db.kycRecords address = some record ∧
          (record.status = "pass" ∨ record.status = "not_required")) := by
  unfold moonpaySession at done
  split at done
  · cases done
  · split at done
    · cases done
    · next bounds =>
      split at done
      · cases done
      · next passed =>
        cases done
        exact ⟨lt_of_not_ge fun low => bounds (.inl low), rfl, enforceKycGate_spec passed⟩

/-! ### What is completed, and what is outstanding -/

/-- What the user's session brought in the day that starts at `t`: the amount that it locked. -/
def Session.completedWithin (w : State) (t : Nat) (s : Session) : Rat :=
  match w.row s with
  | none => 0
  | some tx =>
      if tx.completed = true ∧ t ≤ tx.createdAt ∧ tx.createdAt ≤ t + oneDay then
        s.widget.baseCurrencyAmount
      else 0

/-- The user's sessions. -/
def State.own (w : State) (address : String) : List Session :=
  w.sessions.filter fun s => decide (s.widget.walletAddress = address)

/-- The amount of the user's completed transactions of the day that starts at `t`. -/
def completedWithin (w : State) (address : String) (t : Nat) : Rat :=
  ((w.own address).map (Session.completedWithin w t)).sum

/-- The gate at `now` counts the session. -/
def Session.counted (w : State) (address : String) (now : Nat) (s : Session) : Bool :=
  (w.row s).any (RampTx.counts address now)

/-- The amount of the user's sessions that the gate counts. -/
def recorded (w : State) (address : String) (now : Nat) : Rat :=
  (((w.own address).filter (Session.counted w address now)).map
    fun s => s.widget.baseCurrencyAmount).sum

/-- The gate at `now` does not count the session, which may still land in the same day: its
transaction is unknown yet, or of the last day and not completed or under another wallet. -/
def Session.outstanding (w : State) (address : String) (now : Nat) (s : Session) : Bool :=
  match w.row s with
  | none => true
  | some tx => decide (now - oneDay ≤ tx.createdAt) && !tx.counts address now

/-- The user's outstanding sessions. -/
def outstanding (w : State) (address : String) (now : Nat) : List Session :=
  (w.own address).filter (Session.outstanding w address now)

/-- The least that rounding leaves of an amount in the sum over some rows: each row and the amount
itself become floats, and each is added. -/
def leastSum (rows : Nat) (amount : Rat) : Rat :=
  Floating.kept (rows + 2) * amount - (2 * rows + 2) * Floating.tiny

/-- With a new session the recorded amount reaches the threshold, by so little that the rounding
of the gate's sum may hide it. -/
def RoundedBelow (settings : Settings) (address : String) (w : State) (usdcAmount : Rat)
    (now : Nat) : Prop :=
  settings.kycThresholdUsdc ≤ recorded w address now + normalize usdcAmount ∧
    leastSum (w.db.rampTxs.filter (RampTx.counts address now)).length
      (recorded w address now + usdcAmount) < settings.kycThresholdUsdc

/-- A session opened while others are outstanding stays below the threshold with all of them. One
opened while none is need not, unless rounding may hide that it reaches the threshold. -/
def Fits (settings : Settings) (address : String) (w : State) (event : Event) : Prop :=
  ∀ usdcAmount now id, event = .session address usdcAmount now id →
    outstanding w address now = [] ∧ ¬RoundedBelow settings address w usdcAmount now ∨
      recorded w address now +
        ((outstanding w address now).map fun s => s.widget.baseCurrencyAmount).sum +
          normalize usdcAmount < settings.kycThresholdUsdc

/-- The user asks without a passed identification. -/
def Unverified (address : String) (w : State) (event : Event) : Prop :=
  ∀ usdcAmount now id, event = .session address usdcAmount now id →
    ∀ record, w.db.kycRecords address = some record →
      record.status ≠ "pass" ∧ record.status ≠ "not_required"

/-! ### The exposure of a day -/

/-- What a session may bring in the day that starts at `t`. -/
def Session.exposure (w : State) (t : Nat) (s : Session) : Rat :=
  match w.row s with
  | none => if s.openedAt ≤ t + oneDay then s.widget.baseCurrencyAmount else 0
  | some tx =>
      if t ≤ tx.createdAt ∧ tx.createdAt ≤ t + oneDay then s.widget.baseCurrencyAmount else 0

structure Exposed (settings : Settings) (address : String) (w : State) : Prop where
  distinct : (w.sessions.map Session.id).Nodup
  positive : ∀ s ∈ w.sessions, 0 < s.widget.baseCurrencyAmount
  known : ∀ tx ∈ w.db.rampTxs, ∃ s ∈ w.sessions, s.id = tx.providerId ∧
    Floating.round tx.amount = Floating.round s.widget.baseCurrencyAmount
  below : ∀ t, ((w.own address).map (Session.exposure w t)).sum < settings.kycThresholdUsdc

namespace Exposed

theorem amount_nonneg (inv : Exposed settings address w) {tx : RampTx}
    (listed : tx ∈ w.db.rampTxs) : 0 ≤ Floating.round tx.amount := by
  rcases inv.known tx listed with ⟨s, opened, -, amount⟩
  rw [amount]
  exact Floating.round_nonneg (inv.positive s opened).le

theorem row_amount (inv : Exposed settings address w) {s : Session} (opened : s ∈ w.sessions)
    {tx : RampTx} (found : w.row s = some tx) :
    Floating.round tx.amount = Floating.round s.widget.baseCurrencyAmount := by
  rcases inv.known tx (List.mem_of_find?_eq_some found) with ⟨s', opened', same, amount⟩
  have named : tx.providerId = s.id := by simpa using List.find?_some found
  rw [amount, List.inj_on_of_nodup_map inv.distinct opened' opened (same.trans named)]

/-- The sessions that the gate counts weigh little more than the floats it sums. -/
theorem recorded_le (inv : Exposed settings address w) {now : Nat} {recentTxs : List RampTx}
    (lists : Lists w.db address now recentTxs) :
    (1 - Floating.unit) * recorded w address now ≤
      (recentTxs.map fun tx => Floating.round tx.amount).sum + recentTxs.length * Floating.tiny := by
  let weight : RampTx → Rat := fun tx =>
    if tx.counts address now then Floating.round tx.amount + Floating.tiny else 0
  have small := Floating.tiny_pos
  have distinct : ((w.own address).map Session.id).Nodup :=
    inv.distinct.sublist (List.filter_sublist.map _)
  have rows := sum_find?_le RampTx.providerId weight distinct
    fun tx (listed : tx ∈ w.db.rampTxs) => by
      have positive := inv.amount_nonneg listed
      dsimp only [weight]
      split
      · linarith
      · exact le_refl 0
  have each : ∀ s ∈ w.own address, (if Session.counted w address now s = true then
      (1 - Floating.unit) * s.widget.baseCurrencyAmount else 0) ≤
        ((w.row s).map weight).getD 0 := by
    intro s listed
    have opened := List.mem_of_mem_filter listed
    unfold Session.counted
    cases found : w.row s with
    | none => simp
    | some tx =>
        simp only [Option.any_some, Option.map_some, Option.getD_some, weight]
        by_cases counts : tx.counts address now = true
        · have rounded := Floating.round_ge (inv.positive s opened).le
          rw [if_pos counts, if_pos counts, inv.row_amount opened found]
          linarith
        · rw [if_neg counts, if_neg counts]
  calc (1 - Floating.unit) * recorded w address now
      = ((w.own address).map fun s => if Session.counted w address now s = true then
          (1 - Floating.unit) * s.widget.baseCurrencyAmount else 0).sum := by
        rw [recorded, ← List.sum_map_mul_left, List.sum_map_ite]
        simp
    _ ≤ ((w.own address).map fun s => ((w.row s).map weight).getD 0).sum := List.sum_le_sum each
    _ ≤ (w.db.rampTxs.map weight).sum := rows
    _ = ((w.db.rampTxs.filter (RampTx.counts address now)).map
          fun tx => Floating.round tx.amount + Floating.tiny).sum := by
        rw [List.sum_map_ite]
        simp
    _ = (recentTxs.map fun tx => Floating.round tx.amount + Floating.tiny).sum :=
        ((lists.map _).sum_eq).symm
    _ = (recentTxs.map fun tx => Floating.round tx.amount).sum +
          recentTxs.length * Floating.tiny := by
        rw [List.sum_map_add, List.map_const', List.sum_replicate, nsmul_eq_mul]

/-- The sum of the gate is at least what rounding leaves of the recorded amount and the new one. -/
theorem gate_ge (inv : Exposed settings address w) {now : Nat} {recentTxs : List RampTx}
    (lists : Lists w.db address now recentTxs) {usdcAmount : Rat} (positive : 0 < usdcAmount) :
    leastSum (w.db.rampTxs.filter (RampTx.counts address now)).length
      (recorded w address now + usdcAmount) ≤
        Floating.round (dailyVolume recentTxs + Floating.round usdcAmount) := by
  have terms_pos : ∀ x ∈ recentTxs.map fun tx => Floating.round tx.amount, 0 ≤ x := by
    intro x listed
    rcases List.mem_map.mp listed with ⟨tx, recent, rfl⟩
    exact inv.amount_nonneg (List.mem_of_mem_filter (lists.mem_iff.mp recent))
  have volume := Floating.sum_ge terms_pos
  have rows := inv.recorded_le lists
  have notional := Floating.round_ge positive.le
  have whole := Floating.round_ge
    (add_nonneg (Floating.sum_nonneg terms_pos) (Floating.round_nonneg positive.le))
  rw [List.length_map] at volume
  rw [← lists.length_eq]
  change _ ≤ Floating.round (Floating.sum (recentTxs.map fun tx => Floating.round tx.amount) +
    Floating.round usdcAmount)
  generalize Floating.sum (recentTxs.map fun tx => Floating.round tx.amount) = total at *
  generalize (recentTxs.map fun tx => Floating.round tx.amount).sum = exact at *
  generalize recentTxs.length = n at *
  have keeps := Floating.kept_nonneg n
  have most := Floating.kept_le_one n
  have small := Floating.tiny_pos
  have unit := Floating.unit_bounds
  have rest : 0 ≤ 1 - Floating.unit := by linarith
  have count : (0 : Rat) ≤ n := Nat.cast_nonneg n
  -- what is left of the rows, of the new amount, and of both
  have volume : Floating.kept (n + 1) * recorded w address now - 2 * n * Floating.tiny ≤ total := by
    have scaled := mul_le_mul_of_nonneg_left rows keeps
    have dropped : Floating.kept n * (n * Floating.tiny) ≤ n * Floating.tiny :=
      mul_le_of_le_one_left (mul_nonneg count small.le) most
    rw [Floating.kept_succ]
    linarith
  have fresh : Floating.kept (n + 1) * usdcAmount - Floating.tiny ≤ Floating.round usdcAmount := by
    have scaled : Floating.kept n * ((1 - Floating.unit) * usdcAmount) ≤
        (1 - Floating.unit) * usdcAmount :=
      mul_le_of_le_one_left (mul_nonneg rest positive.le) most
    rw [Floating.kept_succ]
    linarith
  have both := mul_le_mul_of_nonneg_left (add_le_add volume fresh) rest
  have dropped :
      (1 - Floating.unit) * ((2 * n + 1) * Floating.tiny) ≤ (2 * n + 1) * Floating.tiny :=
    mul_le_of_le_one_left (by positivity) (by linarith)
  unfold leastSum
  rw [Floating.kept_succ (n + 1)]
  linarith

/-- What may land in a day that is not over is counted or outstanding. -/
theorem exposure_le (inv : Exposed settings address w) {t now : Nat}
    (unfinished : now ≤ t + oneDay) :
    ((w.own address).map (Session.exposure w t)).sum ≤ recorded w address now +
      ((outstanding w address now).map fun s => s.widget.baseCurrencyAmount).sum := by
  have each : ∀ s ∈ w.own address, Session.exposure w t s ≤
      (if Session.counted w address now s = true then s.widget.baseCurrencyAmount else 0) +
        if Session.outstanding w address now s = true then s.widget.baseCurrencyAmount else 0 := by
    intro s listed
    have amount := (inv.positive s (List.mem_of_mem_filter listed)).le
    unfold Session.exposure Session.counted Session.outstanding
    cases found : w.row s with
    | none =>
        simp only [Option.any_none, Bool.false_eq_true, if_false, if_true, zero_add]
        split
        · exact le_refl _
        · exact amount
    | some tx =>
        simp only [Option.any_some]
        by_cases within : t ≤ tx.createdAt ∧ tx.createdAt ≤ t + oneDay
        · have recent : now - oneDay ≤ tx.createdAt :=
            Nat.sub_le_of_le_add (unfinished.trans (Nat.add_le_add_right within.1 oneDay))
          rw [if_pos within]
          by_cases counted : tx.counts address now = true
          · simp only [counted, if_true, Bool.not_true, Bool.and_false, Bool.false_eq_true,
              if_false, add_zero, le_refl]
          · simp only [counted, recent, decide_true, Bool.not_false, Bool.and_true, if_true,
              Bool.false_eq_true, if_false, zero_add, le_refl]
        · rw [if_neg within]
          refine add_nonneg ?_ ?_
          all_goals
            split
            · exact amount
            · exact le_refl 0
  calc ((w.own address).map (Session.exposure w t)).sum
      ≤ ((w.own address).map fun s =>
          (if Session.counted w address now s = true then s.widget.baseCurrencyAmount else 0) +
          if Session.outstanding w address now s = true then s.widget.baseCurrencyAmount
          else 0).sum := List.sum_le_sum each
    _ = recorded w address now +
        ((outstanding w address now).map fun s => s.widget.baseCurrencyAmount).sum := by
      rw [List.sum_map_add, List.sum_map_ite, List.sum_map_ite]
      simp [outstanding, recorded]

theorem row_unknown (inv : Exposed settings address w) {s : Session}
    (fresh : ∀ s' ∈ w.sessions, s'.id ≠ s.id) : w.row s = none := by
  refine List.find?_eq_none.mpr fun tx listed => ?_
  rcases inv.known tx listed with ⟨s', opened, same, -⟩
  rw [← same, decide_eq_true_eq]
  exact fresh s' opened

/-- A session that passes the gate while none is outstanding stays below the threshold, unless
rounding hides that it does not. -/
theorem passed_below (inv : Exposed settings address w) {usdcAmount : Rat} {now : Nat}
    {recentTxs : List RampTx} (lists : Lists w.db address now recentTxs)
    (positive : 0 < usdcAmount) (seen : ¬RoundedBelow settings address w usdcAmount now)
    (passed : Floating.round (dailyVolume recentTxs + Floating.round usdcAmount) <
      settings.kycThresholdUsdc) :
    recorded w address now + normalize usdcAmount < settings.kycThresholdUsdc := by
  by_contra reached
  exact seen ⟨not_lt.mp reached, (inv.gate_ge lists positive).trans_lt passed⟩

/-- A new session that fits keeps every day below the threshold. -/
theorem session {usdcAmount : Rat} {now : Nat} {id owner : String} {widget : Widget}
    {recentTxs : List RampTx} (inv : Exposed settings address w)
    (fits : Fits settings address w (.session owner usdcAmount now id))
    (unverified : Unverified address w (.session owner usdcAmount now id))
    (fresh : ∀ s ∈ w.sessions, s.id ≠ id) (lists : Lists w.db owner now recentTxs)
    (done : moonpaySession settings w.db recentTxs usdcAmount owner = .ok widget) :
    Exposed settings address { w with sessions := w.sessions ++ [⟨id, widget, now⟩] } := by
  rcases session_spec done with ⟨positive, rfl, allowed⟩
  refine ⟨?_, ?_, ?_, fun t => ?_⟩
  · rw [List.map_append, List.nodup_append]
    refine ⟨inv.distinct, List.nodup_singleton _, ?_⟩
    rintro _ listed _ new
    rcases List.mem_map.mp listed with ⟨s, opened, rfl⟩
    rw [List.map_singleton, List.mem_singleton] at new
    rw [new]
    exact fresh s opened
  · intro s opened
    rcases List.mem_append.mp opened with before | new
    · exact inv.positive s before
    · rw [List.mem_singleton.mp new]
      exact normalize_pos positive
  · intro tx listed
    rcases inv.known tx listed with ⟨s, opened, known⟩
    exact ⟨s, List.mem_append_left _ opened, known⟩
  · have below := inv.below t
    by_cases owned : owner = address
    · subst owned
      let new : Session := ⟨id, ⟨owner, normalize usdcAmount⟩, now⟩
      have own : State.own { w with sessions := w.sessions ++ [new] } owner =
          w.own owner ++ [new] := by
        simp [State.own, new]
      have unknown : w.row new = none := inv.row_unknown fresh
      have old : (w.own owner).map (Session.exposure { w with sessions := w.sessions ++ [new] } t) =
          (w.own owner).map (Session.exposure w t) := rfl
      have exposed : Session.exposure { w with sessions := w.sessions ++ [new] } t new =
          if now ≤ t + oneDay then normalize usdcAmount else 0 := by
        unfold Session.exposure
        simp only [State.row] at unknown ⊢
        rw [unknown]
      change ((State.own { w with sessions := w.sessions ++ [new] } owner).map
        (Session.exposure { w with sessions := w.sessions ++ [new] } t)).sum <
          settings.kycThresholdUsdc
      rw [own, List.map_append, List.sum_append, List.map_singleton, List.sum_singleton, old,
        exposed]
      by_cases unfinished : now ≤ t + oneDay
      · rw [if_pos unfinished]
        have held := inv.exposure_le unfinished
        rcases fits usdcAmount now id rfl with ⟨none, seen⟩ | fits
        · rw [none] at held
          rcases allowed with allowed | ⟨record, found, verified⟩
          · have fits := inv.passed_below lists positive seen allowed
            simp only [List.map_nil, List.sum_nil] at held
            linarith
          · have := unverified usdcAmount now id rfl record found
            rcases verified with pass | exempt
            · exact absurd pass this.1
            · exact absurd exempt this.2
        · linarith
      · rw [if_neg unfinished, add_zero]
        exact below
    · have own : State.own { w with
          sessions := w.sessions ++ [⟨id, ⟨owner, normalize usdcAmount⟩, now⟩] } address =
          w.own address := by
        simp [State.own, owned]
      rw [own]
      exact below

end Exposed

/-- A webhook touches the row of its transaction alone. -/
theorem find?_upsert_of_ne {rows : List RampTx} {payload : Payload} {now : Nat} {id : String}
    (other : payload.externalTransactionId ≠ id) :
    (upsert rows payload now).find? (fun tx => decide (tx.providerId = id)) =
      rows.find? fun tx => decide (tx.providerId = id) := by
  unfold upsert
  split
  · rw [List.find?_map]
    have same : (fun tx : RampTx => decide (tx.providerId = id)) ∘ (fun tx =>
        if tx.providerId = payload.externalTransactionId then
          { tx with status := payload.status, amount := payload.cryptoAmount } else tx) =
        fun tx => decide (tx.providerId = id) := by
      funext tx
      dsimp only [Function.comp_apply]
      split <;> rfl
    rw [same]
    cases found : rows.find? fun tx => decide (tx.providerId = id) with
    | none => rfl
    | some tx =>
        have named : tx.providerId = id := by simpa using List.find?_some found
        rw [Option.map_some, if_neg (named ▸ other.symm)]
  · rw [List.find?_append, List.find?_singleton, if_neg (by simpa using other), Option.or_none]

/-- An existing transaction keeps its date. -/
theorem find?_upsert {rows : List RampTx} {payload : Payload} {now : Nat} (id : String)
    (named : payload.externalTransactionId = id) :
    (upsert rows payload now).find? (fun tx => decide (tx.providerId = id)) =
      some (match rows.find? fun tx => decide (tx.providerId = id) with
        | some tx => { tx with status := payload.status, amount := payload.cryptoAmount }
        | none => ⟨payload.walletAddress, payload.cryptoAmount, payload.externalTransactionId,
            payload.status, now⟩) := by
  subst named
  unfold upsert
  split
  · next listed =>
    rw [List.find?_map]
    have same : (fun tx : RampTx => decide (tx.providerId = payload.externalTransactionId)) ∘
        (fun tx => if tx.providerId = payload.externalTransactionId then
          { tx with status := payload.status, amount := payload.cryptoAmount } else tx) =
        fun tx => decide (tx.providerId = payload.externalTransactionId) := by
      funext tx
      dsimp only [Function.comp_apply]
      split <;> rfl
    rw [same]
    cases found : rows.find? fun tx => decide (tx.providerId = payload.externalTransactionId) with
    | none =>
        rw [List.any_eq_true] at listed
        rcases listed with ⟨tx, listed, named⟩
        exact absurd named (List.find?_eq_none.mp found tx listed)
    | some tx =>
        have named : tx.providerId = payload.externalTransactionId := by
          simpa using List.find?_some found
        rw [Option.map_some, if_pos named]
  · next absent =>
    rw [Bool.not_eq_true, List.any_eq_false] at absent
    rw [List.find?_eq_none.mpr absent, List.find?_append, List.find?_eq_none.mpr absent]
    simp

/-- The rows after a webhook are old rows, or carry what it reports. -/
theorem mem_upsert {rows : List RampTx} {payload : Payload} {now : Nat} {tx : RampTx}
    (listed : tx ∈ upsert rows payload now) :
    tx ∈ rows ∨ tx.providerId = payload.externalTransactionId ∧
      tx.amount = payload.cryptoAmount := by
  unfold upsert at listed
  split at listed
  · rcases List.mem_map.mp listed with ⟨old, before, rfl⟩
    split
    · next named => exact .inr ⟨named, rfl⟩
    · exact .inl before
  · rcases List.mem_append.mp listed with before | new
    · exact .inl before
    · rw [List.mem_singleton.mp new]
      exact .inr ⟨rfl, rfl⟩

theorem webhook_spec {db : Db} {payload : Payload} {now : Nat} {signed : Bool}
    (done : moonpayWebhook settings w.db signed payload now = .ok db) :
    db = { w.db with rampTxs := upsert w.db.rampTxs payload now } := by
  unfold moonpayWebhook at done
  split at done
  · cases done
  · split at done
    · cases done
    · split at done
      · exact (Except.ok.inj done).symm
      · cases done

/-- Whatever is reported of a session, a day can bring no more than before. -/
theorem Exposed.webhook {s : Session} {walletAddress status : String} {cryptoAmount : Rat}
    {now : Nat} {db : Db} (inv : Exposed settings address w) (opened : s ∈ w.sessions)
    (later : s.openedAt ≤ now)
    (reported : Floating.round cryptoAmount = Floating.round s.widget.baseCurrencyAmount)
    (done : moonpayWebhook settings w.db true
      ⟨s.id, walletAddress, cryptoAmount, status⟩ now = .ok db) :
    Exposed settings address { w with db } := by
  rw [webhook_spec done]
  refine ⟨inv.distinct, inv.positive, ?_, fun t => ?_⟩
  · intro tx listed
    rcases mem_upsert listed with before | ⟨named, amount⟩
    · exact inv.known tx before
    · exact ⟨s, opened, named.symm, by rw [amount, reported]⟩
  · refine lt_of_le_of_lt (List.sum_le_sum fun s' listed => ?_) (inv.below t)
    have opened' := List.mem_of_mem_filter listed
    unfold Session.exposure State.row
    dsimp only
    by_cases same : s.id = s'.id
    · rw [List.inj_on_of_nodup_map inv.distinct opened opened' same] at later ⊢
      rw [find?_upsert s'.id rfl]
      cases found : w.row s' with
      | none =>
          rw [State.row] at found
          simp only [found]
          split
          · next within =>
            rw [if_pos (later.trans within.2)]
          · split
            · exact (inv.positive s' opened').le
            · exact le_refl 0
      | some tx =>
          rw [State.row] at found
          simp only [found, le_refl]
    · rw [find?_upsert_of_ne same]

theorem Exposed.initial (positive : 0 < settings.kycThresholdUsdc) :
    Exposed settings address .initial :=
  ⟨List.nodup_nil, nofun, nofun, fun _ => positive⟩

theorem Exposed.step (inv : Exposed settings address w) (fits : Fits settings address w event)
    (unverified : Unverified address w event) (step : Step settings w event next) :
    Exposed settings address next := by
  cases step with
  | session fresh lists done => exact inv.session fits unverified fresh lists done
  | webhook opened later reported done => exact inv.webhook opened later reported done
  | kyc => exact ⟨inv.distinct, inv.positive, inv.known, inv.below⟩

/-- What a day brought is part of what it can bring. -/
theorem Exposed.completed (inv : Exposed settings address w) (t : Nat) :
    completedWithin w address t < settings.kycThresholdUsdc := by
  refine lt_of_le_of_lt (List.sum_le_sum fun s listed => ?_) (inv.below t)
  have amount := (inv.positive s (List.mem_of_mem_filter listed)).le
  unfold Session.completedWithin Session.exposure
  cases found : w.row s with
  | none =>
      dsimp only
      split
      · exact amount
      · exact le_refl 0
  | some tx =>
      dsimp only
      split
      · next within => rw [if_pos within.2]
      · split
        · exact amount
        · exact le_refl 0

/-- Below a positive threshold, a user who passed no identification completes less than the
threshold in any day, if every session fits beside the outstanding ones when it is opened. -/
theorem daily_volume_below_threshold {events : List Event}
    (positive : 0 < settings.kycThresholdUsdc)
    (path : Run (fun w event next => Unverified address w event ∧ Fits settings address w event ∧
      Step settings w event next) .initial events w) (t : Nat) :
    completedWithin w address t < settings.kycThresholdUsdc := by
  have inv : Exposed settings address w :=
    path.invariant (I := Exposed settings address) (.initial positive)
      fun _ _ _ inv ⟨unverified, fits, step⟩ => inv.step fits unverified step
  exact inv.completed t

/-- The gate admits 42.58 beside 1.39 and 456.03, which makes 500. -/
example : Floating.round (Floating.sum [Floating.round (139 / 100), Floating.round (45603 / 100)] +
    Floating.round (4258 / 100)) < 500 := by decide +kernel

/-! ### Two sessions one after the other, and side by side -/

/-- The default threshold. -/
def Settings.sample : Settings := ⟨"key", "secret", 500, []⟩

/-- A session at time 0. -/
def Session.sample (bought : String × Rat) : Session := ⟨bought.1, ⟨"0xa1", bought.2⟩, 0⟩

/-- Sessions were opened, and some of them went through. -/
def State.sample (opened completed : List (String × Rat)) : State where
  db := ⟨fun _ => none, completed.foldl (fun rows bought =>
    upsert rows ⟨bought.1, "0xa1", bought.2, "completed"⟩ 0) []⟩
  sessions := opened.map Session.sample

/-- What the gate lists. -/
def State.recent (w : State) : List RampTx := w.db.rampTxs.filter (RampTx.counts "0xa1" 0)

theorem Step.sample_session (opened completed : List (String × Rat)) (bought : String × Rat)
    (fresh : bought.1 ∉ opened.map Prod.fst)
    (done : moonpaySession .sample (State.sample opened completed).db
      (State.sample opened completed).recent bought.2 "0xa1" = .ok ⟨"0xa1", bought.2⟩) :
    Step .sample (.sample opened completed) (.session "0xa1" bought.2 0 bought.1)
      (.sample (opened ++ [bought]) completed) := by
  have step : Step .sample (.sample opened completed)
      (.session "0xa1" bought.2 0 bought.1) _ := .session ?_ (List.Perm.refl _) done
  · simpa only [State.sample, Session.sample, List.map_append, List.map_singleton] using step
  · intro s listed named
    rcases List.mem_map.mp listed with ⟨other, opened, rfl⟩
    exact fresh (named ▸ List.mem_map_of_mem opened)

theorem Step.sample_webhook (opened completed : List (String × Rat)) (bought : String × Rat)
    (known : bought ∈ opened) (fits : bought.1.length ≤ 255) :
    Step .sample (.sample opened completed)
      (.webhook (.sample bought) "0xa1" bought.2 "completed" 0)
      (.sample opened (completed ++ [bought])) := by
  have done : moonpayWebhook .sample (State.sample opened completed).db true
      ⟨bought.1, "0xa1", bought.2, "completed"⟩ 0 =
      .ok (State.sample opened (completed ++ [bought])).db := by
    unfold moonpayWebhook
    rw [if_neg (by decide), if_neg (by decide), if_pos ⟨fits,
      (by decide +kernel : "0xa1".length ≤ 42), (by decide +kernel : "completed".length ≤ 32)⟩]
    simp only [State.sample, List.foldl_append, List.foldl_cons, List.foldl_nil]
  exact .webhook (List.mem_map_of_mem known) (Nat.le_refl 0) rfl done

/-- No webhook asks for a session. -/
theorem Fits.webhook {s : Session} {walletAddress status : String} {cryptoAmount : Rat}
    {now : Nat} :
    Fits settings address w (.webhook s walletAddress cryptoAmount status now) := by
  intro _ _ _ asked
  cases asked

/-- A user of the samples has no record. -/
theorem Unverified.sample (opened completed : List (String × Rat)) (event : Event) :
    Unverified "0xa1" (.sample opened completed) event := by
  intro _ _ _ _ record found
  cases found

/-- A day with sessions of 300 and of 100 beside it, both completed before one of 99.99. -/
theorem daily_volume_below_threshold_once :
    completedWithin (.sample [("t1", 300), ("t2", 100), ("t3", 9999 / 100)]
      [("t1", 300), ("t2", 100), ("t3", 9999 / 100)]) "0xa1" 0 <
        Settings.sample.kycThresholdUsdc := by
  have opening := Step.sample_session [] [] ("t1", 300) (by decide) (by decide +kernel)
  have beside := Step.sample_session [("t1", 300)] [] ("t2", 100) (by decide) (by decide +kernel)
  have report := Step.sample_webhook [("t1", 300), ("t2", 100)] [] ("t1", 300) (by decide)
    (by decide +kernel)
  have other := Step.sample_webhook [("t1", 300), ("t2", 100)] [("t1", 300)] ("t2", 100)
    (by decide) (by decide +kernel)
  have again := Step.sample_session [("t1", 300), ("t2", 100)] [("t1", 300), ("t2", 100)]
    ("t3", 9999 / 100) (by decide) (by decide +kernel)
  have last := Step.sample_webhook [("t1", 300), ("t2", 100), ("t3", 9999 / 100)]
    [("t1", 300), ("t2", 100)] ("t3", 9999 / 100)
    (.tail _ (.tail _ (.head _))) (by decide +kernel)
  refine daily_volume_below_threshold (by decide +kernel)
    (.snoc (.snoc (.snoc (.snoc (.snoc (.snoc (.nil _) ⟨.sample [] [] _, ?_, opening⟩)
      ⟨.sample _ _ _, ?_, beside⟩) ⟨.sample _ _ _, .webhook, report⟩)
      ⟨.sample _ _ _, .webhook, other⟩) ⟨.sample _ _ _, ?_, again⟩)
      ⟨.sample _ _ _, .webhook, last⟩) 0
  · intro usdcAmount now id asked
    cases asked
    refine .inl ⟨rfl, fun reached => absurd reached.1 (by decide +kernel)⟩
  · intro usdcAmount now id asked
    cases asked
    exact .inr (by decide +kernel)
  · intro usdcAmount now id asked
    cases asked
    refine .inl ⟨by decide +kernel, fun reached => absurd reached.1 (by decide +kernel)⟩

/-- Both sessions pass the gate before either is reported. -/
theorem threshold_passed : ∃ events w, Run (fun w event next => Unverified "0xa1" w event ∧
      (∀ record, w.db.kycRecords "0xa1" = some record → isRestricted .sample (some record) = false) ∧
      Step .sample w event next) .initial events w ∧
    ¬completedWithin w "0xa1" 0 < Settings.sample.kycThresholdUsdc := by
  have first := Step.sample_session [] [] ("t1", 300) (by decide) (by decide +kernel)
  have second := Step.sample_session [("t1", 300)] [] ("t2", 300) (by decide) (by decide +kernel)
  have report := Step.sample_webhook [("t1", 300), ("t2", 300)] [] ("t1", 300) (by decide)
    (by decide +kernel)
  have again := Step.sample_webhook [("t1", 300), ("t2", 300)] [("t1", 300)] ("t2", 300) (by decide)
    (by decide +kernel)
  have unrecorded : ∀ (opened completed : List (String × Rat)) record,
      (State.sample opened completed).db.kycRecords "0xa1" = some record →
        isRestricted .sample (some record) = false := by
    intro _ _ record found
    cases found
  exact ⟨_, _, .snoc (.snoc (.snoc (.snoc (.nil _)
    ⟨.sample [] [] _, unrecorded [] [], first⟩) ⟨.sample _ _ _, unrecorded _ _, second⟩)
    ⟨.sample _ _ _, unrecorded _ _, report⟩) ⟨.sample _ _ _, unrecorded _ _, again⟩,
    by decide +kernel⟩

end OverUnder.Backend.Ramps
