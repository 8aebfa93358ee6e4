/-
Module: OverUnder.Proofs.PaymasterFees
Purpose: What the paymaster may take of an account over a run of the entry point, whatever runs
  inside the operations but a `postOp` called as a factory: at most twice the daily cap in any
  86400 seconds, and at a fixed rate what the gas of its operations cost.
Trusted boundary: none
Main exports: configure_spec, chargeCap_spec, validatePaymasterUserOp_spec, postOp_spec, due,
  validate_spec, collect_spec, historyOf, Limited, Limited.step, fees_within_twice_the_cap, Priced,
  Priced.step, fees_cover_gas
-/
import OverUnder.Contracts.EntryPoint
import OverUnder.Library.FixedWindow
import OverUnder.Library.Reachable
import OverUnder.Proofs.SponsoredCalls

namespace OverUnder.Contracts

open OverUnder.Vyper OverUnder.Library

/-! ### What each function of the paymaster does -/

/-- The meter of an account. -/
def DailySpend.meter (d : DailySpend) : FixedWindow.Meter := ⟨d.windowStart, d.spent⟩

namespace Paymaster

variable {site : PaymasterSite} {p p' : Paymaster} {op : UserOp} {sender account : Address}
variable {timestamp fee cost pvd : Nat}

/-- `(cost * 10 ** 6 + weiPerUsdc - 1) // weiPerUsdc`, the price of gas rounded up. -/
def due (weiPerUsdc cost : Nat) : Nat := (cost * 10 ^ 6 + weiPerUsdc - 1) / weiPerUsdc

theorem le_due {weiPerUsdc : Nat} (priced : weiPerUsdc ≠ 0) (cost : Nat) :
    10 ^ 6 * cost ≤ weiPerUsdc * due weiPerUsdc cost := by
  have positive : 0 < weiPerUsdc := Nat.pos_of_ne_zero priced
  have rounded := Nat.lt_mul_div_succ (cost * 10 ^ 6 + weiPerUsdc - 1) positive
  unfold due
  rw [Nat.mul_add, Nat.mul_one] at rounded
  omega

theorem due_le (weiPerUsdc cost : Nat) :
    weiPerUsdc * due weiPerUsdc cost ≤ 10 ^ 6 * cost + (weiPerUsdc - 1) := by
  have rounded := Nat.mul_div_le (cost * 10 ^ 6 + weiPerUsdc - 1) weiPerUsdc
  unfold due
  omega

theorem chargeCap_spec (done : p.chargeCap timestamp account fee = .ok p') :
    let current := (p.dailySpend account).meter.current window timestamp
    current.spent + fee ≤ p.dailyCapUsdc ∧ current.spent + fee < wordSize ∧
      p' = { p with dailySpend :=
        Function.update p.dailySpend account ⟨current.start, current.spent + fee⟩ } := by
  simp only [chargeCap, bind_ok, uadd_ok, require_ok, pure_ok, exists_const] at done
  rcases done with ⟨_, ⟨-, rfl⟩, _, ⟨fits, rfl⟩, capped, rfl⟩
  simp only [FixedWindow.Meter.current, DailySpend.meter] at *
  split at fits
  · next closed =>
    simp only [closed, if_true] at *
    exact ⟨capped, fits, trivial⟩
  · next still =>
    simp only [still, if_false] at *
    exact ⟨capped, fits, trivial⟩

/-- What a sponsored operation is charged, and what it changes. -/
theorem validatePaymasterUserOp_spec
    (done : validatePaymasterUserOp site p sender timestamp op cost =
      .ok (p', (account, fee), pvd)) :
    account = op.sender ∧ fee = due p.weiPerUsdc cost ∧ p.weiPerUsdc ≠ 0 ∧
      cost ≤ site.deposit ∧
      ∃ senders, ({ p with allowedSenders := senders } : Paymaster).chargeCap timestamp op.sender
        fee = .ok p' := by
  simp only [validatePaymasterUserOp, bind_ok, require_ok, exists_const, umul_ok, uadd_ok,
    udiv_ok, pure_ok] at done
  rcases done with ⟨-, priced, p₁, admitted, _, -, _, -, -, _, ⟨-, rfl⟩, _, ⟨-, rfl⟩, _, ⟨-, rfl⟩,
    -, _, -, -, p₂, charged, funded, same⟩
  rcases admitSender_frame admitted with ⟨senders, rfl⟩
  simp only [Prod.mk.injEq] at same
  rcases same with ⟨rfl, ⟨rfl, rfl⟩, -⟩
  exact ⟨rfl, rfl, priced, funded, senders, charged⟩

end Paymaster

namespace PaymasterStore

variable {store store' : PaymasterStore} {sender : Address} {setting : Setting}

/-- A setting changes no meter, and the cap and the rate only where it sets them. -/
theorem configure_spec (done : store.configure sender setting = .ok store') :
    store'.paymaster.dailySpend = store.paymaster.dailySpend ∧
      (store'.paymaster.dailyCapUsdc = store.paymaster.dailyCapUsdc ∨
        setting = .setDailyCapUsdc store'.paymaster.dailyCapUsdc) ∧
      (store'.paymaster.weiPerUsdc = store.paymaster.weiPerUsdc ∨
        setting = .setWeiPerUsdc store'.paymaster.weiPerUsdc) := by
  simp only [configure, bind_ok, require_ok, exists_const] at done
  rcases done with ⟨-, done⟩
  cases setting with
  | setWeiPerUsdc rate =>
      simp only [bind_ok, require_ok, pure_ok, exists_const] at done
      rcases done with ⟨-, rfl⟩
      exact ⟨rfl, .inl rfl, .inr rfl⟩
  | setFeeRecipient recipient =>
      simp only [bind_ok, require_ok, pure_ok, exists_const] at done
      rcases done with ⟨-, rfl⟩
      exact ⟨rfl, .inl rfl, .inl rfl⟩
  | setDailyCapUsdc cap =>
      cases pure_ok.mp done
      exact ⟨rfl, .inr rfl, .inl rfl⟩
  | _ =>
      cases pure_ok.mp done
      exact ⟨rfl, .inl rfl, .inl rfl⟩

/-- Where a context starts with its account and its fee. -/
theorem encodeContext_parts (account : Address) {fee : Nat} (fits : fee < wordSize) :
    BitVec.ofNat 160 (bytesToNat ((encodeContext account fee).take 20)) = account ∧
      bytesToNat (((encodeContext account fee).drop 20).take 32) = fee := by
  have first : (encodeContext account fee).take 20 = natToBytes 20 account.toNat := by
    rw [encodeContext, List.take_append_of_le_length (by simp)]
    exact List.take_of_length_le (by simp)
  have second : ((encodeContext account fee).drop 20).take 32 = natToBytes 32 fee := by
    rw [encodeContext, List.drop_append_of_le_length (by simp), List.drop_of_length_le (by simp),
      List.nil_append]
    exact List.take_of_length_le (by simp)
  constructor
  · rw [first, bytesToNat_natToBytes, Nat.mod_eq_of_lt (by simpa using account.isLt)]
    simp
  · rw [second, bytesToNat_natToBytes]
    exact Nat.mod_eq_of_lt (by simpa [wordSize] using fits)

/-- `postOp` takes the price of the gas, up to the fee of its context, from the account of its
context. -/
theorem postOp_spec {context : List Byte} {cost : Nat} {transfer : Option FeeTransfer}
    (done : store.postOp sender context cost = .ok transfer) :
    let fee := min (Paymaster.due store.paymaster.weiPerUsdc cost)
      (bytesToNat ((context.drop 20).take 32))
    transfer = if 0 < fee then
      some ⟨BitVec.ofNat 160 (bytesToNat (context.take 20)), store.feeRecipient, fee⟩
    else none := by
  simp only [postOp, Paymaster.sliceValue, bind_ok, require_ok, sliceBytes_ok, pure_ok, umul_ok,
    uadd_ok, usub_ok, udiv_ok, exists_const] at done
  rcases done with ⟨-, -, -, _, ⟨_, ⟨-, rfl⟩, rfl⟩, _, ⟨_, ⟨-, rfl⟩, rfl⟩, _, ⟨-, rfl⟩, _, ⟨-, rfl⟩,
    _, ⟨-, rfl⟩, _, ⟨-, rfl⟩, done⟩
  simp only [List.drop_zero] at done
  rw [show (if (cost * 10 ^ 6 + store.paymaster.weiPerUsdc - 1) / store.paymaster.weiPerUsdc >
      bytesToNat ((context.drop 20).take 32) then bytesToNat ((context.drop 20).take 32)
      else (cost * 10 ^ 6 + store.paymaster.weiPerUsdc - 1) / store.paymaster.weiPerUsdc) =
      min (Paymaster.due store.paymaster.weiPerUsdc cost)
        (bytesToNat ((context.drop 20).take 32)) by
    unfold Paymaster.due
    split <;> omega] at done
  split at done
  · next positive =>
    cases pure_ok.mp done
    exact (if_pos positive).symm
  · next zero =>
    cases pure_ok.mp done
    exact (if_neg zero).symm

end PaymasterStore

/-! ### Histories of fees -/

/-- The times and amounts of the fees of one account. -/
def historyOf (sender : Address) (fees : List Fee) : List (Nat × Nat) :=
  (fees.filter fun fee => fee.sender == sender).map fun fee => (fee.timestamp, fee.amount)

theorem historyOf_cons (sender : Address) (fee : Fee) (fees : List Fee) :
    historyOf sender (fee :: fees) =
      if fee.sender = sender then (fee.timestamp, fee.amount) :: historyOf sender fees
      else historyOf sender fees := by
  by_cases same : fee.sender = sender
  · simp [historyOf, same]
  · simp [historyOf, same]

/-- The most that an operation under way may still take of an account. -/
def Frame.fee (own sender : Address) : Frame → Nat
  | .checked _ => 0
  | .sponsored _ pm _ context =>
      if pm = own ∧ BitVec.ofNat 160 (bytesToNat (context.take 20)) = sender then
        bytesToNat ((context.drop 20).take 32)
      else 0

/-- What the operations under way may still take of an account. -/
def pendingFees (own sender : Address) (frames : List Frame) : Nat :=
  (frames.map (Frame.fee own sender)).sum

theorem pendingFees_cons (own sender : Address) (frame : Frame) (frames : List Frame) :
    pendingFees own sender (frame :: frames) =
      frame.fee own sender + pendingFees own sender frames := by
  simp [pendingFees]

/-- The action does not run `postOp` as the factory call of an operation. The entry point makes
that call itself, so that the paymaster takes it for the end of a sponsored operation. -/
def Sponsorship.Action.NoPostOp : Sponsorship.Action → Prop
  | .factoryCall _ (.postOp _ _ _) => False
  | _ => True

/-- An upper bound on the cap that an action sets. -/
def Sponsorship.Action.CapAtMost (cap : Nat) : Sponsorship.Action → Prop
  | .configure _ (.setDailyCapUsdc new) => new ≤ cap
  | _ => True

namespace Sponsorship

variable {site : PaymasterSite} {entryPoint : Address} {cap : Nat} {s t : Sponsorship}
variable {action : Action} {actions : List Action}

/-! ### What the loop body of `handleOps` does -/

/-- A validation charges the account of the operation the price of its gas. -/
theorem validate_spec {op : UserOp} {cost pvd : Nat} {usdcBalanceOf : Address → Nat}
    {usdcAllowance : Address × Address → Nat} {context : List Byte}
    (done : s.validate site entryPoint op cost usdcBalanceOf usdcAllowance =
      .ok (t, context, pvd)) :
    let fee := Paymaster.due s.store.paymaster.weiPerUsdc cost
    context = PaymasterStore.encodeContext op.sender fee ∧
      ∃ senders paymaster,
        ({ s.store.paymaster with allowedSenders := senders } : Paymaster).chargeCap s.timestamp
          op.sender fee = .ok paymaster ∧
        t = { s with
          store := { s.store with paymaster }
          charges := ⟨op.sender, s.timestamp, fee⟩ :: s.charges } := by
  simp only [validate, bind_ok, pure_ok, Prod.mk.injEq] at done
  rcases done with ⟨⟨paymaster, ⟨account, fee⟩, _⟩, validated, left, encoded, -⟩
  rcases Paymaster.validatePaymasterUserOp_spec validated with
    ⟨rfl, rfl, -, -, senders, charged⟩
  exact ⟨encoded, senders, paymaster, charged, left⟩

/-- What `postOp` takes for a context. -/
def taken (s : Sponsorship) (cost : Nat) (context : List Byte) : Nat :=
  min (Paymaster.due s.store.paymaster.weiPerUsdc cost) (bytesToNat ((context.drop 20).take 32))

theorem collect_spec {cost : Nat} {context : List Byte} {accepted : Bool}
    (done : s.collect entryPoint context cost accepted = .ok t) :
    t = { s with
      transfers := if 0 < s.taken cost context then
        ⟨BitVec.ofNat 160 (bytesToNat (context.take 20)), s.timestamp, s.taken cost context⟩ ::
          s.transfers
        else s.transfers } := by
  simp only [collect, bind_ok, require_ok, exists_const] at done
  rcases done with ⟨transfer, posted, -, done⟩
  have spec : transfer = if 0 < s.taken cost context then
      some ⟨BitVec.ofNat 160 (bytesToNat (context.take 20)), s.store.feeRecipient,
        s.taken cost context⟩
    else none := PaymasterStore.postOp_spec posted
  by_cases positive : 0 < s.taken cost context
  · rw [if_pos positive] at spec ⊢
    subst spec
    exact pure_ok.mp done
  · rw [if_neg positive] at spec ⊢
    subst spec
    exact pure_ok.mp done

/-- A validation charges the account of the operation, or is the business of another paymaster. -/
theorem sponsor_spec {vd : Nat} {usdcBalanceOf : Address → Nat}
    {usdcAllowance : Address × Address → Nat} {elsewhere : List Byte × Nat}
    (done : s.sponsor site entryPoint vd usdcBalanceOf usdcAllowance elsewhere = .ok t) :
    ∃ op frames cost, s.frames = .checked op :: frames ∧
      ((∃ charged context pvd,
          s.validate site entryPoint op cost usdcBalanceOf usdcAllowance =
            .ok (charged, context, pvd) ∧
          t = { charged with frames := .sponsored op site.self cost context :: frames }) ∨
        ∃ pm context, pm ≠ site.self ∧
          t = { s with frames := .sponsored op pm cost context :: frames }) := by
  unfold sponsor at done
  split at done
  · next op frames under =>
    simp only [bind_ok, require_ok, exists_const] at done
    rcases done with ⟨-, pm, -, cost, -, done⟩
    refine ⟨op, frames, cost, under, ?_⟩
    split at done
    · next own =>
      simp only [bind_ok, require_ok, pure_ok, exists_const] at done
      rcases done with ⟨⟨charged, context, pvd⟩, validated, -, rfl⟩
      exact .inl ⟨charged, context, pvd, validated, by rw [own]⟩
    · next other =>
      simp only [bind_ok, require_ok, pure_ok, exists_const] at done
      rcases done with ⟨-, rfl⟩
      exact .inr ⟨pm, _, other, rfl⟩
  · cases done

/-- The end of an operation pays its cost out of the deposit of its paymaster. -/
theorem settle_spec {accepted : Bool} (done : s.settle site entryPoint accepted = .ok t) :
    ∃ op pm cost context frames nonces, s.frames = .sponsored op pm cost context :: frames ∧
      cost ≤ s.deposits pm ∧
      t = { s with
        deposits := Function.update s.deposits pm (s.deposits pm - cost)
        nonces, frames
        transfers := if pm = site.self ∧ 0 < s.taken cost context then
          ⟨BitVec.ofNat 160 (bytesToNat (context.take 20)), s.timestamp,
            s.taken cost context⟩ :: s.transfers
          else s.transfers } := by
  unfold settle at done
  split at done
  · next op pm cost context frames under =>
    split at done
    · next own =>
      simp only [bind_ok, debit_ok, credit_ok, pure_ok] at done
      rcases done with ⟨posted, collected, _, ⟨funded, rfl⟩, nonces, -, rfl⟩
      cases collect_spec collected
      exact ⟨op, pm, cost, context, frames, nonces, under, funded, by simp [own]⟩
    · next other =>
      simp only [bind_ok, debit_ok, credit_ok, pure_ok] at done
      rcases done with ⟨_, rfl, _, ⟨funded, rfl⟩, nonces, -, rfl⟩
      exact ⟨op, pm, cost, context, frames, nonces, under, funded, by simp [other]⟩
  · cases done

/-! ### The daily cap over a run -/

/-- The meters of all accounts are kept, and no more is taken of an account, at any times, than
was counted at those times. -/
structure Limited (own : Address) (cap : Nat) (s : Sponsorship) : Prop where
  started : 0 < s.timestamp
  capped : s.store.paymaster.dailyCapUsdc ≤ cap
  metered : ∀ sender, FixedWindow.Metered Paymaster.window cap s.timestamp
    (s.store.paymaster.dailySpend sender).meter (historyOf sender s.charges)
  covered : ∀ sender P, FixedWindow.totalWhere P (historyOf sender s.transfers) +
    (if P s.timestamp then pendingFees own sender s.frames else 0) ≤
      FixedWindow.totalWhere P (historyOf sender s.charges)

namespace Limited

variable {own : Address}

theorem deployed {store : PaymasterStore} {entryPoint operator usdc ctf amm exchange oracle
    feeVault : Address} {deposits nonces : Address → Nat} {timestamp : Nat}
    (created : PaymasterStore.deploy entryPoint operator usdc ctf amm exchange oracle feeVault =
      .ok store) (started : 0 < timestamp) (capped : PaymasterStore.defaultDailyCap ≤ cap) :
    Limited own cap (Sponsorship.deployed store deposits nonces timestamp) := by
  simp only [PaymasterStore.deploy, bind_ok, require_ok, pure_ok, exists_const] at created
  rcases created with ⟨-, -, rfl⟩
  exact {
    started := started
    capped := capped
    metered := fun sender => FixedWindow.Metered.fresh _ _ _
    covered := fun sender P => by simp [Sponsorship.deployed, historyOf, pendingFees] }

/-- A validation charges the meter of one account, and what it charges stays available beside
what the operations under way held back. -/
theorem validate {op : UserOp} {cost pvd : Nat} {usdcBalanceOf : Address → Nat}
    {usdcAllowance : Address × Address → Nat} {context : List Byte}
    (limited : Limited own cap s)
    (done : s.validate site entryPoint op cost usdcBalanceOf usdcAllowance =
      .ok (t, context, pvd)) :
    Limited own cap t ∧ t.frames = s.frames ∧
      ∀ sender P, FixedWindow.totalWhere P (historyOf sender t.transfers) +
        (if P t.timestamp then
          Frame.fee own sender (.sponsored op own cost context) + pendingFees own sender t.frames
        else 0) ≤ FixedWindow.totalWhere P (historyOf sender t.charges) := by
  rcases validate_spec done with ⟨encoded, senders, paymaster, charged, rfl⟩
  rcases Paymaster.chargeCap_spec charged with ⟨within, fits, rfl⟩
  have parts := PaymasterStore.encodeContext_parts op.sender ((Nat.le_add_left _ _).trans_lt fits)
  have held : ∀ sender P, FixedWindow.totalWhere P (historyOf sender s.transfers) +
      (if P s.timestamp then
        Frame.fee own sender (.sponsored op own cost context) + pendingFees own sender s.frames
      else 0) ≤ FixedWindow.totalWhere P (historyOf sender (⟨op.sender, s.timestamp,
        Paymaster.due s.store.paymaster.weiPerUsdc cost⟩ :: s.charges)) := by
    intro sender P
    have before := limited.covered sender P
    rw [historyOf_cons, Frame.fee, encoded, parts.1, parts.2]
    simp only [true_and]
    by_cases same : op.sender = sender
    · rw [if_pos same, if_pos same]
      simp only [FixedWindow.totalWhere]
      cases counted : P s.timestamp with
      | true =>
          simp only [counted, if_true] at before ⊢
          omega
      | false =>
          simp only [counted, Bool.false_eq_true, if_false] at before ⊢
          omega
    · rw [if_neg same, if_neg same, Nat.zero_add]
      exact before
  refine ⟨⟨limited.started, limited.capped, ?_, fun sender P => ?_⟩, rfl, held⟩
  · intro sender
    rw [historyOf_cons]
    by_cases same : sender = op.sender
    · subst same
      rw [if_pos rfl]
      simp only [Function.update_self]
      obtain ⟨read, opened, current⟩ := (limited.metered op.sender).current limited.started
        (by decide)
      exact read.charge opened current (within.trans limited.capped)
    · rw [if_neg (Ne.symm same)]
      simp only [Function.update_of_ne same]
      exact limited.metered sender
  · have more := held sender P
    simp only at more ⊢
    split at more
    · next counted =>
      rw [if_pos counted]
      omega
    · next uncounted =>
      rw [if_neg uncounted]
      exact more

/-- A validation inside an operation holds back what it charged. -/
theorem sponsor {vd : Nat} {usdcBalanceOf : Address → Nat}
    {usdcAllowance : Address × Address → Nat} {elsewhere : List Byte × Nat}
    (limited : Limited site.self cap s)
    (done : s.sponsor site entryPoint vd usdcBalanceOf usdcAllowance elsewhere = .ok t) :
    Limited site.self cap t := by
  rcases sponsor_spec done with ⟨op, frames, cost, under, validated | other⟩
  · rcases validated with ⟨charged, context, pvd, validated, rfl⟩
    rcases limited.validate validated with ⟨charges, same, held⟩
    refine ⟨charges.started, charges.capped, charges.metered, fun sender P => ?_⟩
    have more := held sender P
    rw [same, under, pendingFees_cons, Frame.fee.eq_1, Nat.zero_add] at more
    rw [pendingFees_cons]
    exact more
  · rcases other with ⟨pm, context, elsewhere, rfl⟩
    refine ⟨limited.started, limited.capped, limited.metered, fun sender P => ?_⟩
    have before := limited.covered sender P
    rw [under] at before
    simpa [pendingFees, Frame.fee, elsewhere] using before

/-- What `postOp` takes is within what its frame held back. -/
theorem taken_le_fee (op : UserOp) {pm : Address} (cost : Nat) (context : List Byte)
    (took : pm = site.self) :
    s.taken cost context ≤ Frame.fee site.self
      (BitVec.ofNat 160 (bytesToNat (context.take 20))) (.sponsored op pm cost context) := by
  rw [Frame.fee, if_pos (And.intro took rfl)]
  exact Nat.min_le_right _ _

/-- The end of an operation takes no more than its frame held back. -/
theorem settle {accepted : Bool} (limited : Limited site.self cap s)
    (done : s.settle site entryPoint accepted = .ok t) : Limited site.self cap t := by
  rcases settle_spec done with ⟨op, pm, cost, context, frames, nonces, under, -, rfl⟩
  refine ⟨limited.started, limited.capped, limited.metered, fun sender P => ?_⟩
  have before := limited.covered sender P
  rw [under, pendingFees_cons] at before
  by_cases took : (pm = site.self ∧ 0 < s.taken cost context) ∧
      BitVec.ofNat 160 (bytesToNat (context.take 20)) = sender
  · rcases took with ⟨took, rfl⟩
    have most := taken_le_fee (s := s) op cost context took.1
    rw [if_pos took, historyOf_cons, if_pos rfl]
    simp only [FixedWindow.totalWhere]
    cases counted : P s.timestamp with
    | true =>
        simp only [counted, if_true] at before ⊢
        omega
    | false =>
        simp only [counted, Bool.false_eq_true, if_false] at before ⊢
        omega
  · have unchanged : historyOf sender (if pm = site.self ∧ 0 < s.taken cost context then
        ⟨BitVec.ofNat 160 (bytesToNat (context.take 20)), s.timestamp, s.taken cost context⟩ ::
          s.transfers else s.transfers) = historyOf sender s.transfers := by
      split
      · next took' =>
        rw [historyOf_cons, if_neg (by intro same; exact took ⟨took', same⟩)]
      · rfl
    rw [unchanged]
    cases counted : P s.timestamp with
    | true =>
        simp only [counted, if_true] at before ⊢
        omega
    | false =>
        simp only [counted, Bool.false_eq_true, if_false] at before ⊢
        omega

/-- Every action keeps the limits, where the caps it sets are within the bound. -/
theorem step (limited : Limited site.self cap s) (within : action.CapAtMost cap)
    (inside : action.NoPostOp) (done : s.perform site entryPoint action = .ok t) :
    Limited site.self cap t := by
  cases action with
  | configure sender setting =>
      simp only [perform, bind_ok, pure_ok] at done
      rcases done with ⟨store, configured, rfl⟩
      rcases PaymasterStore.configure_spec configured with ⟨meters, cap_set, -⟩
      refine ⟨limited.started, ?_, ?_, limited.covered⟩
      · rcases cap_set with same | set
        · exact same.trans_le limited.capped
        · rw [set] at within
          exact within
      · simp only [meters]
        exact limited.metered
  | depositTo account amount =>
      simp only [perform, bind_ok, credit_ok, pure_ok] at done
      rcases done with ⟨_, -, rfl⟩
      exact { limited with }
  | deposit sender amount =>
      simp only [perform, bind_ok, require_ok, credit_ok, pure_ok, exists_const] at done
      rcases done with ⟨-, _, -, rfl⟩
      exact { limited with }
  | factoryCall op call =>
      simp only [perform, factoryCall, bind_ok, require_ok, exists_const] at done
      rcases done with ⟨_, -, -, done⟩
      cases call with
      | validatePaymasterUserOp userOp maxCost usdcBalanceOf usdcAllowance =>
          simp only [bind_ok, pure_ok] at done
          rcases done with ⟨⟨charged, _, _⟩, validated, rfl⟩
          exact (limited.validate validated).1
      | postOp context actualGasCost accepted => exact inside.elim
  | check op =>
      simp only [perform, check, bind_ok, require_ok, pure_ok, exists_const] at done
      rcases done with ⟨-, -, rfl⟩
      refine ⟨limited.started, limited.capped, limited.metered, fun sender P => ?_⟩
      simpa [pendingFees, Frame.fee] using limited.covered sender P
  | sponsor vd usdcBalanceOf usdcAllowance elsewhere => exact limited.sponsor done
  | settle accepted => exact limited.settle done
  | wait seconds =>
      simp only [perform, bind_ok, require_ok, pure_ok, exists_const, List.isEmpty_iff] at done
      rcases done with ⟨idle, rfl⟩
      constructor
      · exact limited.started.trans_le (Nat.le_add_right _ _)
      · exact limited.capped
      · exact fun sender => (limited.metered sender).wait (Nat.le_add_right _ _)
      · intro sender P
        have before := limited.covered sender P
        simp only [idle, pendingFees, List.map_nil, List.sum_nil, ite_self, Nat.add_zero]
          at before ⊢
        exact before

end Limited

/-- Whatever runs between and inside the operations of the entry point but a `postOp` that an
operation names as its factory call, no account pays more than twice the cap within a day,
wherever the day starts. -/
theorem fees_within_twice_the_cap {operator usdc ctf amm exchange oracle feeVault : Address}
    {store : PaymasterStore} {deposits nonces : Address → Nat} {timestamp : Nat}
    (created : PaymasterStore.deploy entryPoint operator usdc ctf amm exchange oracle feeVault =
      .ok store)
    (started : 0 < timestamp) (capped : PaymasterStore.defaultDailyCap ≤ cap)
    (within : ∀ action ∈ actions, action.CapAtMost cap)
    (inside : ∀ action ∈ actions, action.NoPostOp)
    (done : actions.foldlM (perform site entryPoint)
      (deployed store deposits nonces timestamp) = .ok s) (sender : Address) (first : Nat) :
    FixedWindow.totalWhere (FixedWindow.inSpan Paymaster.window first)
      (historyOf sender s.transfers) ≤ 2 * cap := by
  have path : Run (fun s action t => s.perform site entryPoint action = .ok t ∧
      action.CapAtMost cap ∧ action.NoPostOp) (deployed store deposits nonces timestamp)
      actions s :=
    Run.execute (fun _ _ _ admitted taken => ⟨taken, admitted⟩)
      (fun action there => ⟨within action there, inside action there⟩) done
  have limited : Limited site.self cap s :=
    path.invariant (Limited.deployed created started capped)
      fun _ _ _ limited step => limited.step step.2.1 step.2.2 step.1
  calc FixedWindow.totalWhere (FixedWindow.inSpan Paymaster.window first)
        (historyOf sender s.transfers)
    _ ≤ FixedWindow.totalWhere (FixedWindow.inSpan Paymaster.window first)
        (historyOf sender s.charges) := (Nat.le_add_right _ _).trans (limited.covered sender _)
    _ ≤ 2 * cap := (limited.metered sender).span_le first

/-! ### The price of gas over a run -/

/-- What an action adds to the deposit of the paymaster. -/
def Action.depositFor (own : Address) : Action → Nat
  | .depositTo account amount => if account = own then amount else 0
  | .deposit _ amount => amount
  | _ => 0

/-- The action does not set the rate. -/
def Action.KeepsRate : Action → Prop
  | .configure _ (.setWeiPerUsdc _) => False
  | _ => True

def collected (fees : List Fee) : Nat := (fees.map Fee.amount).sum

/-- At a rate: what each operation under way will be asked for, and what has left the deposit
against what was taken. -/
structure Priced (own : Address) (rate initial : Nat) (actions : List Action) (s : Sponsorship) :
    Prop where
  rate_eq : s.store.paymaster.weiPerUsdc = rate
  contexts : ∀ op cost context, .sponsored op own cost context ∈ s.frames →
    bytesToNat ((context.drop 20).take 32) = Paymaster.due rate cost
  covers : 10 ^ 6 * (initial + (actions.map (Action.depositFor own)).sum) ≤
    10 ^ 6 * s.deposits own + rate * collected s.transfers
  exact_within : 10 ^ 6 * s.deposits own + rate * collected s.transfers ≤
    10 ^ 6 * (initial + (actions.map (Action.depositFor own)).sum) +
      (rate - 1) * s.transfers.length

namespace Priced

variable {own : Address} {rate initial : Nat}

/-- An action that neither starts a validation nor ends an operation: the deposit grows by what
the action adds. -/
theorem idle (priced : Priced own rate initial actions s)
    (rate_same : t.store.paymaster.weiPerUsdc = s.store.paymaster.weiPerUsdc)
    (frames_same : ∀ op pm cost context, .sponsored op pm cost context ∈ t.frames →
      .sponsored op pm cost context ∈ s.frames)
    (transfers_same : t.transfers = s.transfers)
    (deposited : t.deposits own = s.deposits own + action.depositFor own) :
    Priced own rate initial (actions ++ [action]) t := by
  have covers := priced.covers
  have exact_within := priced.exact_within
  constructor
  · exact rate_same.trans priced.rate_eq
  · exact fun op cost context under => priced.contexts op cost context (frames_same _ _ _ _ under)
  · rw [transfers_same, deposited]
    simp only [List.map_append, List.map_cons, List.map_nil, List.sum_append, List.sum_cons,
      List.sum_nil]
    omega
  · rw [transfers_same, deposited]
    simp only [List.map_append, List.map_cons, List.map_nil, List.sum_append, List.sum_cons,
      List.sum_nil]
    omega

/-- A validation puts the price of the gas into its context, and changes neither the deposit nor
the transfers. -/
theorem validate {op : UserOp} {cost pvd : Nat} {usdcBalanceOf : Address → Nat}
    {usdcAllowance : Address × Address → Nat} {context : List Byte}
    (priced : Priced own rate initial actions s)
    (done : s.validate site entryPoint op cost usdcBalanceOf usdcAllowance =
      .ok (t, context, pvd)) :
    Priced own rate initial actions t ∧ t.frames = s.frames ∧
      bytesToNat ((context.drop 20).take 32) = Paymaster.due rate cost := by
  rcases validate_spec done with ⟨encoded, senders, paymaster, charged, rfl⟩
  rcases Paymaster.chargeCap_spec charged with ⟨-, fits, rfl⟩
  have parts := PaymasterStore.encodeContext_parts op.sender ((Nat.le_add_left _ _).trans_lt fits)
  refine ⟨⟨priced.rate_eq, priced.contexts, priced.covers, priced.exact_within⟩, rfl, ?_⟩
  rw [encoded, parts.2, priced.rate_eq]

/-- An action that changes the operations under way alone. -/
theorem reframe (priced : Priced own rate initial actions s) (none : action.depositFor own = 0)
    {frames : List Frame} (agreed : ∀ op cost context, .sponsored op own cost context ∈ frames →
      bytesToNat ((context.drop 20).take 32) = Paymaster.due rate cost) :
    Priced own rate initial (actions ++ [action]) { s with frames } := by
  constructor
  · exact priced.rate_eq
  · exact agreed
  · simpa [none] using priced.covers
  · simpa [none] using priced.exact_within

theorem sponsor {vd : Nat} {usdcBalanceOf : Address → Nat}
    {usdcAllowance : Address × Address → Nat} {elsewhere : List Byte × Nat}
    (priced : Priced site.self rate initial actions s)
    (done : s.sponsor site entryPoint vd usdcBalanceOf usdcAllowance elsewhere = .ok t) :
    Priced site.self rate initial
      (actions ++ [.sponsor vd usdcBalanceOf usdcAllowance elsewhere]) t := by
  rcases sponsor_spec done with ⟨op, frames, cost, under, validated | other⟩
  · rcases validated with ⟨charged, context, pvd, validated, rfl⟩
    rcases priced.validate validated with ⟨charges, same, agreed⟩
    apply charges.reframe rfl
    intro op' cost' context' there
    rcases List.mem_cons.mp there with now | earlier
    · cases now
      exact agreed
    · exact charges.contexts op' cost' context' (same ▸ under ▸ .tail _ earlier)
  · rcases other with ⟨pm, context, elsewhere, rfl⟩
    apply priced.reframe rfl
    intro op' cost' context' there
    rcases List.mem_cons.mp there with now | earlier
    · cases now
      exact absurd rfl elsewhere
    · exact priced.contexts op' cost' context' (under ▸ .tail _ earlier)

/-- The end of an operation takes the price of the gas it pays for. -/
theorem settle {accepted : Bool} (priced : Priced site.self rate initial actions s)
    (rated : rate ≠ 0) (done : s.settle site entryPoint accepted = .ok t) :
    Priced site.self rate initial (actions ++ [.settle accepted]) t := by
  rcases settle_spec done with ⟨op, pm, cost, context, frames, nonces, under, funded, rfl⟩
  have covers := priced.covers
  have exact_within := priced.exact_within
  have later : ∀ op' cost' context', .sponsored op' site.self cost' context' ∈ frames →
      bytesToNat ((context'.drop 20).take 32) = Paymaster.due rate cost' :=
    fun op' cost' context' there => priced.contexts op' cost' context' (under ▸ .tail _ there)
  by_cases own : pm = site.self
  · subst own
    have agreed := priced.contexts op cost context (under ▸ .head _)
    have fee : s.taken cost context = Paymaster.due rate cost := by
      rw [taken, priced.rate_eq, agreed, Nat.min_self]
    have least := Paymaster.le_due rated cost
    have most := Paymaster.due_le rate cost
    by_cases positive : 0 < s.taken cost context
    · rw [if_pos ⟨rfl, positive⟩]
      rw [fee] at *
      refine ⟨priced.rate_eq, later, ?_, ?_⟩
      · simp only [List.map_append, List.map_cons, List.map_nil, List.sum_append, List.sum_cons,
          List.sum_nil, Action.depositFor, Function.update_self, collected, Nat.mul_add] at *
        omega
      · simp only [List.map_append, List.map_cons, List.map_nil, List.sum_append, List.sum_cons,
          List.sum_nil, Action.depositFor, Function.update_self, collected, Nat.mul_add,
          List.length_cons] at *
        omega
    · rw [if_neg (by intro both; exact positive both.2)]
      have free : Paymaster.due rate cost = 0 := fee ▸ Nat.eq_zero_of_not_pos positive
      rw [free, Nat.mul_zero] at least
      have no_cost : cost = 0 := by omega
      subst no_cost
      refine ⟨priced.rate_eq, later, ?_, ?_⟩
      · simpa [Action.depositFor] using priced.covers
      · simpa [Action.depositFor] using priced.exact_within
  · rw [if_neg (by intro both; exact own both.1)]
    refine ⟨priced.rate_eq, later, ?_, ?_⟩
    · simpa [Action.depositFor, Function.update_of_ne (Ne.symm own)] using priced.covers
    · simpa [Action.depositFor, Function.update_of_ne (Ne.symm own)] using priced.exact_within

theorem step (priced : Priced site.self rate initial actions s) (rated : rate ≠ 0)
    (keeps : action.KeepsRate) (inside : action.NoPostOp)
    (done : s.perform site entryPoint action = .ok t) :
    Priced site.self rate initial (actions ++ [action]) t := by
  cases action with
  | configure sender setting =>
      simp only [perform, bind_ok, pure_ok] at done
      rcases done with ⟨store, configured, rfl⟩
      rcases (PaymasterStore.configure_spec configured).2.2 with same | set
      · exact priced.idle same (fun _ _ _ _ under => under) rfl rfl
      · rw [set] at keeps
        exact keeps.elim
  | depositTo account amount =>
      simp only [perform, bind_ok, credit_ok, pure_ok] at done
      rcases done with ⟨_, ⟨-, rfl⟩, rfl⟩
      apply priced.idle
      · rfl
      · exact fun _ _ _ _ under => under
      · rfl
      · by_cases same : account = site.self
        · subst same
          simp [Action.depositFor]
        · simp [Action.depositFor, same, Function.update_of_ne (Ne.symm same)]
  | deposit sender amount =>
      simp only [perform, bind_ok, require_ok, credit_ok, pure_ok, exists_const] at done
      rcases done with ⟨-, _, ⟨-, rfl⟩, rfl⟩
      apply priced.idle
      · rfl
      · exact fun _ _ _ _ under => under
      · rfl
      · simp [Action.depositFor]
  | factoryCall op call =>
      simp only [perform, factoryCall, bind_ok, require_ok, exists_const] at done
      rcases done with ⟨_, -, -, done⟩
      cases call with
      | validatePaymasterUserOp userOp maxCost usdcBalanceOf usdcAllowance =>
          simp only [bind_ok, pure_ok] at done
          rcases done with ⟨⟨charged, _, _⟩, validated, rfl⟩
          have charges := (priced.validate validated).1
          exact charges.reframe rfl charges.contexts
      | postOp context actualGasCost accepted => exact inside.elim
  | check op =>
      simp only [perform, check, bind_ok, require_ok, pure_ok, exists_const] at done
      rcases done with ⟨-, -, rfl⟩
      apply priced.idle
      · rfl
      · intro op' pm cost context under
        rcases List.mem_cons.mp under with same | earlier
        · cases same
        · exact earlier
      · rfl
      · rfl
  | sponsor vd usdcBalanceOf usdcAllowance elsewhere => exact priced.sponsor done
  | settle accepted => exact priced.settle rated done
  | wait seconds =>
      simp only [perform, bind_ok, require_ok, pure_ok, exists_const] at done
      rcases done with ⟨-, rfl⟩
      exact priced.idle rfl (fun _ _ _ _ under => under) rfl rfl

end Priced

def samplePaymasterStore : PaymasterStore where
  paymaster := { Paymaster.samplePaymaster with
    weiPerUsdc := PaymasterStore.defaultWeiPerUsdc
    dailyCapUsdc := PaymasterStore.defaultDailyCap
    allowedFactories := fun _ => false
    allowedSenders := fun _ => false }
  feeRecipient := 9

/-- An account is admitted, a deposit made, and one operation sponsored and settled whose factory
call is a validation by the paymaster. -/
def sampleActions : List Action :=
  [.configure 9 (.addSender 33), .depositTo 17 5,
    .factoryCall { Paymaster.sampleOp with initCode := ⟨natToBytes 20 17, by simp⟩ }
      (.validatePaymasterUserOp Paymaster.sampleOp 1 (fun _ => 100) (fun _ => 100)),
    .check Paymaster.sampleOp,
    .sponsor 0 (fun _ => 100) (fun _ => 100) ([], 0), .settle true, .wait 10]

def sampleStart : Sponsorship := deployed samplePaymasterStore (fun _ => 0) (fun _ => 0) 100

/-- What a sample run leaves: the transfers and the deposit. -/
def sampleEnd : Call (List Fee × Nat) :=
  (sampleActions.foldlM (perform Paymaster.sampleSite 2) sampleStart).map
    fun s => (s.transfers, s.deposits 17)

theorem sampleEnd_eq : sampleEnd = .ok ([⟨33, 100, 1⟩], 4) := by decide +kernel

theorem sample_runs : ∃ s, sampleActions.foldlM (perform Paymaster.sampleSite 2) sampleStart =
    .ok s ∧ s.transfers = [⟨33, 100, 1⟩] ∧ s.deposits 17 = 4 := by
  have ends := sampleEnd_eq
  unfold sampleEnd at ends
  cases done : sampleActions.foldlM (perform Paymaster.sampleSite 2) sampleStart with
  | error why =>
      rw [done] at ends
      cases ends
  | ok s =>
      rw [done] at ends
      simp only [Except.map, Except.ok.injEq, Prod.mk.injEq] at ends
      exact ⟨s, rfl, ends.1, ends.2⟩

theorem fees_within_twice_the_cap_sample :
    ∃ s, sampleActions.foldlM (perform Paymaster.sampleSite 2) sampleStart = .ok s ∧
      s.transfers = [⟨33, 100, 1⟩] ∧
      FixedWindow.totalWhere (FixedWindow.inSpan Paymaster.window 50)
        (historyOf 33 s.transfers) ≤ 2 * PaymasterStore.defaultDailyCap := by
  obtain ⟨s, done, transfers, -⟩ := sample_runs
  have within : ∀ action ∈ sampleActions, action.CapAtMost PaymasterStore.defaultDailyCap := by
    simp [sampleActions, Action.CapAtMost]
  have inside : ∀ action ∈ sampleActions, action.NoPostOp := by
    simp [sampleActions, Action.NoPostOp]
  have created : PaymasterStore.deploy 2 9 11 12 13 14 15 16 = .ok samplePaymasterStore := rfl
  exact ⟨s, done, transfers,
    fees_within_twice_the_cap created (by decide) le_rfl within inside done 33 50⟩

end Sponsorship

end OverUnder.Contracts
