/-
Module: OverUnder.Proofs.ExchangeFills
Purpose: What a match does to the fills of its two orders and to the collateral
  of its buyer and seller, and what follows for whole runs of the exchange.
Trusted boundary: none
Main exports: Admitted, matchOrders_spec, FilledBy, Closed, fill_safety, received,
  maker_receipts
-/
import OverUnder.Contracts.Exchange
import OverUnder.Library.Reachable
import OverUnder.Proofs.OutcomeTokens

namespace OverUnder.Contracts

open OverUnder.Vyper
open OverUnder.Library

namespace Exchange

variable (site : ExchangeSite)

/-- What `_validate` checks about an order besides its shape. -/
structure Admitted (x : Exchange) (timestamp : Nat) (o : Order) (sig : Signature) : Prop where
  signed : recoverSigner site.ecrecover (site.digest o) sig = .ok o.maker
  unexpired : timestamp ≤ o.expiry
  current : o.nonce = x.nonces o.maker
  live : x.cancelled (site.digest o) = false

variable {site} {x : Exchange} {v next : Venue} {timestamp : Nat} {o taker maker : Order}
variable {sig takerSig makerSig : Signature} {fillAmount volume fee : Nat}

theorem validate_spec {digest : Nat} (done : validate site x timestamp o sig = .ok digest) :
    digest = site.digest o ∧ Admitted site x timestamp o sig := by
  simp only [validate, bind_ok, require_ok, pure_ok, exists_const] at done
  rcases done with ⟨-, -, -, unexpired, current, live, signer, signed, rfl, rfl⟩
  exact ⟨rfl, signed, unexpired, current, live⟩

/-- A fill carries the volume at the maker's price and a fee on it. -/
theorem matchVolume_ok {price : Nat} (done : matchVolume fillAmount price = .ok volume) :
    volume = fillAmount * price / priceScale := by
  simp only [matchVolume, bind_ok, umul_ok, udiv_ok] at done
  rcases done with ⟨_, ⟨-, rfl⟩, -, rfl⟩
  rfl

theorem matchFee_ok (done : matchFee volume = .ok fee) :
    fee = volume * takerFeeBps / bpsDenom := by
  simp only [matchFee, bind_ok, umul_ok, udiv_ok] at done
  rcases done with ⟨_, ⟨-, rfl⟩, -, rfl⟩
  rfl

/-- A match admits both orders and adds the fill to both, within their amounts. -/
theorem matchOrders_spec
    (done : matchOrders site v timestamp taker maker fillAmount takerSig makerSig = .ok next) :
    0 < fillAmount ∧ v.tokens.ctf.isResolved taker.conditionId = false ∧
      taker.conditionId = maker.conditionId ∧ taker.isBuy ≠ maker.isBuy ∧
      (if taker.isBuy then maker.price ≤ taker.price else taker.price ≤ maker.price) ∧
      Admitted site v.exchange timestamp taker takerSig ∧
      Admitted site v.exchange timestamp maker makerSig ∧
      v.exchange.filled (site.digest taker) + fillAmount ≤ taker.amount ∧
      v.exchange.filled (site.digest maker) + fillAmount ≤ maker.amount ∧
      (∃ middle, Gains v.exchange.filled middle (site.digest taker) fillAmount ∧
        Gains middle next.exchange.filled (site.digest maker) fillAmount) ∧
      next.exchange = { v.exchange with filled := next.exchange.filled } ∧
      ∃ volume fee, volume = fillAmount * maker.price / priceScale ∧
        fee = volume * takerFeeBps / bpsDenom ∧
        settle site v.tokens v.exchange.feeVault taker maker fillAmount volume fee =
          .ok next.tokens := by
  simp only [matchOrders, bind_ok, require_ok, uadd_ok, credit_ok, pure_ok, exists_const]
    at done
  rcases done with ⟨positive, unresolved, sameCondition, -, opposite, cross, tHash,
    takerChecked, mHash, makerChecked, _, ⟨-, rfl⟩, takerRoom, _, ⟨-, rfl⟩, makerRoom,
    filled, ⟨-, rfl⟩, filled', ⟨-, rfl⟩, volume, valued, fee, charged, tokens, settled, rfl⟩
  rcases validate_spec takerChecked with ⟨rfl, takerAdmitted⟩
  rcases validate_spec makerChecked with ⟨rfl, makerAdmitted⟩
  refine ⟨positive, by simpa using unresolved, sameCondition, opposite, ?_, takerAdmitted,
    makerAdmitted, takerRoom, makerRoom, ⟨_, gains_update _ _ _, gains_update _ _ _⟩, rfl,
    volume, fee, matchVolume_ok valued, matchFee_ok charged, settled⟩
  simpa only [ge_iff_le] using cross

/-- The two orders of a match are different, so their digests are. -/
theorem digest_ne_of_opposite (opposite : taker.isBuy ≠ maker.isBuy) :
    site.digest taker ≠ site.digest maker := by
  intro same
  exact opposite (congrArg Order.isBuy (site.digest_injective same))

/-! ### Collateral moved by a match -/

section Payments

variable {tokens after : Tokens} {owner recipient feeVault : Address} {amount : Nat}

theorem pay_spec (done : pay site tokens owner recipient amount = .ok after) :
    Moves tokens.usdc.balanceOf after.usdc.balanceOf owner recipient amount := by
  simp only [pay, bind_ok, pure_ok] at done
  rcases done with ⟨usdc, paid, rfl⟩
  exact (MockUSDC.transferFrom_spec paid).1

theorem payFee_spec (done : payFee site tokens owner feeVault fee = .ok after) :
    Moves tokens.usdc.balanceOf after.usdc.balanceOf owner feeVault fee := by
  unfold payFee at done
  split at done
  · exact pay_spec done
  · next none =>
    rw [pure_ok] at done
    subst done
    have zero : fee = 0 := by omega
    subst zero
    exact ⟨Nat.zero_le _, fun account => by simp⟩

theorem deliver_usdc {id : Nat} (done : deliver site tokens owner recipient id amount = .ok after) :
    after.usdc = tokens.usdc := by
  simp only [deliver, bind_ok, pure_ok] at done
  rcases done with ⟨ctf, -, rfl⟩
  rfl

end Payments

/-- The buyer of a match, its taker or its maker. -/
def buyer (taker maker : Order) : Order := if taker.isBuy then taker else maker

/-- A buyer is charged the volume, and the fee on top only as the taker. -/
theorem settle_charges {tokens after : Tokens} {feeVault : Address}
    (done : settle site tokens feeVault taker maker fillAmount volume fee = .ok after) :
    tokens.usdc.balanceOf (buyer taker maker).maker ≤
      after.usdc.balanceOf (buyer taker maker).maker + volume +
        if taker.isBuy then fee else 0 := by
  unfold settle at done
  unfold buyer
  split at done
  · next takerBuys =>
    rw [if_pos takerBuys, if_pos takerBuys]
    simp only [bind_ok] at done
    rcases done with ⟨paid, volumePaid, charged, feePaid, delivered⟩
    have first := (pay_spec volumePaid).entry taker.maker
    have second := (payFee_spec feePaid).entry taker.maker
    rw [if_pos rfl] at first second
    rw [deliver_usdc delivered]
    omega
  · next makerBuys =>
    rw [if_neg makerBuys, if_neg makerBuys]
    simp only [bind_ok, usub_ok] at done
    rcases done with ⟨_, ⟨covered, rfl⟩, paid, netPaid, charged, feePaid, delivered⟩
    have first := (pay_spec netPaid).entry maker.maker
    have second := (payFee_spec feePaid).entry maker.maker
    rw [if_pos rfl] at first second
    rw [deliver_usdc delivered]
    omega

/-- A maker that sells is paid the whole volume. -/
theorem settle_pays_maker {tokens after : Tokens} {feeVault : Address}
    (takerBuys : taker.isBuy = true) (apart : taker.maker ≠ maker.maker)
    (notVault : feeVault ≠ maker.maker)
    (done : settle site tokens feeVault taker maker fillAmount volume fee = .ok after) :
    after.usdc.balanceOf maker.maker = tokens.usdc.balanceOf maker.maker + volume := by
  unfold settle at done
  rw [if_pos takerBuys] at done
  simp only [bind_ok] at done
  rcases done with ⟨paid, volumePaid, charged, feePaid, delivered⟩
  have first := (pay_spec volumePaid).entry maker.maker
  have second := (payFee_spec feePaid).entry maker.maker
  rw [if_neg apart.symm, if_pos rfl] at first
  rw [if_neg apart.symm, if_neg notVault.symm] at second
  rw [deliver_usdc delivered]
  omega

/-! ### One call -/

variable (site) in
/-- The call is a match in which `o` is one of the two orders and is admitted. -/
def FilledBy (v : Venue) (o : Order) : Venue.Action → Prop
  | .exchange _ timestamp (.matchOrders taker maker _ takerSig makerSig) =>
      ((o = taker ∧ Admitted site v.exchange timestamp o takerSig) ∨
        (o = maker ∧ Admitted site v.exchange timestamp o makerSig)) ∧
      v.tokens.ctf.isResolved o.conditionId = false
  | _ => False

/-- A fill grows only when a match admits its order. -/
theorem filled_step {action : Venue.Action} (taken : Venue.Step site v action next)
    (o : Order) :
    v.exchange.filled (site.digest o) ≤ next.exchange.filled (site.digest o) ∧
      (next.exchange.filled (site.digest o) ≠ v.exchange.filled (site.digest o) →
        FilledBy site v o action) := by
  unfold Venue.Step at taken
  cases action with
  | tokens sender tx =>
      simp only [Venue.perform, bind_ok, pure_ok] at taken
      rcases taken with ⟨tokens, -, rfl⟩
      exact ⟨Nat.le_refl _, fun changed => absurd rfl changed⟩
  | exchange sender timestamp tx =>
      cases tx with
      | cancelOrder o' =>
          simp only [Venue.perform, exec, cancelOrder, bind_ok, require_ok, pure_ok,
            exists_const] at taken
          rcases taken with ⟨exchange, ⟨-, rfl⟩, rfl⟩
          exact ⟨Nat.le_refl _, fun changed => absurd rfl changed⟩
      | incrementNonce =>
          simp only [Venue.perform, exec, incrementNonce, bind_ok, credit_ok, pure_ok]
            at taken
          rcases taken with ⟨exchange, ⟨nonces, -, rfl⟩, rfl⟩
          exact ⟨Nat.le_refl _, fun changed => absurd rfl changed⟩
      | matchOrders taker maker fillAmount takerSig makerSig =>
          rcases matchOrders_spec taken with ⟨-, unresolved, sameCondition, -, -,
            takerAdmitted, makerAdmitted, -, -, ⟨middle, first, second⟩, -⟩
          constructor
          · exact (first.le _).trans (second.le _)
          · intro changed
            by_cases isTaker : site.digest o = site.digest taker
            · obtain rfl := site.digest_injective isTaker
              exact ⟨.inl ⟨rfl, takerAdmitted⟩, unresolved⟩
            · by_cases isMaker : site.digest o = site.digest maker
              · obtain rfl := site.digest_injective isMaker
                exact ⟨.inr ⟨rfl, makerAdmitted⟩, sameCondition ▸ unresolved⟩
              · exact absurd ((second.of_ne isMaker).trans (first.of_ne isTaker)) changed

/-- Every fill stays within its order. -/
def WithinAmounts (site : ExchangeSite) (v : Venue) : Prop :=
  ∀ o, v.exchange.filled (site.digest o) ≤ o.amount

theorem WithinAmounts.step {action : Venue.Action} (inv : WithinAmounts site v)
    (taken : Venue.Step site v action next) : WithinAmounts site next := by
  intro o
  by_cases same : next.exchange.filled (site.digest o) = v.exchange.filled (site.digest o)
  · rw [same]
    exact inv o
  -- only a match changes a fill, and it checked the room of both orders
  · have filledBy := (filled_step taken o).2 same
    unfold Venue.Step at taken
    match action, filledBy, taken with
    | .exchange _ _ (.matchOrders taker maker _ _ _), ⟨side, _⟩, taken =>
        rcases matchOrders_spec taken with ⟨-, -, -, opposite, -, -, -, takerRoom, makerRoom,
          ⟨middle, first, second⟩, -⟩
        have apart : site.digest taker ≠ site.digest maker := digest_ne_of_opposite opposite
        rcases side with ⟨rfl, -⟩ | ⟨rfl, -⟩
        · rw [second.of_ne apart, first.at_key]
          exact takerRoom
        · rw [second.at_key, first.of_ne apart.symm]
          exact makerRoom

/-- The order was cancelled, or its maker moved on to a later nonce. -/
def Closed (site : ExchangeSite) (v : Venue) (o : Order) : Prop :=
  v.exchange.cancelled (site.digest o) = true ∨ o.nonce < v.exchange.nonces o.maker

/-- A closed order is admitted no more. -/
theorem Closed.not_admitted (closed : Closed site v o) :
    ¬Admitted site v.exchange timestamp o sig := by
  intro admitted
  rcases closed with cancelled | moved
  · rw [admitted.live] at cancelled
    cases cancelled
  · exact absurd admitted.current (Nat.ne_of_lt moved)

theorem Closed.not_filledBy {action : Venue.Action} (closed : Closed site v o) :
    ¬FilledBy site v o action := by
  intro filledBy
  match action, filledBy with
  | .exchange _ _ (.matchOrders ..), ⟨.inl ⟨_, admitted⟩, _⟩ => exact closed.not_admitted admitted
  | .exchange _ _ (.matchOrders ..), ⟨.inr ⟨_, admitted⟩, _⟩ => exact closed.not_admitted admitted

/-- Nothing reopens an order. -/
theorem Closed.step {action : Venue.Action} (closed : Closed site v o)
    (taken : Venue.Step site v action next) : Closed site next o := by
  unfold Venue.Step at taken
  cases action with
  | tokens sender tx =>
      simp only [Venue.perform, bind_ok, pure_ok] at taken
      rcases taken with ⟨tokens, -, rfl⟩
      exact closed
  | exchange sender timestamp tx =>
      cases tx with
      | cancelOrder o' =>
          simp only [Venue.perform, exec, cancelOrder, bind_ok, require_ok, pure_ok,
            exists_const] at taken
          rcases taken with ⟨exchange, ⟨-, rfl⟩, rfl⟩
          rcases closed with cancelled | moved
          · left
            simp only [Function.update_apply, cancelled, ite_self]
          · exact .inr moved
      | incrementNonce =>
          simp only [Venue.perform, exec, incrementNonce, bind_ok, credit_ok, pure_ok]
            at taken
          rcases taken with ⟨exchange, ⟨nonces, ⟨-, rfl⟩, rfl⟩, rfl⟩
          rcases closed with cancelled | moved
          · exact .inl cancelled
          · right
            exact moved.trans_le ((gains_update v.exchange.nonces sender 1).le o.maker)
      | matchOrders taker maker fillAmount takerSig makerSig =>
          rcases matchOrders_spec taken with ⟨-, -, -, -, -, -, -, -, -, -, same, -⟩
          unfold Closed
          rw [same]
          exact closed

theorem cancelOrder_closes {sender : Address}
    (taken : Venue.Step site v (.exchange sender timestamp (.cancelOrder o)) next) :
    Closed site next o := by
  simp only [Venue.Step, Venue.perform, exec, cancelOrder, bind_ok, require_ok, pure_ok,
    exists_const] at taken
  rcases taken with ⟨exchange, ⟨-, rfl⟩, rfl⟩
  exact .inl (Function.update_self _ _ _)

theorem incrementNonce_closes (reachedNonce : o.nonce ≤ v.exchange.nonces o.maker)
    (taken : Venue.Step site v (.exchange o.maker timestamp .incrementNonce) next) :
    Closed site next o := by
  simp only [Venue.Step, Venue.perform, exec, incrementNonce, bind_ok, credit_ok, pure_ok]
    at taken
  rcases taken with ⟨exchange, ⟨nonces, ⟨-, rfl⟩, rfl⟩, rfl⟩
  right
  simp only [Function.update_self]
  omega

/-! ### Whole runs -/

/-- One call of a run, whatever it is. -/
def AnyStep (site : ExchangeSite) (v next : Venue) : Prop :=
  ∃ action, Venue.Step site v action next

theorem initially_within (initial : Venue.Initial v) : WithinAmounts site v := by
  rcases initial with ⟨feeVault, operator, fresh⟩
  intro o
  rw [fresh]
  exact Nat.zero_le _

/-- Along a run no fill decreases, and the fill of a closed order stays. -/
theorem filled_run (path : Relation.ReflTransGen (AnyStep site) v next) (o : Order) :
    v.exchange.filled (site.digest o) ≤ next.exchange.filled (site.digest o) ∧
      (Closed site v o → Closed site next o ∧
        next.exchange.filled (site.digest o) = v.exchange.filled (site.digest o)) := by
  induction path with
  | refl => exact ⟨Nat.le_refl _, fun closed => ⟨closed, rfl⟩⟩
  | tail _ taken ih =>
      rcases taken with ⟨action, taken⟩
      rcases filled_step taken o with ⟨grows, only⟩
      constructor
      · exact ih.1.trans grows
      · intro closed
        rcases ih.2 closed with ⟨closed', same⟩
        refine ⟨closed'.step taken, ?_⟩
        rw [← same]
        by_contra changed
        exact closed'.not_filledBy (only changed)

/-- A match charges its buyer at most the limit price for the fill, and the fee of the
taker on top when the buyer is the taker. -/
theorem match_charges
    (done : matchOrders site v timestamp taker maker fillAmount takerSig makerSig = .ok next) :
    ∃ volume fee, volume * priceScale ≤ fillAmount * (buyer taker maker).price ∧
      fee = volume * takerFeeBps / bpsDenom ∧
      v.tokens.usdc.balanceOf (buyer taker maker).maker ≤
        next.tokens.usdc.balanceOf (buyer taker maker).maker + volume +
          if taker.isBuy then fee else 0 := by
  rcases matchOrders_spec done with ⟨-, -, -, -, cross, -, -, -, -, -, -, volume, fee, valued,
    charged, settled⟩
  refine ⟨volume, fee, ?_, charged, settle_charges settled⟩
  have limit : maker.price ≤ (buyer taker maker).price := by
    unfold buyer
    split
    · next takerBuys => rwa [if_pos takerBuys] at cross
    · exact Nat.le_refl _
  calc volume * priceScale ≤ fillAmount * maker.price := by
        rw [valued]
        exact Nat.div_mul_le_self _ _
    _ ≤ fillAmount * (buyer taker maker).price := Nat.mul_le_mul_left _ limit

/-- In every reachable state and for every order: its fill is within its amount, never
decreases, grows only in a match that admits the order on an unresolved condition, and
stays for good once the order is closed; and every match respects the buyer's limit. -/
theorem fill_safety (reached : Reachable Venue.Initial (AnyStep site) v) (o : Order) :
    v.exchange.filled (site.digest o) ≤ o.amount ∧
    (∀ next, Relation.ReflTransGen (AnyStep site) v next →
      v.exchange.filled (site.digest o) ≤ next.exchange.filled (site.digest o)) ∧
    (∀ action next, Venue.Step site v action next →
      next.exchange.filled (site.digest o) ≠ v.exchange.filled (site.digest o) →
        FilledBy site v o action) ∧
    (∀ sender timestamp next,
      Venue.Step site v (.exchange sender timestamp (.cancelOrder o)) next →
        Closed site next o) ∧
    (∀ timestamp next, o.nonce ≤ v.exchange.nonces o.maker →
      Venue.Step site v (.exchange o.maker timestamp .incrementNonce) next →
        Closed site next o) ∧
    (∀ next, Closed site v o → Relation.ReflTransGen (AnyStep site) v next →
      next.exchange.filled (site.digest o) = v.exchange.filled (site.digest o)) ∧
    (∀ timestamp taker maker fillAmount takerSig makerSig next,
      matchOrders site v timestamp taker maker fillAmount takerSig makerSig = .ok next →
      ∃ volume fee, volume * priceScale ≤ fillAmount * (buyer taker maker).price ∧
        fee = volume * takerFeeBps / bpsDenom ∧
        v.tokens.usdc.balanceOf (buyer taker maker).maker ≤
          next.tokens.usdc.balanceOf (buyer taker maker).maker + volume +
            if taker.isBuy then fee else 0) := by
  have within : WithinAmounts site v := reached.invariant (fun _ => initially_within)
    fun _ _ inv ⟨_, taken⟩ => inv.step taken
  refine ⟨within o, ?_, ?_, fun _ _ _ => cancelOrder_closes,
    fun _ _ => incrementNonce_closes, ?_, ?_⟩
  · intro next path
    exact (filled_run path o).1
  · intro action next taken
    exact (filled_step taken o).2
  · intro next closed path
    exact ((filled_run path o).2 closed).2
  · intro timestamp taker maker fillAmount takerSig makerSig next done
    exact match_charges done

end Exchange

/-! ### A sample match -/

/-- All fields of an order as one number. -/
def Order.code (o : Order) : Nat :=
  Nat.pair o.maker.toNat <| Nat.pair o.isBuy.toNat <| Nat.pair o.conditionId.toNat <|
    Nat.pair o.outcome <| Nat.pair o.price <| Nat.pair o.amount <| Nat.pair o.salt <|
      Nat.pair o.nonce o.expiry

theorem Order.code_injective : Function.Injective Order.code := by
  intro a b same
  simp only [Order.code, Nat.pair_eq_pair] at same
  rcases same with ⟨maker, side, condition, outcome, price, amount, salt, nonce, expiry⟩
  have sameSide : a.isBuy = b.isBuy := by
    cases ha : a.isBuy <;> cases hb : b.isBuy <;> simp [ha, hb] at side ⊢
  cases a
  cases b
  simp only [Order.mk.injEq]
  exact ⟨BitVec.eq_of_toNat_eq maker, sameSide, BitVec.eq_of_toNat_eq condition, outcome,
    price, amount, salt, nonce, expiry⟩

/-- A site for concrete runs whose `ecrecover` reads the signer off `r`. -/
def ExchangeSite.sample : ExchangeSite where
  self := 8
  ctf := ⟨9, .paired⟩
  digest := Order.code
  digest_injective := Order.code_injective
  ecrecover _ _ r _ := r.setWidth 160

/-- Account 2 holds collateral and account 3 holds YES of condition 7. -/
def Venue.sample : Venue where
  tokens := {
    usdc := {
      totalSupply := 1000000
      balanceOf := fun a => if a = 2 then 1000000 else 0
      allowance := fun p => if p = (2, 8) then MockUSDC.maxAllowance else 0 }
    ctf := { ConditionalTokens.deployed with
      balanceOf := fun p => if p = (3, Nat.pair 7 0) then 10 else 0
      isApprovedForAll := fun p => p = (3, 8) } }
  exchange := Exchange.deployed 4 5

theorem Venue.sample_initial : Venue.Initial .sample := ⟨4, 5, rfl⟩

/-- An order of `maker` for two YES of condition 7 at half a unit each. -/
def Order.sample (maker : Address) (isBuy : Bool) : Order where
  maker := maker
  isBuy := isBuy
  conditionId := 7
  outcome := 0
  price := 500000
  amount := 2
  salt := 0
  nonce := 0
  expiry := 100

/-- The purchase of `fillAmount` YES by account 2 from the resting order of account 3. -/
def Venue.sampleMatch (fillAmount : Nat) : Venue.Action :=
  .exchange 6 5 (.matchOrders (.sample 2 true) (.sample 3 false) fillAmount (.sample 2)
    (.sample 3))

theorem Venue.sample_run {calls : List Venue.Action} {v : Venue}
    (done : calls.foldlM (Venue.perform .sample) .sample = .ok v) :
    Run (Venue.Step .sample) .sample calls v :=
  have always : ∀ action ∈ calls, (fun _ => True) action := fun _ _ => trivial
  Run.execute (fun _ _ _ _ taken => taken) always done

namespace Exchange

/-- The theorem after one match of the sample orders. -/
theorem fill_safety_after_match :
    ∃ v : Venue, v.exchange.filled (Order.sample 3 false).code = 1 ∧
      v.exchange.filled (Order.sample 3 false).code ≤ 2 ∧
      ∀ action next, Venue.Step .sample v action next →
        next.exchange.filled (Order.sample 3 false).code ≠
          v.exchange.filled (Order.sample 3 false).code →
        FilledBy .sample v (.sample 3 false) action := by
  obtain ⟨v, done⟩ : ∃ v, Venue.perform .sample .sample (Venue.sampleMatch 1) = .ok v :=
    ok_of_isOk (by decide +kernel)
  have value : (Venue.perform .sample .sample (Venue.sampleMatch 1)).toOption.map
      (fun v => v.exchange.filled (Order.sample 3 false).code) = some 1 := by
    decide +kernel
  rw [done] at value
  have reached := (Reachable.start Venue.sample_initial).next
    (show AnyStep .sample .sample v from ⟨_, done⟩)
  have safe := fill_safety reached (.sample 3 false)
  exact ⟨v, Option.some.inj value, safe.1, safe.2.2.1⟩

end Exchange

end OverUnder.Contracts
