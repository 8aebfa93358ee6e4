/-
Module: OverUnder.Proofs.MakerReceipts
Purpose: What a resting sell order earns over a run in which it is filled piece
  by piece. Every call rounds its own volume down, so the pieces may earn less
  than the whole, by less than one unit for each further call.
Trusted boundary: none
Main exports: restingFills, takenFills, proceeds, filled_eq_pieces,
  maker_receipts, maker_receipts_short
-/
import OverUnder.Library.Rounding
import OverUnder.Proofs.ExchangeFills

namespace OverUnder.Contracts.Exchange

open OverUnder.Vyper
open OverUnder.Library

/-- The fill of a call in which `o` rests as the maker. -/
def restingFill (o : Order) : Venue.Action → Option Nat
  | .exchange _ _ (.matchOrders _ maker fillAmount _ _) =>
      if maker = o then some fillAmount else none
  | _ => none

/-- The fill of a call in which `o` is the taker. -/
def takenFill (o : Order) : Venue.Action → Option Nat
  | .exchange _ _ (.matchOrders taker _ fillAmount _ _) =>
      if taker = o then some fillAmount else none
  | _ => none

def restingFills (o : Order) (calls : List Venue.Action) : List Nat :=
  calls.filterMap (restingFill o)

def takenFills (o : Order) (calls : List Venue.Action) : List Nat :=
  calls.filterMap (takenFill o)

/-- What the maker of `o` earns over the calls in which `o` rests. -/
def proceeds (o : Order) (calls : List Venue.Action) : Nat :=
  ((restingFills o calls).map fun f => f * o.price / priceScale).sum

variable {site : ExchangeSite} {v next : Venue} {calls : List Venue.Action} {o : Order}

/-! ### Fills as pieces -/

theorem restingFills_snoc (o : Order) (calls : List Venue.Action) (action : Venue.Action) :
    restingFills o (calls ++ [action]) = restingFills o calls ++ (restingFill o action).toList := by
  unfold restingFills
  rw [List.filterMap_append]
  cases piece : restingFill o action <;> simp [piece]

theorem takenFills_snoc (o : Order) (calls : List Venue.Action) (action : Venue.Action) :
    takenFills o (calls ++ [action]) = takenFills o calls ++ (takenFill o action).toList := by
  unfold takenFills
  rw [List.filterMap_append]
  cases piece : takenFill o action <;> simp [piece]

/-- One call adds its piece to the fill of each of its orders. -/
theorem filled_step_eq {action : Venue.Action} (taken : Venue.Step site v action next)
    (o : Order) :
    next.exchange.filled (site.digest o) = v.exchange.filled (site.digest o) +
      (restingFill o action).toList.sum + (takenFill o action).toList.sum := by
  by_cases filledBy : FilledBy site v o action
  · unfold Venue.Step at taken
    match action, filledBy, taken with
    | .exchange _ _ (.matchOrders taker maker _ _ _), ⟨side, _⟩, taken =>
        rcases matchOrders_spec taken with ⟨-, -, -, opposite, -, -, -, -, -,
          ⟨middle, first, second⟩, -⟩
        have apart : site.digest taker ≠ site.digest maker := digest_ne_of_opposite opposite
        have distinct : taker ≠ maker := fun same => apart (congrArg _ same)
        rcases side with ⟨rfl, -⟩ | ⟨rfl, -⟩
        · rw [second.of_ne apart, first.at_key]
          simp [restingFill, takenFill, distinct.symm]
        · rw [second.at_key, first.of_ne apart.symm]
          simp [restingFill, takenFill, distinct]
  -- an order no match admits is in neither role
  · have same : next.exchange.filled (site.digest o) = v.exchange.filled (site.digest o) := by
      by_contra changed
      exact filledBy ((filled_step taken o).2 changed)
    rw [same]
    unfold Venue.Step at taken
    match action, filledBy, taken with
    | .tokens _ _, _, _ => simp [restingFill, takenFill]
    | .exchange _ _ (.cancelOrder _), _, _ => simp [restingFill, takenFill]
    | .exchange _ _ .incrementNonce, _, _ => simp [restingFill, takenFill]
    | .exchange _ _ (.matchOrders taker maker _ _ _), filledBy, taken =>
        rcases matchOrders_spec taken with ⟨-, unresolved, sameCondition, -, -, takerAdmitted,
          makerAdmitted, -⟩
        have notTaker : taker ≠ o := by
          rintro rfl
          exact filledBy ⟨.inl ⟨rfl, takerAdmitted⟩, unresolved⟩
        have notMaker : maker ≠ o := by
          rintro rfl
          exact filledBy ⟨.inr ⟨rfl, makerAdmitted⟩, sameCondition ▸ unresolved⟩
        simp [restingFill, takenFill, notTaker, notMaker]

/-- From deployment on, the fill of an order is the sum of its pieces. -/
theorem filled_eq_pieces (initial : Venue.Initial v) (path : Run (Venue.Step site) v calls next)
    (o : Order) :
    next.exchange.filled (site.digest o) =
      (restingFills o calls).sum + (takenFills o calls).sum := by
  refine path.measure (I := fun calls next => next.exchange.filled (site.digest o) =
    (restingFills o calls).sum + (takenFills o calls).sum) ?_ ?_
  · rcases initial with ⟨feeVault, operator, fresh⟩
    rw [fresh]
    rfl
  · intro calls before action after ih taken
    rw [filled_step_eq taken o, ih, restingFills_snoc, takenFills_snoc, List.sum_append,
      List.sum_append]
    omega

/-! ### Receipts -/

/-- A resting sell order earns the floor of its price for the fill, free of the fee. -/
theorem resting_sale_pays {timestamp fillAmount : Nat} {taker : Order}
    {takerSig makerSig : Signature} (sells : o.isBuy = false)
    (done : matchOrders site v timestamp taker o fillAmount takerSig makerSig = .ok next)
    (apart : taker.maker ≠ o.maker) (notVault : v.exchange.feeVault ≠ o.maker) :
    next.tokens.usdc.balanceOf o.maker =
      v.tokens.usdc.balanceOf o.maker + fillAmount * o.price / priceScale := by
  rcases matchOrders_spec done with ⟨-, -, -, opposite, -, -, -, -, -, -, -, volume, fee,
    valued, -, settled⟩
  have takerBuys : taker.isBuy = true := by
    rw [sells] at opposite
    exact Bool.eq_true_of_not_eq_false opposite
  rw [← valued]
  exact settle_pays_maker takerBuys apart notVault settled

/-- A sell order that rests through a run earns the floored volume of each of its pieces,
which is less than the volume of its whole fill by at most one unit for each piece after the
first; each piece is credited to its maker in full. -/
theorem maker_receipts (initial : Venue.Initial v) (path : Run (Venue.Step site) v calls next)
    (sells : o.isBuy = false) :
    next.exchange.filled (site.digest o) =
      (restingFills o calls).sum + (takenFills o calls).sum ∧
    (restingFills o calls).sum * o.price / priceScale ≤
      proceeds o calls + ((restingFills o calls).length - 1) ∧
    (∀ before after timestamp taker fillAmount takerSig makerSig,
      matchOrders site before timestamp taker o fillAmount takerSig makerSig = .ok after →
      taker.maker ≠ o.maker → before.exchange.feeVault ≠ o.maker →
      after.tokens.usdc.balanceOf o.maker =
        before.tokens.usdc.balanceOf o.maker + fillAmount * o.price / priceScale) := by
  refine ⟨filled_eq_pieces initial path o, sum_mul_div_le _ _ (by decide) _, ?_⟩
  intro before after timestamp taker fillAmount takerSig makerSig done apart notVault
  exact resting_sale_pays sells done apart notVault

/-- The theorem over two pieces of the sample order. -/
theorem maker_receipts_two_pieces :
    ∃ v : Venue, v.exchange.filled (Order.sample 3 false).code = 2 ∧
      2 * 500000 / priceScale ≤
        proceeds (.sample 3 false) [Venue.sampleMatch 1, Venue.sampleMatch 1] + 1 := by
  obtain ⟨v, done⟩ : ∃ v, [Venue.sampleMatch 1, Venue.sampleMatch 1].foldlM
      (Venue.perform .sample) .sample = .ok v := ok_of_isOk (by decide +kernel)
  have receipts := maker_receipts (o := .sample 3 false) Venue.sample_initial
    (Venue.sample_run done) rfl
  exact ⟨v, receipts.1, receipts.2.1⟩

/-- Two fills of one token each at half a unit: the order is filled with two tokens, one
unit's worth, and its maker has received nothing. -/
theorem maker_receipts_short :
    ∃ v, Venue.Initial .sample ∧ (Order.sample 3 false).isBuy = false ∧
      Run (Venue.Step .sample) .sample [Venue.sampleMatch 1, Venue.sampleMatch 1] v ∧
      v.exchange.filled (ExchangeSite.sample.digest (.sample 3 false)) = 2 ∧
      takenFills (.sample 3 false) [Venue.sampleMatch 1, Venue.sampleMatch 1] = [] ∧
      v.tokens.usdc.balanceOf (Order.sample 3 false).maker = 0 ∧
      proceeds (.sample 3 false) [Venue.sampleMatch 1, Venue.sampleMatch 1] <
        v.exchange.filled (ExchangeSite.sample.digest (.sample 3 false)) *
          (Order.sample 3 false).price / priceScale := by
  obtain ⟨v, done⟩ : ∃ v, [Venue.sampleMatch 1, Venue.sampleMatch 1].foldlM
      (Venue.perform .sample) .sample = .ok v := ok_of_isOk (by decide +kernel)
  have values : ([Venue.sampleMatch 1, Venue.sampleMatch 1].foldlM
      (Venue.perform .sample) .sample).toOption.map (fun v =>
        (v.exchange.filled (Order.sample 3 false).code, v.tokens.usdc.balanceOf 3)) =
      some (2, 0) := by
    decide +kernel
  rw [done] at values
  obtain ⟨filled, balance⟩ := Prod.mk.inj (Option.some.inj values)
  refine ⟨v, Venue.sample_initial, rfl, Venue.sample_run done, filled, by decide, balance, ?_⟩
  have two : v.exchange.filled (ExchangeSite.sample.digest (.sample 3 false)) = 2 := filled
  rw [two]
  decide

end OverUnder.Contracts.Exchange
