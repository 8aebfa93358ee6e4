/-
Module: OverUnder.Proofs.PreflightMatches
Purpose: The relayer's preflight of a match and the exchange agree: a preflight without
  reasons is a match that goes through, and a match that goes through has no reasons unless
  an order is about to expire. What it reserves for a buy order covers every way to fill it.
Trusted boundary: none
Main exports: Funds, Settles, preflight_iff, match_succeeds, Crossing, Signed,
  preflight_agrees_with_match, fills_within_need
-/
import Mathlib
import OverUnder.Library.Reachable
import OverUnder.Library.Rounding
import OverUnder.Backend.Preflight
import OverUnder.Proofs.ExchangeFills
import OverUnder.Proofs.FullCollateral
import OverUnder.Proofs.MarketFrames

namespace OverUnder.Backend.Preflight

open OverUnder.Vyper
open OverUnder.Library
open OverUnder.Contracts
open OverUnder.Contracts.Exchange

variable {site : ExchangeSite} {v next : Venue} {taker maker o : Order}
variable {timestamp fill minExpiry need : Nat} {takerSig makerSig sig : Signature}

/-! ### What the preflight asks -/

/-- An order is current, live and has room for the fill. -/
structure Fillable (v : Venue) (hash : Nat) (o : Order) (fill : Nat) : Prop where
  nonce : v.exchange.nonces o.maker = o.nonce
  live : v.exchange.cancelled hash = false
  room : v.exchange.filled hash + fill ≤ o.amount

/-- The payer has the amount and lets the exchange take it; the seller has the tokens and lets
the exchange move them. -/
structure Funds (site : ExchangeSite) (v : Venue) (payer : Address) (need : Nat) (seller : Order)
    (fill : Nat) : Prop where
  balance : need ≤ v.tokens.usdc.balanceOf payer
  allowance : need ≤ v.tokens.usdc.allowance (payer, site.self)
  position : fill ≤ v.tokens.ctf.balanceOf
    (seller.maker, ConditionalTokens.pid site.ctf seller.conditionId seller.outcome)
  approved : v.tokens.ctf.isApprovedForAll (seller.maker, site.self) = true

theorem short_eq_nil {have' need : Nat} {hard soft : String} :
    short have' need 0 hard soft = [] ↔ need ≤ have' := by
  unfold short
  split
  · next lacks => simp only [List.cons_ne_nil, false_iff, Nat.not_le]; exact lacks
  · next covers => simp only [ne_eq, not_true, false_and, if_false, true_iff]; omega

/-- Nothing is committed. -/
def Idle (committed : Option Committed) : Prop := committed = none ∨ committed = some .empty

theorem orderState_eq_nil {committed : Option Committed} (idle : Idle committed) {role : String}
    {hash : Nat} :
    orderState v role o hash fill timestamp minExpiry committed = [] ↔
      timestamp + minExpiry < o.expiry ∧ Fillable v hash o fill := by
  have split : orderState v role o hash fill timestamp minExpiry committed = [] ↔
      ¬o.expiry ≤ timestamp + minExpiry ∧ ¬v.exchange.nonces o.maker ≠ o.nonce ∧
        ¬v.exchange.cancelled hash = true ∧ ¬v.exchange.filled hash + fill > o.amount := by
    unfold orderState
    rcases idle with rfl | rfl
    · simp only [List.append_eq_nil_iff, ite_eq_right_iff, List.cons_ne_nil, imp_false, and_assoc,
        ite_eq_right_iff]
    · by_cases exceeds : v.exchange.filled hash + fill > o.amount
      · simp only [exceeds, if_true, List.append_eq_nil_iff, List.cons_ne_nil, and_false,
          not_true]
      · simp only [Committed.empty, Nat.add_zero, exceeds, if_false, List.append_eq_nil_iff,
          ite_eq_right_iff, List.cons_ne_nil, imp_false, and_assoc, and_true, not_false_eq_true]
  rw [split, Nat.not_le, not_not, Bool.not_eq_true, Nat.not_lt]
  exact ⟨fun ⟨unexpired, nonce, live, room⟩ => ⟨unexpired, nonce, live, room⟩,
    fun ⟨unexpired, nonce, live, room⟩ => ⟨unexpired, nonce, live, room⟩⟩

theorem funds_eq_nil {committed : Option Committed} (idle : Idle committed) {payer : Address}
    {seller : Order} {role role' : String} :
    paysUsdc site v role payer need ((committed.getD .empty).usdc payer) ++
      deliversCtf site v role' seller fill (committed.getD .empty) = [] ↔
        Funds site v payer need seller fill := by
  have none : committed.getD .empty = .empty := by
    rcases idle with rfl | rfl <;> rfl
  rw [none]
  simp only [paysUsdc, deliversCtf, Committed.empty, List.append_eq_nil_iff, short_eq_nil,
    ite_eq_right_iff, List.cons_ne_nil, imp_false, Bool.not_eq_false]
  exact ⟨fun ⟨⟨balance, allowance⟩, position, approved⟩ => ⟨balance, allowance, position, approved⟩,
    fun ⟨balance, allowance, position, approved⟩ => ⟨⟨balance, allowance⟩, position, approved⟩⟩

/-- What the two parties must have: the taker pays the fee on top if it buys. -/
def Settles (site : ExchangeSite) (v : Venue) (taker maker : Order) (fill volume fee : Nat) :
    Prop :=
  if taker.isBuy then Funds site v taker.maker (volume + fee) maker fill
  else Funds site v maker.maker volume taker fill

theorem preflight_iff {committed : Option Committed} (idle : Idle committed) :
    preflightMatch site v taker maker (site.digest taker) (site.digest maker) fill timestamp
      minExpiry committed = [] ↔
      v.tokens.ctf.isResolved taker.conditionId = false ∧
        (timestamp + minExpiry < taker.expiry ∧ Fillable v (site.digest taker) taker fill) ∧
        (timestamp + minExpiry < maker.expiry ∧ Fillable v (site.digest maker) maker fill) ∧
        Settles site v taker maker fill (matchAmounts fill maker.price exchangeTakerFeeBps).1
          (matchAmounts fill maker.price exchangeTakerFeeBps).2 := by
  unfold preflightMatch Settles
  dsimp only
  split
  all_goals
    rw [List.append_assoc, List.append_eq_nil_iff, funds_eq_nil idle, List.append_eq_nil_iff,
      List.append_eq_nil_iff, orderState_eq_nil idle, orderState_eq_nil idle, ite_eq_right_iff]
    simp only [List.cons_ne_nil, imp_false, Bool.not_eq_true, and_assoc]

/-! ### What the exchange needs -/

section Payments

variable {tokens paid charged : Tokens} {payer recipient feeVault : Address} {first second : Nat}

/-- Paying a volume and then a fee takes their sum, which the payer must have and allow. -/
theorem pays_needs (apart : recipient ≠ payer) (small : first + second < wordSize)
    (volume : pay site tokens payer recipient first = .ok paid)
    (fee : payFee site paid payer feeVault second = .ok charged) :
    first + second ≤ tokens.usdc.balanceOf payer ∧
      first + second ≤ tokens.usdc.allowance (payer, site.self) := by
  simp only [pay, bind_ok, pure_ok] at volume
  rcases volume with ⟨usdc, moved, rfl⟩
  rcases MockUSDC.transferFrom_spec moved with ⟨move, -, -, drawn⟩
  have entry := move.entry payer
  rw [if_pos rfl, if_neg apart.symm] at entry
  have covered := move.covered
  have charge : second ≤ usdc.balanceOf payer ∧
      (usdc.allowance (payer, site.self) = MockUSDC.maxAllowance ∨
        second ≤ usdc.allowance (payer, site.self)) := by
    unfold payFee at fee
    split at fee
    · simp only [pay, bind_ok, pure_ok] at fee
      rcases fee with ⟨usdc', moved', rfl⟩
      exact ⟨(MockUSDC.transferFrom_spec moved').1.covered, MockUSDC.transferFrom_allowed moved'⟩
    · next none =>
      have zero : second = 0 := Nat.eq_zero_of_not_pos none
      rw [zero]
      exact ⟨Nat.zero_le _, .inr (Nat.zero_le _)⟩
  refine ⟨by omega, ?_⟩
  by_cases unlimited : tokens.usdc.allowance (payer, site.self) = MockUSDC.maxAllowance
  · rw [unlimited]
    exact Nat.le_sub_one_of_lt small
  · simp only [MockUSDC.spend, ne_eq, unlimited, not_false_eq_true, if_true, debit_ok] at drawn
    rcases drawn with ⟨enough, left⟩
    have remains : usdc.allowance (payer, site.self) =
        tokens.usdc.allowance (payer, site.self) - first := by
      rw [left, Function.update_self]
    have fits : second ≤ MockUSDC.maxAllowance :=
      Nat.le_sub_one_of_lt (Nat.lt_of_le_of_lt (Nat.le_add_left second first) small)
    rcases charge.2 with still | rest
    · rw [← still] at fits
      omega
    · omega

/-- What the payer has and allows is enough. -/
theorem pays_succeeds (feeVault : Address) (backed : tokens.usdc.Backed) (apart : recipient ≠ payer)
    (covered : first + second ≤ tokens.usdc.balanceOf payer)
    (allowed : first + second ≤ tokens.usdc.allowance (payer, site.self)) :
    ∃ paid charged, pay site tokens payer recipient first = .ok paid ∧
      payFee site paid payer feeVault second = .ok charged ∧ charged.ctf = tokens.ctf := by
  obtain ⟨usdc, moved⟩ : ∃ usdc, tokens.usdc.transferFrom site.self payer recipient first =
      .ok usdc :=
    MockUSDC.transferFrom_succeeds backed (.inr (Nat.le_trans (Nat.le_add_right _ _) allowed))
      (Nat.le_trans (Nat.le_add_right _ _) covered)
  have paid : pay site tokens payer recipient first = .ok { tokens with usdc } := by
    simp only [pay, bind_ok, pure_ok]
    exact ⟨usdc, moved, rfl⟩
  refine ⟨{ tokens with usdc }, ?_⟩
  by_cases charges : second > 0
  · rcases MockUSDC.transferFrom_spec moved with ⟨move, -, -, drawn⟩
    have entry := move.entry payer
    rw [if_pos rfl, if_neg apart.symm] at entry
    have left : usdc.allowance (payer, site.self) = MockUSDC.maxAllowance ∨
        second ≤ usdc.allowance (payer, site.self) := by
      by_cases unlimited : tokens.usdc.allowance (payer, site.self) = MockUSDC.maxAllowance
      · exact .inl (MockUSDC.transferFrom_keeps_unlimited unlimited moved)
      · simp only [MockUSDC.spend, ne_eq, unlimited, not_false_eq_true, if_true, debit_ok] at drawn
        rw [drawn.2, Function.update_self]
        exact .inr (by omega)
    have run : tokens.usdc.exec site.self (.transferFrom payer recipient first) = .ok usdc := moved
    obtain ⟨usdc', moved'⟩ : ∃ usdc', usdc.transferFrom site.self payer feeVault second =
        .ok usdc' :=
      MockUSDC.transferFrom_succeeds (MockUSDC.exec_backed backed run) left (by omega)
    refine ⟨{ tokens with usdc := usdc' }, paid, ?_, rfl⟩
    simp only [payFee, if_pos charges, pay, bind_ok, pure_ok]
    exact ⟨usdc', moved', rfl⟩
  · refine ⟨{ tokens with usdc }, paid, ?_, rfl⟩
    simp only [payFee, if_neg charges]
    rfl

end Payments

/-- The supply of an outcome of an unresolved condition fits in a word. -/
theorem supply_fits {tokens : Tokens} {c : Bytes32} {outcome : Nat}
    (inv : ConditionalTokens.Collateralised site.ctf tokens)
    (unresolved : tokens.ctf.isResolved c = false) (slot : outcome = 0 ∨ outcome = 1) :
    ConditionalTokens.supply site.ctf tokens.ctf c outcome < wordSize := by
  have none : tokens.ctf.payoutDenominator c = 0 := by
    simpa [ConditionalTokens.isResolved] using unresolved
  have owed : (ConditionalTokens.supply site.ctf tokens.ctf c 0 : ℚ) ≤
      tokens.usdc.balanceOf site.ctf.self := by
    rw [← ConditionalTokens.obligation_unresolved none]
    exact (ConditionalTokens.obligation_le_total site.ctf tokens.ctf c).trans inv.covered
  have held : ConditionalTokens.supply site.ctf tokens.ctf c 0 ≤
      tokens.usdc.balanceOf site.ctf.self := by exact_mod_cast owed
  have fits := held.trans_lt ((inv.backed.balance_le _).trans_lt inv.backed.fits)
  rcases slot with rfl | rfl
  · exact fits
  · rw [← inv.matched c none]
    exact fits

/-- What the seller has and approves is enough. -/
theorem deliver_succeeds {tokens : Tokens} {seller receiver : Address} {c : Bytes32}
    {outcome : Nat} (inv : ConditionalTokens.Collateralised site.ctf tokens)
    (unresolved : tokens.ctf.isResolved c = false) (slot : outcome = 0 ∨ outcome = 1)
    (apart : seller ≠ receiver) (named : receiver ≠ zeroAddress)
    (approved : tokens.ctf.isApprovedForAll (seller, site.self) = true)
    (covered : fill ≤ tokens.ctf.balanceOf
      (seller, ConditionalTokens.pid site.ctf c outcome)) {paid : Tokens}
    (same : paid.ctf = tokens.ctf) :
    ∃ after, deliver site paid seller receiver (ConditionalTokens.pid site.ctf c outcome) fill =
      .ok after := by
  have both := add_le_columnTotal tokens.ctf.balanceOf
    (ConditionalTokens.pid site.ctf c outcome) apart
  have fits : ConditionalTokens.supply site.ctf tokens.ctf c outcome < wordSize :=
    supply_fits inv unresolved slot
  have elsewhere : (receiver, ConditionalTokens.pid site.ctf c outcome) ≠
      (seller, ConditionalTokens.pid site.ctf c outcome) :=
    fun pair => apart (congrArg Prod.fst pair).symm
  simp only [deliver, ConditionalTokens.safeTransferFrom, bind_ok, require_ok, debit_ok, credit_ok,
    pure_ok, exists_const, same]
  refine ⟨_, _, ⟨named, .inr approved, _, ⟨covered, rfl⟩, _, ⟨?_, rfl⟩, rfl⟩, rfl⟩
  rw [Function.update_of_ne elsewhere]
  refine lt_of_le_of_lt ?_ fits
  unfold ConditionalTokens.supply
  omega

/-- The exchange settles a match between parties that have what they need. -/
theorem settle_succeeds (feeVault : Address) {volume fee : Nat}
    (inv : ConditionalTokens.Collateralised site.ctf v.tokens)
    (unresolved : v.tokens.ctf.isResolved taker.conditionId = false)
    (sameCondition : taker.conditionId = maker.conditionId)
    (sameOutcome : taker.outcome = maker.outcome) (slot : taker.outcome = 0 ∨ taker.outcome = 1)
    (apart : taker.maker ≠ maker.maker) (takerNamed : taker.maker ≠ zeroAddress)
    (makerNamed : maker.maker ≠ zeroAddress) (part : fee ≤ volume)
    (funds : Settles site v taker maker fill volume fee) :
    ∃ after, settle site v.tokens feeVault taker maker fill volume fee = .ok after := by
  unfold Settles at funds
  unfold settle
  split at funds
  · next buys =>
    rw [if_pos buys]
    obtain ⟨paid, charged, volumePaid, feePaid, same⟩ := pays_succeeds feeVault inv.backed
      apart.symm funds.balance funds.allowance
    have position := funds.position
    rw [← sameCondition, ← sameOutcome] at position
    obtain ⟨after, delivered⟩ := deliver_succeeds inv unresolved slot apart.symm takerNamed
      funds.approved position same
    simp only [bind_ok]
    exact ⟨after, paid, volumePaid, charged, feePaid, delivered⟩
  · next sells =>
    rw [if_neg sells]
    have net : volume - fee + fee = volume := Nat.sub_add_cancel part
    obtain ⟨paid, charged, volumePaid, feePaid, same⟩ := pays_succeeds feeVault inv.backed
      apart (net.trans_le funds.balance) (net.trans_le funds.allowance)
    obtain ⟨after, delivered⟩ := deliver_succeeds inv unresolved slot apart makerNamed
      funds.approved funds.position same
    simp only [bind_ok, usub_ok]
    exact ⟨after, volume - fee, ⟨part, rfl⟩, paid, volumePaid, charged, feePaid, delivered⟩

/-! ### Preflight and match -/

/-- The signature is the maker's, who holds a key: it is no contract. -/
structure Signed (site : ExchangeSite) (o : Order) (sig : Signature) : Prop where
  recovers : recoverSigner site.ecrecover (site.digest o) sig = .ok o.maker
  named : o.maker ≠ zeroAddress
  external : o.maker ≠ site.self

/-- Two orders of different makers that `_crosses` matches. -/
structure Crossing (taker maker : Order) : Prop where
  condition : taker.conditionId = maker.conditionId
  outcome : taker.outcome = maker.outcome
  opposite : taker.isBuy ≠ maker.isBuy
  price : if taker.isBuy then taker.price ≥ maker.price else maker.price ≥ taker.price
  apart : taker.maker ≠ maker.maker

theorem validate_succeeds (stored : Stored o) (signed : Signed site o sig)
    (unexpired : timestamp ≤ o.expiry) (fillable : Fillable v (site.digest o) o fill) :
    validate site v.exchange timestamp o sig = .ok (site.digest o) := by
  have slot : o.outcome < 2 := by
    rcases stored.outcome with none | one
    · omega
    · omega
  simp only [validate, bind_ok, require_ok, pure_ok, exists_const]
  exact ⟨signed.named, slot, ⟨stored.amount.1, stored.price.1⟩, unexpired, fillable.nonce.symm,
    fillable.live, o.maker, signed.recovers, rfl, trivial⟩

theorem volume_le (fill : Nat) {price : Nat} (stored : price ≤ priceScale) :
    fill * price / priceScale ≤ fill := by
  refine Nat.div_le_of_le_mul ?_
  rw [Nat.mul_comm]
  exact Nat.mul_le_mul_right fill stored

/-- Stored orders are too small for the products of a match to overflow. -/
theorem amounts_succeed (stored : Stored maker) (room : fill ≤ maker.amount) :
    matchVolume fill maker.price = .ok (matchAmounts fill maker.price exchangeTakerFeeBps).1 ∧
      matchFee (matchAmounts fill maker.price exchangeTakerFeeBps).1 =
        .ok (matchAmounts fill maker.price exchangeTakerFeeBps).2 ∧
      (matchAmounts fill maker.price exchangeTakerFeeBps).2 ≤
        (matchAmounts fill maker.price exchangeTakerFeeBps).1 := by
  have small : fill < 2 ^ 63 := room.trans_lt stored.amount.2
  have volume := volume_le fill stored.price.2
  have scaled : fill * maker.price < wordSize :=
    (Nat.mul_le_mul small.le stored.price.2).trans_lt (by decide)
  have charged : fill * maker.price / priceScale * takerFeeBps < wordSize :=
    (Nat.mul_le_mul_right _ (volume.trans small.le)).trans_lt (by decide)
  refine ⟨?_, ?_, ?_⟩
  · unfold matchVolume
    rw [bind_ok]
    exact ⟨_, umul_ok.mpr ⟨scaled, rfl⟩, udiv_ok.mpr ⟨by decide, rfl⟩⟩
  · unfold matchFee
    rw [bind_ok]
    exact ⟨_, umul_ok.mpr ⟨charged, rfl⟩, udiv_ok.mpr ⟨by decide, rfl⟩⟩
  · refine Nat.div_le_of_le_mul ?_
    rw [Nat.mul_comm]
    exact Nat.mul_le_mul_right _ (by decide)

/-- What the exchange checks of a match, as it checks it. -/
theorem match_succeeds (inv : ConditionalTokens.Collateralised site.ctf v.tokens)
    (takerStored : Stored taker) (makerStored : Stored maker)
    (takerSigned : Signed site taker takerSig) (makerSigned : Signed site maker makerSig)
    (crossing : Crossing taker maker) (positive : 0 < fill)
    (unresolved : v.tokens.ctf.isResolved taker.conditionId = false)
    (takerUnexpired : timestamp ≤ taker.expiry) (makerUnexpired : timestamp ≤ maker.expiry)
    (takerFills : Fillable v (site.digest taker) taker fill)
    (makerFills : Fillable v (site.digest maker) maker fill)
    (settles : Settles site v taker maker fill
      (matchAmounts fill maker.price exchangeTakerFeeBps).1
      (matchAmounts fill maker.price exchangeTakerFeeBps).2) :
    ∃ next, matchOrders site v timestamp taker maker fill takerSig makerSig = .ok next := by
  have room : fill ≤ maker.amount := (Nat.le_add_left _ _).trans makerFills.room
  rcases amounts_succeed makerStored room with ⟨volume, fee, part⟩
  obtain ⟨tokens, settled⟩ := settle_succeeds v.exchange.feeVault inv unresolved
    crossing.condition crossing.outcome takerStored.outcome crossing.apart takerSigned.named
    makerSigned.named part settles
  have wide : ∀ {o : Order} {filled : Nat}, Stored o → filled ≤ o.amount → filled < wordSize :=
    fun stored le => (le.trans_lt stored.amount.2).trans (by decide)
  have takerWide := wide takerStored takerFills.room
  have makerWide := wide makerStored makerFills.room
  have apart : site.digest maker ≠ site.digest taker :=
    (digest_ne_of_opposite crossing.opposite).symm
  simp only [matchOrders, bind_ok, require_ok, uadd_ok, credit_ok, pure_ok, exists_const]
  refine ⟨_, positive, by simp [unresolved], crossing.condition, crossing.outcome,
    crossing.opposite, crossing.price, _,
    validate_succeeds takerStored takerSigned takerUnexpired takerFills, _,
    validate_succeeds makerStored makerSigned makerUnexpired makerFills, _, ⟨takerWide, rfl⟩,
    takerFills.room, _, ⟨makerWide, rfl⟩, makerFills.room, _, ⟨takerWide, rfl⟩, _, ⟨?_, rfl⟩, _,
    volume, _, fee, tokens, settled, rfl⟩
  rw [Function.update_of_ne apart]
  exact makerWide

/-- A match that settled found what it takes. -/
theorem settles_of_settle {tokens : Tokens} {feeVault : Address} {volume fee : Nat}
    (crossing : Crossing taker maker) (takerSigned : Signed site taker takerSig)
    (makerSigned : Signed site maker makerSig) (small : volume + fee < wordSize)
    (done : settle site v.tokens feeVault taker maker fill volume fee = .ok tokens) :
    Settles site v taker maker fill volume fee := by
  have delivers : ∀ {paid after : Tokens} {seller receiver : Order}, paid.ctf = v.tokens.ctf →
      seller.maker ≠ site.self →
      deliver site paid seller.maker receiver.maker
        (ConditionalTokens.pid site.ctf seller.conditionId seller.outcome) fill = .ok after →
      fill ≤ v.tokens.ctf.balanceOf (seller.maker,
        ConditionalTokens.pid site.ctf seller.conditionId seller.outcome) ∧
      v.tokens.ctf.isApprovedForAll (seller.maker, site.self) = true := by
    intro paid after seller receiver same external done
    simp only [deliver, ConditionalTokens.safeTransferFrom, bind_ok, require_ok, debit_ok,
      credit_ok, pure_ok, exists_const] at done
    rcases done with ⟨_, ⟨-, approved, _, ⟨covered, -⟩, -⟩, -⟩
    rw [same] at approved covered
    exact ⟨covered, approved.resolve_left fun own => external own.symm⟩
  have paid_ctf : ∀ {t t' : Tokens} {payer recipient : Address} {amount : Nat},
      pay site t payer recipient amount = .ok t' → t'.ctf = t.ctf := by
    intro t t' payer recipient amount done
    simp only [pay, bind_ok, pure_ok] at done
    rcases done with ⟨usdc, -, rfl⟩
    rfl
  have fee_ctf : ∀ {t t' : Tokens} {payer vault : Address} {amount : Nat},
      payFee site t payer vault amount = .ok t' → t'.ctf = t.ctf := by
    intro t t' payer vault amount done
    unfold payFee at done
    split at done
    · exact paid_ctf done
    · rw [pure_ok] at done
      rw [done]
  unfold settle at done
  unfold Settles
  split at done
  · next buys =>
    rw [if_pos buys]
    simp only [bind_ok] at done
    rcases done with ⟨paid, volumePaid, charged, feePaid, delivered⟩
    rcases pays_needs crossing.apart.symm small volumePaid feePaid with ⟨balance, allowance⟩
    rw [crossing.condition, crossing.outcome] at delivered
    rcases delivers ((fee_ctf feePaid).trans (paid_ctf volumePaid)) makerSigned.external delivered
      with ⟨position, approved⟩
    exact ⟨balance, allowance, position, approved⟩
  · next sells =>
    rw [if_neg sells]
    simp only [bind_ok, usub_ok] at done
    rcases done with ⟨_, ⟨part, rfl⟩, paid, volumePaid, charged, feePaid, delivered⟩
    have net : volume - fee + fee = volume := Nat.sub_add_cancel part
    rcases pays_needs crossing.apart (net.trans_lt ((Nat.le_add_right _ _).trans_lt small))
      volumePaid feePaid with ⟨balance, allowance⟩
    rw [net] at balance allowance
    rcases delivers ((fee_ctf feePaid).trans (paid_ctf volumePaid)) takerSigned.external delivered
      with ⟨position, approved⟩
    exact ⟨balance, allowance, position, approved⟩

/-- On stored crossing orders signed by different makers, in any state of the exchange over
tokens that anybody used in any way: without reasons the match goes through, and if it goes
through there are no reasons unless an order is about to expire. -/
theorem preflight_agrees_with_match {committed : Option Committed} (idle : Idle committed)
    (reached : Reachable (Tokens.Initial site.ctf) (Tokens.Step site.ctf) v.tokens)
    (takerStored : Stored taker) (makerStored : Stored maker)
    (takerSigned : Signed site taker takerSig) (makerSigned : Signed site maker makerSig)
    (crossing : Crossing taker maker) (positive : 0 < fill) :
    (preflightMatch site v taker maker (site.digest taker) (site.digest maker) fill timestamp
        minExpiry committed = [] →
      ∃ next, matchOrders site v timestamp taker maker fill takerSig makerSig = .ok next) ∧
    ((∃ next, matchOrders site v timestamp taker maker fill takerSig makerSig = .ok next) →
      timestamp + minExpiry < taker.expiry → timestamp + minExpiry < maker.expiry →
      preflightMatch site v taker maker (site.digest taker) (site.digest maker) fill timestamp
        minExpiry committed = []) := by
  rw [preflight_iff idle]
  constructor
  · rintro ⟨unresolved, ⟨takerLasts, takerFills⟩, ⟨makerLasts, makerFills⟩, settles⟩
    exact match_succeeds (ConditionalTokens.reachable_collateralised reached) takerStored
      makerStored takerSigned makerSigned crossing positive unresolved
      ((Nat.le_add_right _ _).trans takerLasts.le) ((Nat.le_add_right _ _).trans makerLasts.le)
      takerFills makerFills settles
  · rintro ⟨next, done⟩ takerLasts makerLasts
    rcases matchOrders_spec done with ⟨-, unresolved, -, -, -, takerAdmitted, makerAdmitted,
      takerRoom, makerRoom, -, -, volume, fee, rfl, rfl, settled⟩
    have room : fill ≤ maker.amount := (Nat.le_add_left _ _).trans makerRoom
    rcases amounts_succeed makerStored room with ⟨-, -, part⟩
    have small : (matchAmounts fill maker.price exchangeTakerFeeBps).1 +
        (matchAmounts fill maker.price exchangeTakerFeeBps).2 < wordSize := by
      have volume : (matchAmounts fill maker.price exchangeTakerFeeBps).1 ≤ 2 ^ 63 :=
        (volume_le fill makerStored.price.2).trans (room.trans makerStored.amount.2.le)
      exact (Nat.add_le_add volume (part.trans volume)).trans_lt (by decide)
    exact ⟨unresolved, ⟨takerLasts, takerAdmitted.current.symm, takerAdmitted.live, takerRoom⟩,
      ⟨makerLasts, makerAdmitted.current.symm, makerAdmitted.live, makerRoom⟩,
      settles_of_settle crossing takerSigned makerSigned small settled⟩

/-! ### A sample preflight -/

/-- Account 2 gets and approves collateral, account 3 splits ten units and approves. -/
def sampleCalls : List (Address × Tokens.Tx) :=
  [(2, .usdc (.faucet 1000000)), (2, .usdc (.approve 8 1000)), (3, .usdc (.faucet 10)),
    (3, .usdc (.approve 9 10)), (3, .ctf (.prepareCondition 11 7)),
    (3, .ctf (.splitPosition 7 10)), (3, .ctf (.setApprovalForAll 8 true))]

def sampleTokens : Call Tokens :=
  sampleCalls.foldlM (fun w call => Tokens.exec ExchangeSite.sample.ctf w call.1 call.2)
    ⟨.deployed, .deployed⟩

/-- The theorem on the purchase of two YES. -/
theorem preflight_agrees_with_sample_match : ∃ v next : Venue,
    matchOrders .sample v 5 (.sample 2 true) (.sample 3 false) 2 (.sample 2) (.sample 3) =
      .ok next := by
  obtain ⟨tokens, done⟩ := ok_of_isOk (x := sampleTokens) (by decide +kernel)
  have reasons : sampleTokens.toOption.map (fun tokens =>
      preflightMatch .sample ⟨tokens, .deployed 4 5⟩ (.sample 2 true) (.sample 3 false)
        (ExchangeSite.sample.digest (.sample 2 true)) (ExchangeSite.sample.digest (.sample 3 false))
        2 5 60 none) = some [] := by
    decide +kernel
  rw [done] at reasons
  have stored : ∀ maker isBuy, Stored (.sample maker isBuy) := fun maker isBuy =>
    ⟨.inl rfl, (by decide : 0 < 500000 ∧ 500000 ≤ 1000000), (by decide : 0 < 2 ∧ 2 < 2 ^ 63),
      (by decide : 0 < 2 ^ 63), (by decide : 0 < 100 ∧ 100 < 2 ^ 63)⟩
  have buys : Signed .sample (.sample 2 true) (.sample 2) :=
    ⟨by decide +kernel, by decide, by decide⟩
  have sells : Signed .sample (.sample 3 false) (.sample 3) :=
    ⟨by decide +kernel, by decide, by decide⟩
  have steps : ∀ (w : Tokens) (call : Address × Tokens.Tx) (next : Tokens),
      call.1 ≠ ExchangeSite.sample.ctf.self →
      Tokens.exec ExchangeSite.sample.ctf w call.1 call.2 = .ok next →
      Tokens.Step ExchangeSite.sample.ctf w next :=
    fun _ call _ outsider done => ⟨call.1, call.2, outsider, done⟩
  have reached : Reachable (Tokens.Initial ExchangeSite.sample.ctf)
      (Tokens.Step ExchangeSite.sample.ctf) tokens :=
    Reachable.execute steps (by decide)
      (.start ⟨rfl, MockUSDC.deployed_backed, fun _ => rfl⟩) done
  exact ⟨⟨tokens, .deployed 4 5⟩, (preflight_agrees_with_match (.inl rfl) reached
    (stored 2 true) (stored 3 false) buys sells ⟨rfl, rfl, by decide, by decide, by decide⟩
    (by decide)).1 (Option.some.inj reasons)⟩

/-! ### What a buy order may spend -/

/-- The volumes of fills within a limit price, each rounded down, stay within the volume of
the order. -/
theorem volumes_le {remaining price : Nat} (fills : List (Nat × Nat))
    (limited : ∀ f ∈ fills, f.2 ≤ price) (room : (fills.map Prod.fst).sum ≤ remaining) :
    (fills.map fun f => f.1 * f.2 / priceScale).sum ≤ (remaining * price) ⌈/⌉ priceScale := by
  have spent : (fills.map fun f => f.1 * f.2).sum ≤ remaining * price := by
    calc (fills.map fun f => f.1 * f.2).sum ≤ (fills.map fun f => f.1 * price).sum :=
          List.sum_le_sum fun f filled => Nat.mul_le_mul_left _ (limited f filled)
      _ = (fills.map Prod.fst).sum * price := by
          rw [← List.sum_map_mul_right]
      _ ≤ remaining * price := Nat.mul_le_mul_right _ room
  calc (fills.map fun f => f.1 * f.2 / priceScale).sum
      = ((fills.map fun f => f.1 * f.2).map (· / priceScale)).sum := by rw [List.map_map]; rfl
    _ ≤ (fills.map fun f => f.1 * f.2).sum / priceScale := sum_map_div_le _ _
    _ ≤ remaining * price / priceScale := Nat.div_le_div_right spent
    _ ≤ _ := div_le_ceilDiv _ (by decide)

/-- The fees of volumes, each rounded down, stay within the fee of any bound on their sum. -/
theorem fees_le {volume feeBps : Nat} (volumes : List Nat) (bounded : volumes.sum ≤ volume) :
    (volumes.map fun v => v * feeBps / bps).sum ≤ (volume * feeBps) ⌈/⌉ bps := by
  calc (volumes.map fun v => v * feeBps / bps).sum
      = ((volumes.map (· * feeBps)).map (· / bps)).sum := by rw [List.map_map]; rfl
    _ ≤ (volumes.map (· * feeBps)).sum / bps := sum_map_div_le _ _
    _ = volumes.sum * feeBps / bps := by rw [List.sum_map_mul_right, List.map_id']
    _ ≤ volume * feeBps / bps := Nat.div_le_div_right (Nat.mul_le_mul_right _ bounded)
    _ ≤ _ := div_le_ceilDiv _ (by decide)

/-- Whatever fills a buy order gets, at whatever prices up to its limit, their volumes and
fees stay within the USDC reserved for it. -/
theorem fills_within_need (remaining price : Nat) (fills : List (Nat × Nat))
    (filled : ∀ f ∈ fills, 0 < f.1 ∧ f.2 ≤ price)
    (room : (fills.map Prod.fst).sum ≤ remaining) :
    (fills.map fun f => (matchAmounts f.1 f.2 exchangeTakerFeeBps).1 +
      (matchAmounts f.1 f.2 exchangeTakerFeeBps).2).sum ≤
      orderUsdcNeed remaining price exchangeTakerFeeBps := by
  have volumes := volumes_le fills (fun f here => (filled f here).2) room
  have fees := @fees_le _ exchangeTakerFeeBps _ volumes
  rw [List.map_map] at fees
  rw [List.sum_map_add]
  exact Nat.add_le_add volumes fees

/-- The theorem on an order of 10 at 0.5 filled 3 at 0.4 and 7 at 0.5. -/
theorem two_fills_within_need :
    ([(3, 400000), (7, 500000)].map fun f => (matchAmounts f.1 f.2 exchangeTakerFeeBps).1 +
      (matchAmounts f.1 f.2 exchangeTakerFeeBps).2).sum ≤
      orderUsdcNeed 10 500000 exchangeTakerFeeBps :=
  fills_within_need 10 500000 _ (by decide) (by decide)

end OverUnder.Backend.Preflight
