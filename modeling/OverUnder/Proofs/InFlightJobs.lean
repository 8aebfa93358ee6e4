/-
Module: OverUnder.Proofs.InFlightJobs
Purpose: The relayer's jobs in flight do not spend each other's funds: a job that passes the
  preflight, with what the others will still take counted in, can be mined with them in any
  order, while nobody takes away what they need.
Trusted boundary: none
Main exports: Job.Sound, Job.spends, Job.delivers, Job.fills, committedOf_usdc, committedOf_ctf,
  committedOf_filled, preflight_spec, mine_spec, Reserve, Reserve.step, in_flight_jobs_mine
-/
import OverUnder.Backend.InFlight
import OverUnder.Library.Reservations
import OverUnder.Proofs.PreflightMatches

namespace OverUnder.Backend.Preflight

open OverUnder.Vyper
open OverUnder.Library
open OverUnder.Library.Reservations
open OverUnder.Contracts
open OverUnder.Contracts.Exchange

variable {site : ExchangeSite} {v next : Venue} {j : Job} {rows : List Job} {r t : Relay}
variable {timestamp minExpiry : Nat}

/-! ### What a job takes -/

namespace Job

/-- A match of stored crossing orders, both signed. -/
structure Sound (site : ExchangeSite) (j : Job) : Prop where
  takerStored : Stored j.taker
  makerStored : Stored j.maker
  takerSigned : Signed site j.taker j.takerSig
  makerSigned : Signed site j.maker j.makerSig
  crossing : Crossing j.taker j.maker
  positive : 0 < j.fill

def buyer (j : Job) : Order := Exchange.buyer j.taker j.maker

def seller (j : Job) : Order := if j.taker.isBuy then j.maker else j.taker

def volume (j : Job) : Nat := (matchAmounts j.fill j.maker.price exchangeTakerFeeBps).1

def fee (j : Job) : Nat := (matchAmounts j.fill j.maker.price exchangeTakerFeeBps).2

/-- What the buyer pays. -/
def spend (j : Job) : Nat := if j.taker.isBuy then j.volume + j.fee else j.volume

/-- The USDC that a job takes of an account. -/
def spends (j : Job) (a : Address) : Nat := if a = j.buyer.maker then j.spend else 0

/-- The outcome tokens that a job takes, by owner and id. -/
def delivers (site : ExchangeSite) (j : Job) (k : Address × Nat) : Nat :=
  if k = (j.seller.maker, ConditionalTokens.pid site.ctf j.seller.conditionId j.seller.outcome) then
    j.fill
  else 0

/-- What a job fills of an order. -/
def fills (j : Job) (o : Order) : Nat :=
  (if j.taker = o then j.fill else 0) + if j.maker = o then j.fill else 0

end Job

/-! ### What is committed -/

theorem addMatch_eq (c : Committed) (j : Job) (takerHash makerHash : Nat) :
    c.addMatch j.taker j.maker takerHash makerHash j.fill =
      { usdc := Function.update c.usdc j.buyer.maker (c.usdc j.buyer.maker + j.spend)
        ctf := Function.update c.ctf (j.seller.maker, j.seller.conditionId, j.seller.outcome)
          (c.ctf (j.seller.maker, j.seller.conditionId, j.seller.outcome) + j.fill)
        filled := Function.update (Function.update c.filled takerHash (c.filled takerHash + j.fill))
          makerHash (Function.update c.filled takerHash (c.filled takerHash + j.fill) makerHash +
            j.fill) } := by
  unfold Committed.addMatch Job.buyer Job.seller Job.spend Job.volume Job.fee Exchange.buyer
  cases buys : j.taker.isBuy with
  | true => rfl
  | false => rfl

/-- Folding one more job into what is committed. -/
theorem committed_fold (site : ExchangeSite) (c : Committed) (rows : List Job) :
    let total := rows.foldl (fun c j =>
      c.addMatch j.taker j.maker (site.digest j.taker) (site.digest j.maker) j.fill) c
    (∀ a, total.usdc a = c.usdc a + claimed Job.spends rows a) ∧
    (∀ a cid outcome, total.ctf (a, cid, outcome) = c.ctf (a, cid, outcome) +
      claimed (Job.delivers site) rows (a, ConditionalTokens.pid site.ctf cid outcome)) ∧
    (∀ o, total.filled (site.digest o) = c.filled (site.digest o) + claimed Job.fills rows o) := by
  induction rows generalizing c with
  | nil => simp
  | cons j rows ih =>
      rcases ih (c.addMatch j.taker j.maker (site.digest j.taker) (site.digest j.maker) j.fill) with
        ⟨usdc, ctf, filled⟩
      simp only [List.foldl_cons]
      refine ⟨fun a => ?_, fun a cid outcome => ?_, fun o => ?_⟩
      · rw [usdc, claimed_cons, addMatch_eq]
        by_cases same : a = j.buyer.maker
        · subst same
          simp only [Function.update_self, Job.spends, if_true]
          omega
        · simp only [Function.update_of_ne same, Job.spends, if_neg same]
          omega
      · rw [ctf, claimed_cons, addMatch_eq]
        by_cases same : (a, cid, outcome) = (j.seller.maker, j.seller.conditionId, j.seller.outcome)
        · cases same
          simp only [Function.update_self, Job.delivers, if_true]
          omega
        · have apart : (a, ConditionalTokens.pid site.ctf cid outcome) ≠ (j.seller.maker,
              ConditionalTokens.pid site.ctf j.seller.conditionId j.seller.outcome) := by
            intro pair
            have owner := congrArg Prod.fst pair
            obtain ⟨condition, slot⟩ :=
              site.ctf.hashes.positionId_injective (congrArg Prod.snd pair)
            simp only at owner
            exact same (by rw [owner, condition, slot])
          simp only [Function.update_of_ne same, Job.delivers, if_neg apart]
          omega
      · rw [filled, claimed_cons, addMatch_eq]
        have posts : ∀ (f : Nat → Nat) (o' : Order), Function.update f (site.digest o')
            (f (site.digest o') + j.fill) (site.digest o) =
              f (site.digest o) + if o' = o then j.fill else 0 := by
          intro f o'
          by_cases same : o' = o
          · rw [same, Function.update_self, if_pos rfl]
          · rw [Function.update_of_ne fun digests => same (site.digest_injective digests.symm),
              if_neg same, Nat.add_zero]
        simp only [posts, Job.fills]
        omega

/-- What is committed is what the jobs ask for. -/
theorem committedOf_eq (site : ExchangeSite) (rows : List Job) :
    (∀ a, (committedOf site rows).usdc a = claimed Job.spends rows a) ∧
    (∀ a cid outcome, (committedOf site rows).ctf (a, cid, outcome) =
      claimed (Job.delivers site) rows (a, ConditionalTokens.pid site.ctf cid outcome)) ∧
    (∀ o, (committedOf site rows).filled (site.digest o) = claimed Job.fills rows o) := by
  have folded := committed_fold site .empty rows
  simpa [Committed.empty, committedOf] using folded

/-! ### What the preflight asks beside the others -/

theorem short_busy_eq_nil {have' need busy : Nat} {hard soft : String} :
    short have' need busy hard soft = [] ↔ need + busy ≤ have' := by
  unfold short
  split
  · next lacks =>
    simp only [List.cons_ne_nil, false_iff]
    omega
  · next covers =>
    split
    · next busy =>
      simp only [List.cons_ne_nil, false_iff]
      omega
    · next spare =>
      simp only [true_iff]
      omega

theorem orderState_some {role : String} {o : Order} {hash fill : Nat} {c : Committed}
    (none : orderState v role o hash fill timestamp minExpiry (some c) = []) :
    timestamp + minExpiry < o.expiry ∧ v.exchange.nonces o.maker = o.nonce ∧
      v.exchange.cancelled hash = false ∧
      v.exchange.filled hash + c.filled hash + fill ≤ o.amount := by
  simp only [orderState, List.append_eq_nil_iff, ite_eq_right_iff, List.cons_ne_nil, imp_false,
    and_assoc, not_not, Bool.not_eq_true, Nat.not_le] at none
  rcases none with ⟨lasts, nonce, live, room⟩
  split at room
  · cases room
  · split at room
    · cases room
    · next fits => exact ⟨lasts, nonce, live, Nat.not_lt.mp fits⟩

/-- Everything that a job without reasons finds. -/
structure Passed (site : ExchangeSite) (v : Venue) (rows : List Job) (j : Job) : Prop where
  unresolved : v.tokens.ctf.isResolved j.taker.conditionId = false
  nonce : v.exchange.nonces j.taker.maker = j.taker.nonce ∧
    v.exchange.nonces j.maker.maker = j.maker.nonce
  live : v.exchange.cancelled (site.digest j.taker) = false ∧
    v.exchange.cancelled (site.digest j.maker) = false
  room : v.exchange.filled (site.digest j.taker) + claimed Job.fills rows j.taker + j.fill ≤
      j.taker.amount ∧
    v.exchange.filled (site.digest j.maker) + claimed Job.fills rows j.maker + j.fill ≤
      j.maker.amount
  balance : j.spend + claimed Job.spends rows j.buyer.maker ≤
    v.tokens.usdc.balanceOf j.buyer.maker
  allowance : j.spend + claimed Job.spends rows j.buyer.maker ≤
    v.tokens.usdc.allowance (j.buyer.maker, site.self)
  position : j.fill + claimed (Job.delivers site) rows
      (j.seller.maker, ConditionalTokens.pid site.ctf j.seller.conditionId j.seller.outcome) ≤
    v.tokens.ctf.balanceOf
      (j.seller.maker, ConditionalTokens.pid site.ctf j.seller.conditionId j.seller.outcome)
  approved : v.tokens.ctf.isApprovedForAll (j.seller.maker, site.self) = true

theorem preflight_spec (none : j.preflight site v rows timestamp minExpiry = []) :
    Passed site v rows j := by
  have committed := committedOf_eq site rows
  unfold Job.preflight preflightMatch at none
  simp only [Option.getD_some] at none
  have states : (if v.tokens.ctf.isResolved j.taker.conditionId then ["market resolved"] else []) =
      [] ∧
      orderState v "taker" j.taker (site.digest j.taker) j.fill timestamp minExpiry
        (some (committedOf site rows)) = [] ∧
      orderState v "maker" j.maker (site.digest j.maker) j.fill timestamp minExpiry
        (some (committedOf site rows)) = [] ∧
      j.spend + claimed Job.spends rows j.buyer.maker ≤ v.tokens.usdc.balanceOf j.buyer.maker ∧
      j.spend + claimed Job.spends rows j.buyer.maker ≤
        v.tokens.usdc.allowance (j.buyer.maker, site.self) ∧
      j.fill + claimed (Job.delivers site) rows
          (j.seller.maker, ConditionalTokens.pid site.ctf j.seller.conditionId j.seller.outcome) ≤
        v.tokens.ctf.balanceOf
          (j.seller.maker, ConditionalTokens.pid site.ctf j.seller.conditionId j.seller.outcome) ∧
      v.tokens.ctf.isApprovedForAll (j.seller.maker, site.self) = true := by
    rw [← committed.1, ← committed.2.1]
    unfold Job.spend Job.buyer Job.seller Exchange.buyer
    split at none
    all_goals
      next buys =>
      simp only [paysUsdc, deliversCtf, List.append_eq_nil_iff, short_busy_eq_nil,
        ite_eq_right_iff, List.cons_ne_nil, imp_false, Bool.not_eq_false] at none
      simp only [buys, if_true, if_false, Bool.false_eq_true, ite_eq_right_iff, List.cons_ne_nil,
        imp_false]
      rcases none with ⟨⟨⟨⟨resolved, taker⟩, maker⟩, balance, allowance⟩, position, approved⟩
      exact ⟨resolved, taker, maker, balance, allowance, position, approved⟩
  rcases states with ⟨resolved, taker, maker, balance, allowance, position, approved⟩
  rcases orderState_some taker with ⟨-, takerNonce, takerLive, takerRoom⟩
  rcases orderState_some maker with ⟨-, makerNonce, makerLive, makerRoom⟩
  rw [committed.2.2] at takerRoom makerRoom
  simp only [ite_eq_right_iff, List.cons_ne_nil, imp_false, Bool.not_eq_true] at resolved
  exact ⟨resolved, ⟨takerNonce, makerNonce⟩, ⟨takerLive, makerLive⟩, ⟨takerRoom, makerRoom⟩,
    balance, allowance, position, approved⟩

/-! ### What a mined match takes -/

section Payments

variable {tokens after : Tokens} {payer recipient feeVault : Address} {amount : Nat}

theorem spend_takes {token : MockUSDC} {owner spender : Address}
    {allowance : Address × Address → Nat} (done : token.spend owner spender amount = .ok allowance)
    (pair : Address × Address) :
    token.allowance pair ≤ allowance pair + if pair.1 = owner then amount else 0 := by
  unfold MockUSDC.spend at done
  split at done
  · rcases debit_ok.mp done with ⟨covered, rfl⟩
    by_cases same : pair = (owner, spender)
    · subst same
      simp only [Function.update_self, if_true]
      omega
    · rw [Function.update_of_ne same]
      exact Nat.le_add_right _ _
  · cases pure_ok.mp done
    exact Nat.le_add_right _ _

/-- A payment takes its amount of the payer's balance and allowance, and of nobody else's. -/
structure Takes (tokens after : Tokens) (payer : Address) (amount : Nat) : Prop where
  ctf : after.ctf = tokens.ctf
  balance : ∀ a, tokens.usdc.balanceOf a ≤
    after.usdc.balanceOf a + if a = payer then amount else 0
  allowance : ∀ pair, tokens.usdc.allowance pair ≤
    after.usdc.allowance pair + if pair.1 = payer then amount else 0

theorem pay_takes (done : pay site tokens payer recipient amount = .ok after) :
    Takes tokens after payer amount := by
  simp only [pay, bind_ok, pure_ok] at done
  rcases done with ⟨usdc, moved, rfl⟩
  rcases MockUSDC.transferFrom_spec moved with ⟨move, -, -, drawn⟩
  refine ⟨rfl, fun a => ?_, spend_takes drawn⟩
  have entry := move.entry a
  simp only
  omega

theorem payFee_takes (done : payFee site tokens payer feeVault amount = .ok after) :
    Takes tokens after payer amount := by
  unfold payFee at done
  split at done
  · exact pay_takes done
  · cases pure_ok.mp done
    exact ⟨rfl, fun _ => Nat.le_add_right _ _, fun _ => Nat.le_add_right _ _⟩

theorem Takes.trans {middle : Tokens} {first second : Nat} (one : Takes tokens middle payer first)
    (two : Takes middle after payer second) : Takes tokens after payer (first + second) := by
  refine ⟨two.ctf.trans one.ctf, fun a => ?_, fun pair => ?_⟩
  · have first_takes := one.balance a
    have second_takes := two.balance a
    by_cases pays : a = payer
    · simp only [pays, if_true] at *
      omega
    · simp only [pays, if_false] at *
      omega
  · have first_takes := one.allowance pair
    have second_takes := two.allowance pair
    by_cases pays : pair.1 = payer
    · simp only [pays, if_true] at *
      omega
    · simp only [pays, if_false] at *
      omega

/-- A payment by the exchange is a call of the token by somebody else than the outcome tokens. -/
theorem pay_collateralised (apart : site.self ≠ site.ctf.self)
    (inv : ConditionalTokens.Collateralised site.ctf tokens)
    (done : pay site tokens payer recipient amount = .ok after) :
    ConditionalTokens.Collateralised site.ctf after := by
  simp only [pay, bind_ok, pure_ok] at done
  rcases done with ⟨usdc, moved, rfl⟩
  have run : tokens.usdc.exec site.self (.transferFrom payer recipient amount) = .ok usdc := moved
  exact inv.usdc_step apart run

theorem payFee_collateralised (apart : site.self ≠ site.ctf.self)
    (inv : ConditionalTokens.Collateralised site.ctf tokens)
    (done : payFee site tokens payer feeVault amount = .ok after) :
    ConditionalTokens.Collateralised site.ctf after := by
  unfold payFee at done
  split at done
  · exact pay_collateralised apart inv done
  · cases pure_ok.mp done
    exact inv

theorem deliver_collateralised {id : Nat}
    (inv : ConditionalTokens.Collateralised site.ctf tokens)
    (done : deliver site tokens payer recipient id amount = .ok after) :
    ConditionalTokens.Collateralised site.ctf after := by
  simp only [deliver, bind_ok, pure_ok] at done
  rcases done with ⟨ctf, moved, rfl⟩
  exact inv.safeTransferFrom moved

theorem deliver_takes {id : Nat}
    (done : deliver site tokens payer recipient id amount = .ok after) :
    after.usdc = tokens.usdc ∧
      after.ctf.isApprovedForAll = tokens.ctf.isApprovedForAll ∧
      after.ctf.payoutDenominator = tokens.ctf.payoutDenominator ∧
      ∀ k, tokens.ctf.balanceOf k ≤ after.ctf.balanceOf k + if k = (payer, id) then amount else 0 := by
  simp only [deliver, bind_ok, pure_ok] at done
  rcases done with ⟨ctf, moved, rfl⟩
  rcases ConditionalTokens.safeTransferFrom_spec moved with ⟨-, move, same⟩
  rw [same]
  refine ⟨rfl, rfl, rfl, fun k => ?_⟩
  have entry := move.entry k
  simp only
  omega

end Payments

/-- What a mined job changes: it takes no more than it asked for, and no order or approval but
through its fill. -/
structure Taken (site : ExchangeSite) (v next : Venue) (j : Job) : Prop where
  usdc : ∀ a, v.tokens.usdc.balanceOf a ≤ next.tokens.usdc.balanceOf a + j.spends a
  allowance : ∀ a, v.tokens.usdc.allowance (a, site.self) ≤
    next.tokens.usdc.allowance (a, site.self) + j.spends a
  ctf : ∀ k, v.tokens.ctf.balanceOf k ≤ next.tokens.ctf.balanceOf k + j.delivers site k
  approvals : next.tokens.ctf.isApprovedForAll = v.tokens.ctf.isApprovedForAll
  payouts : next.tokens.ctf.payoutDenominator = v.tokens.ctf.payoutDenominator
  nonces : next.exchange.nonces = v.exchange.nonces
  cancelled : next.exchange.cancelled = v.exchange.cancelled
  filled : ∀ o, next.exchange.filled (site.digest o) =
    v.exchange.filled (site.digest o) + j.fills o

/-- The settlement of a match takes what its job asked for. -/
theorem settle_takes {tokens after : Tokens} {feeVault : Address}
    (crossing : Crossing j.taker j.maker)
    (done : settle site tokens feeVault j.taker j.maker j.fill j.volume j.fee = .ok after) :
    (∀ a, tokens.usdc.balanceOf a ≤ after.usdc.balanceOf a + j.spends a) ∧
      (∀ a, tokens.usdc.allowance (a, site.self) ≤
        after.usdc.allowance (a, site.self) + j.spends a) ∧
      (∀ k, tokens.ctf.balanceOf k ≤ after.ctf.balanceOf k + j.delivers site k) ∧
      after.ctf.isApprovedForAll = tokens.ctf.isApprovedForAll ∧
      after.ctf.payoutDenominator = tokens.ctf.payoutDenominator := by
  unfold settle at done
  unfold Job.spends Job.delivers Job.buyer Job.seller Job.spend Exchange.buyer
  split at done
  · next buys =>
    simp only [bind_ok] at done
    rcases done with ⟨paid, volumePaid, charged, feePaid, delivered⟩
    have takes := (pay_takes volumePaid).trans (payFee_takes feePaid)
    rcases deliver_takes delivered with ⟨usdc, approvals, payouts, moved⟩
    simp only [buys, if_true]
    rw [usdc, approvals, payouts, ← takes.ctf, ← crossing.condition, ← crossing.outcome]
    exact ⟨takes.balance, fun a => takes.allowance (a, site.self), moved, rfl, rfl⟩
  · next sells =>
    simp only [bind_ok, usub_ok] at done
    rcases done with ⟨_, ⟨part, rfl⟩, paid, volumePaid, charged, feePaid, delivered⟩
    have takes := (pay_takes volumePaid).trans (payFee_takes feePaid)
    rw [Nat.sub_add_cancel part] at takes
    rcases deliver_takes delivered with ⟨usdc, approvals, payouts, moved⟩
    simp only [sells, Bool.false_eq_true, if_false]
    rw [usdc, approvals, payouts, ← takes.ctf]
    exact ⟨takes.balance, fun a => takes.allowance (a, site.self), moved, rfl, rfl⟩

theorem mine_takes (sound : j.Sound site) (done : j.mine site v timestamp = .ok next) :
    Taken site v next j := by
  rcases matchOrders_spec done with ⟨-, -, -, -, -, -, -, -, -, ⟨middle, first, second⟩, same,
    volume, fee, rfl, rfl, settled⟩
  rcases settle_takes sound.crossing settled with ⟨usdc, allowance, ctf, approvals, payouts⟩
  refine ⟨usdc, allowance, ctf, approvals, payouts, by rw [same], by rw [same], fun o => ?_⟩
  have taker := first (site.digest o)
  have maker := second (site.digest o)
  simp only [site.digest_injective.eq_iff] at taker maker
  simp only [Job.fills, eq_comm (b := o)]
  omega

/-- A match by anybody keeps the outcome tokens collateralised. -/
theorem match_collateralised {taker maker : Order} {fill : Nat} {takerSig makerSig : Signature}
    (apart : site.self ≠ site.ctf.self)
    (inv : ConditionalTokens.Collateralised site.ctf v.tokens)
    (done : matchOrders site v timestamp taker maker fill takerSig makerSig = .ok next) :
    ConditionalTokens.Collateralised site.ctf next.tokens := by
  rcases matchOrders_spec done with ⟨-, -, -, -, -, -, -, -, -, -, -, volume, fee, -, -, settled⟩
  unfold settle at settled
  split at settled
  · simp only [bind_ok] at settled
    rcases settled with ⟨paid, volumePaid, charged, feePaid, delivered⟩
    exact deliver_collateralised (payFee_collateralised apart
      (pay_collateralised apart inv volumePaid) feePaid) delivered
  · simp only [bind_ok, usub_ok] at settled
    rcases settled with ⟨_, -, paid, volumePaid, charged, feePaid, delivered⟩
    exact deliver_collateralised (payFee_collateralised apart
      (pay_collateralised apart inv volumePaid) feePaid) delivered

/-! ### The jobs in flight over a run -/

/-- What no other job can take away: the market, the orders and the approval of a job. -/
structure Ready (site : ExchangeSite) (v : Venue) (j : Job) : Prop where
  unresolved : v.tokens.ctf.isResolved j.taker.conditionId = false
  nonce : v.exchange.nonces j.taker.maker = j.taker.nonce ∧
    v.exchange.nonces j.maker.maker = j.maker.nonce
  live : v.exchange.cancelled (site.digest j.taker) = false ∧
    v.exchange.cancelled (site.digest j.maker) = false
  approved : v.tokens.ctf.isApprovedForAll (j.seller.maker, site.self) = true

/-- Room that is left in an order. -/
def room (site : ExchangeSite) (v : Venue) (o : Order) : Nat :=
  o.amount - v.exchange.filled (site.digest o)

/-- Everything that the jobs in flight need is there for all of them. -/
structure Reserve (site : ExchangeSite) (r : Relay) : Prop where
  collateralised : ConditionalTokens.Collateralised site.ctf r.venue.tokens
  sound : ∀ j ∈ r.rows, j.Sound site
  ready : ∀ j ∈ r.rows, Ready site r.venue j
  usdc : Reserved r.venue.tokens.usdc.balanceOf Job.spends r.rows
  allowance : Reserved (fun a => r.venue.tokens.usdc.allowance (a, site.self)) Job.spends r.rows
  ctf : Reserved r.venue.tokens.ctf.balanceOf (Job.delivers site) r.rows
  room : Reserved (room site r.venue) Job.fills r.rows

/-- A call by somebody else that spares a job: its market stays open, its orders are not touched,
and its parties keep what they have and allow. -/
structure Spared (site : ExchangeSite) (v next : Venue) (j : Job) : Prop where
  ready : Ready site next j
  balance : v.tokens.usdc.balanceOf j.buyer.maker ≤ next.tokens.usdc.balanceOf j.buyer.maker
  allowance : v.tokens.usdc.allowance (j.buyer.maker, site.self) ≤
    next.tokens.usdc.allowance (j.buyer.maker, site.self)
  position : ∀ id, v.tokens.ctf.balanceOf (j.seller.maker, id) ≤
    next.tokens.ctf.balanceOf (j.seller.maker, id)
  filled : next.exchange.filled (site.digest j.taker) ≤ v.exchange.filled (site.digest j.taker) ∧
    next.exchange.filled (site.digest j.maker) ≤ v.exchange.filled (site.digest j.maker)

/-- What a run is about: sound jobs, and other calls that spare the jobs in flight. -/
def Relay.Action.Fair (site : ExchangeSite) (r next : Relay) : Relay.Action → Prop
  | .send _ _ j => j.Sound site
  | .mine _ _ => True
  | .drop _ => True
  | .other (.tokens sender _) =>
      sender ≠ site.ctf.self ∧ ∀ j ∈ r.rows, Spared site r.venue next.venue j
  | .other (.exchange _ _ _) => ∀ j ∈ r.rows, Spared site r.venue next.venue j

def Relay.Step (site : ExchangeSite) (r next : Relay) : Prop :=
  ∃ action : Relay.Action, r.perform site action = some next ∧ action.Fair site r next

namespace Reserve

theorem start {v : Venue} (inv : ConditionalTokens.Collateralised site.ctf v.tokens) :
    Reserve site ⟨v, []⟩ where
  collateralised := inv
  sound _ there := absurd there List.not_mem_nil
  ready _ there := absurd there List.not_mem_nil
  usdc := Reserved.nil _ _
  allowance := Reserved.nil _ _
  ctf := Reserved.nil _ _
  room := Reserved.nil _ _

/-- A job that passes the preflight finds what it needs beside the others. -/
theorem send (reserve : Reserve site r) (sound : j.Sound site)
    (none : j.preflight site r.venue r.rows timestamp minExpiry = []) :
    Reserve site { r with rows := j :: r.rows } := by
  have passed := preflight_spec none
  constructor
  · exact reserve.collateralised
  · intro j' there
    rcases List.mem_cons.mp there with rfl | earlier
    · exact sound
    · exact reserve.sound j' earlier
  · intro j' there
    rcases List.mem_cons.mp there with rfl | earlier
    · exact ⟨passed.unresolved, passed.nonce, passed.live, passed.approved⟩
    · exact reserve.ready j' earlier
  · apply reserve.usdc.add
    intro a asks
    by_cases pays : a = j.buyer.maker
    · rw [pays, Job.spends, if_pos rfl]
      exact passed.balance
    · rw [Job.spends, if_neg pays] at asks
      exact absurd rfl asks
  · apply reserve.allowance.add
    intro a asks
    by_cases pays : a = j.buyer.maker
    · rw [pays, Job.spends, if_pos rfl]
      exact passed.allowance
    · rw [Job.spends, if_neg pays] at asks
      exact absurd rfl asks
  · apply reserve.ctf.add
    intro k asks
    by_cases gives : k = (j.seller.maker,
        ConditionalTokens.pid site.ctf j.seller.conditionId j.seller.outcome)
    · rw [gives, Job.delivers, if_pos rfl]
      exact passed.position
    · rw [Job.delivers, if_neg gives] at asks
      exact absurd rfl asks
  · apply reserve.room.add
    intro o asks
    have different : j.taker ≠ j.maker := by
      intro same
      exact sound.crossing.opposite (congrArg Order.isBuy same)
    unfold Preflight.room
    by_cases takes : j.taker = o
    · subst takes
      have fits := passed.room.1
      simp only [Job.fills, if_true, if_neg different.symm]
      omega
    · by_cases makes : j.maker = o
      · subst makes
        have fits := passed.room.2
        simp only [Job.fills, if_true, if_neg takes]
        omega
      · simp only [Job.fills, if_neg takes, if_neg makes] at asks
        exact absurd rfl asks

/-- A job that has what it needs goes through. -/
theorem mines (reserve : Reserve site r) (there : j ∈ r.rows)
    (inTime : timestamp ≤ j.taker.expiry ∧ timestamp ≤ j.maker.expiry) :
    ∃ next, j.mine site r.venue timestamp = .ok next := by
  have sound := reserve.sound j there
  have ready := reserve.ready j there
  have different : j.taker ≠ j.maker := by
    intro same
    exact sound.crossing.opposite (congrArg Order.isBuy same)
  have positive := sound.positive
  have takerRoom := reserve.room.covers there j.taker
  have makerRoom := reserve.room.covers there j.maker
  simp only [Job.fills, if_true, if_neg different, if_neg different.symm, Preflight.room]
    at takerRoom makerRoom
  have balance := reserve.usdc.covers there j.buyer.maker
  have allowance := reserve.allowance.covers there j.buyer.maker
  have position := reserve.ctf.covers there
    (j.seller.maker, ConditionalTokens.pid site.ctf j.seller.conditionId j.seller.outcome)
  simp only [Job.spends, Job.delivers, if_true] at balance allowance position
  have funds : Funds site r.venue j.buyer.maker j.spend j.seller j.fill :=
    ⟨balance, allowance, position, ready.approved⟩
  have settles : Settles site r.venue j.taker j.maker j.fill j.volume j.fee := by
    unfold Job.buyer Job.seller Job.spend Exchange.buyer at funds
    unfold Settles
    split at funds
    · next buys =>
      rw [if_pos buys]
      exact funds
    · next sells =>
      rw [if_neg sells]
      exact funds
  exact match_succeeds reserve.collateralised sound.takerStored sound.makerStored
    sound.takerSigned sound.makerSigned sound.crossing sound.positive ready.unresolved inTime.1
    inTime.2 ⟨ready.nonce.1, ready.live.1, by omega⟩ ⟨ready.nonce.2, ready.live.2, by omega⟩ settles

/-- The order of the jobs does not matter. -/
theorem perm (reserve : Reserve site r) {rows : List Job} (same : r.rows.Perm rows) :
    Reserve site { r with rows } where
  collateralised := reserve.collateralised
  sound j there := reserve.sound j (same.mem_iff.mpr there)
  ready j there := reserve.ready j (same.mem_iff.mpr there)
  usdc := reserve.usdc.perm same
  allowance := reserve.allowance.perm same
  ctf := reserve.ctf.perm same
  room := reserve.room.perm same

/-- A job that leaves without being mined leaves everything to the others. -/
theorem leave (reserve : Reserve site r) (first : r.rows = j :: rows) :
    Reserve site { r with rows } := by
  have usdc := reserve.usdc
  have allowance := reserve.allowance
  have ctf := reserve.ctf
  have room := reserve.room
  rw [first] at usdc allowance ctf room
  exact {
    collateralised := reserve.collateralised
    sound := fun j there => reserve.sound j (first ▸ .tail _ there)
    ready := fun j there => reserve.ready j (first ▸ .tail _ there)
    usdc := usdc.leave
    allowance := allowance.leave
    ctf := ctf.leave
    room := room.leave }

/-- A mined job leaves enough to the others. -/
theorem mine (apart : site.self ≠ site.ctf.self) (reserve : Reserve site r)
    (first : r.rows = j :: rows) (done : j.mine site r.venue timestamp = .ok next) :
    Reserve site ⟨next, rows⟩ := by
  have taken := mine_takes (reserve.sound j (first ▸ .head _)) done
  have usdc := reserve.usdc
  have allowance := reserve.allowance
  have ctf := reserve.ctf
  have room := reserve.room
  rw [first] at usdc allowance ctf room
  constructor
  · exact match_collateralised apart reserve.collateralised done
  · exact fun j there => reserve.sound j (first ▸ .tail _ there)
  · intro j there
    have ready := reserve.ready j (first ▸ .tail _ there)
    refine ⟨?_, ?_, ?_, ?_⟩
    · have unresolved := ready.unresolved
      simp only [ConditionalTokens.isResolved, taken.payouts] at unresolved ⊢
      exact unresolved
    · rw [taken.nonces]
      exact ready.nonce
    · rw [taken.cancelled]
      exact ready.live
    · rw [taken.approvals]
      exact ready.approved
  · exact usdc.settle taken.usdc
  · exact allowance.settle taken.allowance
  · exact ctf.settle taken.ctf
  · apply room.settle
    intro o
    have filled := taken.filled o
    unfold Preflight.room
    dsimp only
    omega

/-- A call that spares the jobs leaves them what they need. -/
theorem spared (reserve : Reserve site r)
    (inv : ConditionalTokens.Collateralised site.ctf next.tokens)
    (spared : ∀ j ∈ r.rows, Spared site r.venue next j) :
    Reserve site { r with venue := next } := by
  constructor
  · exact inv
  · exact reserve.sound
  · exact fun j there => (spared j there).ready
  · apply reserve.usdc.spared
    intro j there a asks
    by_cases pays : a = j.buyer.maker
    · rw [pays]
      exact (spared j there).balance
    · rw [Job.spends, if_neg pays] at asks
      exact absurd rfl asks
  · apply reserve.allowance.spared
    intro j there a asks
    by_cases pays : a = j.buyer.maker
    · rw [pays]
      exact (spared j there).allowance
    · rw [Job.spends, if_neg pays] at asks
      exact absurd rfl asks
  · apply reserve.ctf.spared
    intro j there k asks
    by_cases gives : k = (j.seller.maker,
        ConditionalTokens.pid site.ctf j.seller.conditionId j.seller.outcome)
    · rw [gives]
      exact (spared j there).position _
    · rw [Job.delivers, if_neg gives] at asks
      exact absurd rfl asks
  · apply reserve.room.spared
    intro j there o asks
    have filled := (spared j there).filled
    unfold Preflight.room
    dsimp only
    by_cases takes : j.taker = o
    · subst takes
      omega
    · by_cases makes : j.maker = o
      · subst makes
        omega
      · simp only [Job.fills, if_neg takes, if_neg makes] at asks
        exact absurd rfl asks

/-- Every fair step keeps the reserve. -/
theorem step (apart : site.self ≠ site.ctf.self) (reserve : Reserve site r)
    (taken : Relay.Step site r t) : Reserve site t := by
  rcases taken with ⟨action, done, fair⟩
  cases action with
  | send blockTs minExpiry j =>
      simp only [Relay.perform, Option.ite_none_right_eq_some, List.isEmpty_iff,
        Option.some.injEq] at done
      rcases done with ⟨none, rfl⟩
      exact reserve.send fair none
  | mine timestamp i =>
      simp only [Relay.perform, Option.map_eq_some_iff] at done
      rcases done with ⟨j, at_i, rfl⟩
      obtain ⟨bound, rfl⟩ := List.getElem?_eq_some_iff.mp at_i
      have reordered := reserve.perm (List.getElem_cons_eraseIdx_perm bound).symm
      cases mined : (r.rows[i]).mine site r.venue timestamp with
      | ok next => exact reordered.mine apart rfl mined
      | error why => exact reordered.leave rfl
  | drop i =>
      simp only [Relay.perform, Option.map_eq_some_iff] at done
      rcases done with ⟨j, at_i, rfl⟩
      obtain ⟨bound, rfl⟩ := List.getElem?_eq_some_iff.mp at_i
      exact (reserve.perm (List.getElem_cons_eraseIdx_perm bound).symm).leave rfl
  | other action =>
      simp only [Relay.perform, Option.map_eq_some_iff] at done
      rcases done with ⟨next, run, rfl⟩
      cases performed : Venue.perform site r.venue action with
      | error why =>
          rw [performed] at run
          cases run
      | ok venue =>
          rw [performed] at run
          cases run
          cases action with
          | tokens sender tx =>
              simp only [Venue.perform, bind_ok, pure_ok] at performed
              rcases performed with ⟨tokens, run, rfl⟩
              exact reserve.spared (reserve.collateralised.step ⟨sender, tx, fair.1, run⟩) fair.2
          | exchange sender timestamp tx =>
              apply reserve.spared _ fair
              cases tx with
              | cancelOrder o =>
                  simp only [Venue.perform, exec, bind_ok, pure_ok] at performed
                  rcases performed with ⟨_, -, rfl⟩
                  exact reserve.collateralised
              | incrementNonce =>
                  simp only [Venue.perform, exec, bind_ok, pure_ok] at performed
                  rcases performed with ⟨_, -, rfl⟩
                  exact reserve.collateralised
              | matchOrders taker maker fill takerSig makerSig =>
                  exact match_collateralised apart reserve.collateralised performed

/-- All the jobs of a reserve go through, one after the other. -/
theorem mine_all (apart : site.self ≠ site.ctf.self) (mined : List (Nat × Job)) (v : Venue)
    (reserve : Reserve site ⟨v, mined.map Prod.snd⟩)
    (inTime : ∀ tx ∈ mined, tx.1 ≤ tx.2.taker.expiry ∧ tx.1 ≤ tx.2.maker.expiry) :
    ∃ next, mined.foldlM (fun v tx => tx.2.mine site v tx.1) v = .ok next := by
  induction mined generalizing v with
  | nil => exact ⟨v, rfl⟩
  | cons tx rest ih =>
      obtain ⟨middle, first⟩ := reserve.mines (.head _) (inTime tx (.head _))
      obtain ⟨next, others⟩ := ih middle (reserve.mine apart rfl first)
        fun tx there => inTime tx (.tail _ there)
      refine ⟨next, ?_⟩
      rw [List.foldlM_cons, first]
      exact others

end Reserve

/-- In every run of the relayer in which the others spare what the jobs in flight need, all jobs
in flight can be mined, in any order and at any times before their orders expire: none reverts
because another one spent its funds or filled its order. -/
theorem in_flight_jobs_mine (apart : site.self ≠ site.ctf.self)
    (reached : Reachable (fun r => r.rows = [] ∧
      Reachable (Tokens.Initial site.ctf) (Tokens.Step site.ctf) r.venue.tokens)
      (Relay.Step site) r)
    (mined : List (Nat × Job)) (all : (mined.map Prod.snd).Perm r.rows)
    (inTime : ∀ tx ∈ mined, tx.1 ≤ tx.2.taker.expiry ∧ tx.1 ≤ tx.2.maker.expiry) :
    ∃ next, mined.foldlM (fun v tx => tx.2.mine site v tx.1) r.venue = .ok next := by
  have reserve : Reserve site r := by
    apply reached.invariant
    · intro start initial
      rcases start with ⟨v, rows⟩
      rcases initial with ⟨rfl, tokens⟩
      exact Reserve.start (ConditionalTokens.reachable_collateralised tokens)
    · exact fun s t reserve taken => reserve.step apart taken
  exact Reserve.mine_all apart mined r.venue (reserve.perm all.symm) inTime

/-! ### A sample run -/

/-- One of the two YES of the sample orders. -/
def sampleJob : Job := ⟨.sample 2 true, .sample 3 false, 1, .sample 2, .sample 3⟩

theorem sampleJob_sound : sampleJob.Sound .sample := by
  have stored : ∀ maker isBuy, Stored (.sample maker isBuy) := by
    intro maker isBuy
    constructor
    · exact .inl rfl
    · exact (by decide : 0 < 500000 ∧ 500000 ≤ 1000000)
    · exact (by decide : 0 < 2 ∧ 2 < 2 ^ 63)
    · exact (by decide : 0 < 2 ^ 63)
    · exact (by decide : 0 < 100 ∧ 100 < 2 ^ 63)
  constructor
  · exact stored 2 true
  · exact stored 3 false
  · exact ⟨by decide +kernel, by decide, by decide⟩
  · exact ⟨by decide +kernel, by decide, by decide⟩
  · exact ⟨rfl, rfl, by decide, by decide, by decide⟩
  · decide

/-- Two jobs on the same orders, of the same funds, are sent one after the other. -/
theorem sample_jobs_mine : ∃ v next : Venue,
    [(6, sampleJob), (5, sampleJob)].foldlM (fun v tx => tx.2.mine .sample v tx.1) v =
      .ok next := by
  obtain ⟨tokens, done⟩ := ok_of_isOk (x := sampleTokens) (by decide +kernel)
  have first : sampleTokens.toOption.map (fun tokens =>
      sampleJob.preflight .sample ⟨tokens, .deployed 4 5⟩ [] 5 60) = some [] := by
    decide +kernel
  have second : sampleTokens.toOption.map (fun tokens =>
      sampleJob.preflight .sample ⟨tokens, .deployed 4 5⟩ [sampleJob] 5 60) = some [] := by
    decide +kernel
  rw [done] at first second
  have outsiders : ∀ call ∈ sampleCalls, call.1 ≠ ExchangeSite.sample.ctf.self := by decide
  have tokensReached : Reachable (Tokens.Initial ExchangeSite.sample.ctf)
      (Tokens.Step ExchangeSite.sample.ctf) tokens :=
    Reachable.execute
      (fun _ call _ outsider done => ⟨call.1, call.2, outsider, done⟩) outsiders
      (.start ⟨rfl, MockUSDC.deployed_backed, fun _ => rfl⟩) done
  have sent : ∀ rows, sampleJob.preflight .sample ⟨tokens, .deployed 4 5⟩ rows 5 60 = [] →
      Relay.Step .sample ⟨⟨tokens, .deployed 4 5⟩, rows⟩
        ⟨⟨tokens, .deployed 4 5⟩, sampleJob :: rows⟩ := by
    intro rows none
    refine ⟨.send 5 60 sampleJob, ?_, sampleJob_sound⟩
    simp only [Relay.perform, none, List.isEmpty_nil, if_true]
  have start : Reachable (fun r : Relay => r.rows = [] ∧
      Reachable (Tokens.Initial ExchangeSite.sample.ctf) (Tokens.Step ExchangeSite.sample.ctf)
        r.venue.tokens) (Relay.Step .sample) ⟨⟨tokens, .deployed 4 5⟩, []⟩ :=
    .start ⟨rfl, tokensReached⟩
  have reached := (start.next (sent [] (Option.some.inj first))).next
    (sent [sampleJob] (Option.some.inj second))
  exact ⟨_, in_flight_jobs_mine (by decide) reached _ (.refl _) (by decide)⟩

end OverUnder.Backend.Preflight
