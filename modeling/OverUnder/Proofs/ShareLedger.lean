/-
Module: OverUnder.Proofs.ShareLedger
Purpose: The shares of a pool over time. They add up to its supply, the seed stays
  while it is locked, and what is above the lock can be withdrawn at any time as long
  as the products of the withdrawal fit in a word.
Trusted boundary: none
Main exports: ConditionalTokens.Fitting, Ledger, Market.TimedStep, Fits,
  removeLiquidity_succeeds, share_ledger
-/
import OverUnder.Proofs.FullCollateral
import OverUnder.Proofs.PoolCalls
import OverUnder.Proofs.PoolShares

namespace OverUnder.Contracts

open OverUnder.Vyper
open OverUnder.Library

/-! ### Supplies that fit in a word -/

namespace ConditionalTokens

variable {site : CtfSite} {w after : Tokens} {sender : Address} {c : Bytes32} {amount : Nat}

/-- What a run of the token contracts keeps: every obligation is backed, and no balance
can overflow. -/
structure Fitting (site : CtfSite) (w : Tokens) : Prop where
  backed : Collateralised site w
  fits : ∀ c outcome, outcome < 2 → supply site w.ctf c outcome < wordSize

/-- A supply is covered by collateral while its condition is unresolved, and only falls
afterwards. -/
theorem Fitting.step (inv : Fitting site w) (taken : Tokens.Step site w after) :
    Fitting site after := by
  have backed := inv.backed.step taken
  refine ⟨backed, fun c outcome binary => ?_⟩
  rcases taken with ⟨sender, tx, -, done⟩
  cases tx with
  | usdc tx =>
      simp only [Tokens.exec, bind_ok, pure_ok] at done
      rcases done with ⟨usdc, -, rfl⟩
      exact inv.fits c outcome binary
  | ctf tx =>
      by_cases unresolved : w.ctf.payoutDenominator c = 0
      · by_cases reported : after.ctf.payoutDenominator c = 0
        · have yes : supply site after.ctf c 0 < wordSize := by
            have owed := obligation_le_total site after.ctf c
            rw [obligation_unresolved reported] at owed
            have cash : supply site after.ctf c 0 ≤ after.usdc.balanceOf site.self := by
              exact_mod_cast owed.trans backed.covered
            exact lt_of_le_of_lt (cash.trans (backed.backed.balance_le _)) backed.backed.fits
          interval_cases outcome
          · exact yes
          · rw [← backed.matched c reported]
            exact yes
        · rcases exec_payouts done with ⟨denominators, -⟩ | ⟨c', payouts, report⟩
          · exact absurd (by rw [denominators]; exact unresolved) reported
          · rcases reportPayouts_spec report with ⟨-, -, -, same⟩
            have balances : after.ctf.balanceOf = w.ctf.balanceOf := by rw [same]
            rw [supply_congr balances]
            exact inv.fits c outcome binary
      · exact lt_of_le_of_lt (exec_supply_le (.inr unresolved) done binary) (inv.fits c outcome binary)

theorem Fitting.calls (inv : Fitting site w)
    (called : Relation.ReflTransGen (Tokens.Step site) w after) : Fitting site after := by
  induction called with
  | refl => exact inv
  | tail _ taken ih => exact ih.step taken

theorem initially_fitting (initial : Tokens.Initial site w) : Fitting site w := by
  refine ⟨initially_collateralised initial, fun c outcome _ => ?_⟩
  rw [initial.fresh, supply_deployed]
  decide

/-- The owner can send any position it holds. -/
theorem Fitting.transfer_succeeds (inv : Fitting site w) {receiver : Address} {outcome : Nat}
    (binary : outcome < 2) (named : receiver ≠ zeroAddress)
    (held : amount ≤ w.ctf.balanceOf (sender, pid site c outcome)) :
    ∃ ctf, safeTransferFrom w.ctf sender sender receiver (pid site c outcome) amount = .ok ctf := by
  have bound : Function.update w.ctf.balanceOf (sender, pid site c outcome)
      (w.ctf.balanceOf (sender, pid site c outcome) - amount) (receiver, pid site c outcome) +
      amount < wordSize := by
    have fits := inv.fits c outcome binary
    by_cases same : receiver = sender
    · subst same
      have mine := le_columnTotal w.ctf.balanceOf receiver (pid site c outcome)
      rw [Function.update_self, Nat.sub_add_cancel held]
      exact lt_of_le_of_lt mine fits
    · have both := add_le_columnTotal w.ctf.balanceOf (pid site c outcome) same
      rw [Function.update_of_ne fun pair => same (congrArg Prod.fst pair)]
      unfold supply at fits
      omega
  simp only [safeTransferFrom, bind_ok, require_ok, debit_ok, credit_ok, pure_ok, exists_const]
  exact ⟨_, named, .inl trivial, _, ⟨held, rfl⟩, _, ⟨bound, rfl⟩, rfl⟩

end ConditionalTokens

namespace MarketAMM

open ConditionalTokens (Fitting)

variable {site : AmmSite} {m next : Market} {msg : Msg} {tokens after : Tokens}
variable {c : Bytes32} {amount : Nat} {account : Address}

/-! ### The ledger of the shares -/

/-- The rows of a table on pairs after a change of one entry. -/
theorem row_of_update {before after : Bytes32 × Address → Nat}
    (posted : after = Function.update before (c, account) amount) (c' : Bytes32) :
    total (fun a => after (c', a)) + (if c' = c then before (c, account) else 0) =
      total (fun a => before (c', a)) + if c' = c then amount else 0 := by
  by_cases same : c' = c
  · have row : (fun a => after (c', a)) =
        Function.update (fun a => before (c', a)) account amount := by
      funext a
      rw [posted, same, Function.update_apply, Function.update_apply]
      simp
    rw [row, if_pos same, if_pos same, ← same]
    exact total_update _ account amount
  · rw [if_neg same, if_neg same]
    congr 1
    apply total_congr
    intro a
    rw [posted, Function.update_of_ne fun pair => same (congrArg Prod.fst pair)]

/-- The shares and locks at a time. -/
structure Ledger (m : Market) (now : Nat) : Prop where
  absent : ∀ c, (m.amm.pools c).exists = false →
    (m.amm.pools c).lpSupply = 0 ∧ ∀ a, m.amm.lpBalance (c, a) = 0 ∧ m.amm.seedLocked (c, a) = 0
  balanced : ∀ c, total (fun a => m.amm.lpBalance (c, a)) = (m.amm.pools c).lpSupply
  seeded : ∀ c, (m.amm.pools c).exists = true → ∃ provider,
    minLp ≤ m.amm.seedLocked (c, provider) ∧ ∀ a, a ≠ provider → m.amm.seedLocked (c, a) = 0
  floor : ∀ c a, min (m.amm.seedLocked (c, a)) minLp ≤ m.amm.lpBalance (c, a)
  locked : ∀ c a, now < (m.amm.pools c).closeTime → m.tokens.ctf.isResolved c = false →
    m.amm.seedLocked (c, a) ≤ m.amm.lpBalance (c, a)

/-- The lock never falls below the part that stays forever. -/
theorem min_le_lpLocked (m : Market) (c : Bytes32) (account : Address) (timestamp closeTime : Nat) :
    min (m.amm.seedLocked (c, account)) minLp ≤ lpLocked m c account timestamp closeTime := by
  by_cases none : m.amm.seedLocked (c, account) = 0
  · rw [none, Nat.zero_min]
    exact Nat.zero_le _
  · simp only [lpLocked, if_neg none]
    split
    · exact Nat.min_le_left _ _
    · exact Nat.le_refl _

/-- Before the close the whole seed is locked. -/
theorem lpLocked_open {timestamp closeTime : Nat} (early : timestamp < closeTime)
    (unresolved : m.tokens.ctf.isResolved c = false) :
    lpLocked m c account timestamp closeTime = m.amm.seedLocked (c, account) := by
  by_cases none : m.amm.seedLocked (c, account) = 0
  · simp only [lpLocked, none, if_pos]
  · simp only [lpLocked, if_neg none]
    rw [if_pos ⟨early, ne_true_of_eq_false unresolved⟩]

variable {now later : Nat}

/-- Time passes, conditions get resolved, and the books stay. -/
theorem Ledger.same (ledger : Ledger m now) (same : SameBooks m next) (forward : now ≤ later)
    (resolutions : ∀ c, next.tokens.ctf.isResolved c = false → m.tokens.ctf.isResolved c = false) :
    Ledger next later := by
  rcases same with ⟨pools, balances, locks⟩
  constructor
  · rw [pools, balances, locks]
    exact ledger.absent
  · rw [pools, balances]
    exact ledger.balanced
  · rw [pools, locks]
    exact ledger.seeded
  · rw [balances, locks]
    exact ledger.floor
  · rw [pools, balances, locks]
    intro c a early unresolved
    exact ledger.locked c a (lt_of_le_of_lt forward early) (resolutions c unresolved)

theorem Ledger.seeds (ledger : Ledger m now) {provider : Address}
    (seeds : Seeds m next c provider amount) (forward : now ≤ later)
    (resolutions : ∀ c, next.tokens.ctf.isResolved c = false → m.tokens.ctf.isResolved c = false) :
    Ledger next later := by
  rcases seeds with ⟨absent, enough, ⟨closeTime, pools⟩, balances, locks⟩
  rcases ledger.absent c absent with ⟨unsupplied, none⟩
  have elsewhere : ∀ c', c' ≠ c → next.amm.pools c' = m.amm.pools c' ∧
      ∀ a, next.amm.lpBalance (c', a) = m.amm.lpBalance (c', a) ∧
        next.amm.seedLocked (c', a) = m.amm.seedLocked (c', a) := by
    intro c' other
    have apart : ∀ a, (c', a) ≠ (c, provider) := fun a pair => other (congrArg Prod.fst pair)
    rw [pools, balances, locks]
    exact ⟨Function.update_of_ne other _ _, fun a =>
      ⟨Function.update_of_ne (apart a) _ _, Function.update_of_ne (apart a) _ _⟩⟩
  have theirs : ∀ a, a ≠ provider → next.amm.seedLocked (c, a) = 0 := by
    intro a other
    rw [locks, Function.update_of_ne fun pair => other (congrArg Prod.snd pair)]
    exact (none a).2
  have mine : next.amm.seedLocked (c, provider) = amount ∧
      next.amm.lpBalance (c, provider) = amount := by
    rw [locks, balances, Function.update_self, Function.update_self]
    exact ⟨rfl, rfl⟩
  have covers : ∀ a, next.amm.seedLocked (c, a) ≤ next.amm.lpBalance (c, a) := by
    intro a
    by_cases same : a = provider
    · rw [same, mine.1, mine.2]
    · rw [theirs a same]
      exact Nat.zero_le _
  constructor
  · intro c' missing
    by_cases same : c' = c
    · rw [same, pools, Function.update_self] at missing
      cases missing
    · rcases elsewhere c' same with ⟨pool, rows⟩
      rw [pool] at missing ⊢
      refine ⟨(ledger.absent c' missing).1, fun a => ?_⟩
      rw [(rows a).1, (rows a).2]
      exact (ledger.absent c' missing).2 a
  · intro c'
    have row := row_of_update balances c'
    rw [ledger.balanced, (none provider).1] at row
    by_cases same : c' = c
    · rw [if_pos same, if_pos same, same, unsupplied, Nat.add_zero, Nat.zero_add] at row
      have supply : (next.amm.pools c).lpSupply = amount := by rw [pools, Function.update_self]
      rw [same, supply]
      exact row
    · rw [if_neg same, if_neg same, Nat.add_zero, Nat.add_zero] at row
      rw [(elsewhere c' same).1]
      exact row
  · intro c' live
    by_cases same : c' = c
    · subst same
      exact ⟨provider, by rw [mine.1]; exact enough, theirs⟩
    · rcases elsewhere c' same with ⟨pool, rows⟩
      rw [pool] at live
      rcases ledger.seeded c' live with ⟨first, large, others⟩
      exact ⟨first, by rw [(rows first).2]; exact large, fun a other => by
        rw [(rows a).2]; exact others a other⟩
  · intro c' a
    by_cases same : c' = c
    · subst same
      exact (Nat.min_le_left _ _).trans (covers a)
    · rw [((elsewhere c' same).2 a).1, ((elsewhere c' same).2 a).2]
      exact ledger.floor c' a
  · intro c' a early unresolved
    by_cases same : c' = c
    · subst same
      exact covers a
    · rcases elsewhere c' same with ⟨pool, rows⟩
      rw [pool] at early
      rw [(rows a).1, (rows a).2]
      exact ledger.locked c' a (lt_of_le_of_lt forward early) (resolutions c' unresolved)

/-- One account's shares of one existing pool change together with its supply. -/
theorem Ledger.update (ledger : Ledger m now) {p : Pool} {shares : Nat}
    (live : (m.amm.pools c).exists = true) (stays : p.exists = true)
    (closes : p.closeTime = (m.amm.pools c).closeTime)
    (pools : next.amm.pools = Function.update m.amm.pools c p)
    (balances : next.amm.lpBalance = Function.update m.amm.lpBalance (c, account) shares)
    (locks : next.amm.seedLocked = m.amm.seedLocked)
    (supply : p.lpSupply + m.amm.lpBalance (c, account) = (m.amm.pools c).lpSupply + shares)
    (floor : min (m.amm.seedLocked (c, account)) minLp ≤ shares)
    (locked : later < (m.amm.pools c).closeTime → m.tokens.ctf.isResolved c = false →
      m.amm.seedLocked (c, account) ≤ shares)
    (forward : now ≤ later)
    (resolutions : ∀ c, next.tokens.ctf.isResolved c = false → m.tokens.ctf.isResolved c = false) :
    Ledger next later := by
  have elsewhere : ∀ c', c' ≠ c → next.amm.pools c' = m.amm.pools c' := by
    intro c' other
    rw [pools, Function.update_of_ne other]
  have theirs : ∀ c' a, (c', a) ≠ (c, account) →
      next.amm.lpBalance (c', a) = m.amm.lpBalance (c', a) := by
    intro c' a other
    rw [balances, Function.update_of_ne other]
  have here : next.amm.pools c = p := by rw [pools, Function.update_self]
  have mine : next.amm.lpBalance (c, account) = shares := by rw [balances, Function.update_self]
  constructor
  · intro c' missing
    have other : c' ≠ c := by
      rintro rfl
      rw [here, stays] at missing
      cases missing
    rw [elsewhere c' other] at missing ⊢
    refine ⟨(ledger.absent c' missing).1, fun a => ?_⟩
    rw [theirs c' a fun pair => other (congrArg Prod.fst pair), locks]
    exact (ledger.absent c' missing).2 a
  · intro c'
    have row := row_of_update balances c'
    rw [ledger.balanced] at row
    by_cases same : c' = c
    · rw [if_pos same, if_pos same, same, ← supply] at row
      rw [same, here]
      exact Nat.add_right_cancel row
    · rw [if_neg same, if_neg same, Nat.add_zero, Nat.add_zero] at row
      rw [elsewhere c' same]
      exact row
  · intro c' exist
    rw [locks]
    by_cases same : c' = c
    · rw [same]
      exact ledger.seeded c live
    · rw [elsewhere c' same] at exist
      exact ledger.seeded c' exist
  · intro c' a
    rw [locks]
    by_cases same : (c', a) = (c, account)
    · rw [same, mine]
      exact floor
    · rw [theirs c' a same]
      exact ledger.floor c' a
  · intro c' a early unresolved
    have before : later < (m.amm.pools c').closeTime := by
      by_cases same : c' = c
      · rw [same, here, closes] at early
        rw [same]
        exact early
      · rw [elsewhere c' same] at early
        exact early
    rw [locks]
    by_cases same : (c', a) = (c, account)
    · rw [same, mine]
      rcases Prod.mk.inj same with ⟨rfl, rfl⟩
      exact locked before (resolutions c' unresolved)
    · rw [theirs c' a same]
      exact ledger.locked c' a (lt_of_le_of_lt forward before) (resolutions c' unresolved)

/-- A call to the pool contract sees the time of its block. -/
def OnTime (now : Nat) : Market.Action → Prop
  | .amm msg _ => msg.timestamp = now
  | .tokens _ _ => True

instance (now : Nat) (action : Market.Action) : Decidable (OnTime now action) := by
  cases action <;> unfold OnTime <;> infer_instance

theorem Ledger.perform (ledger : Ledger m now) {action : Market.Action}
    (outsider : action.External site) (onTime : OnTime later action) (forward : now ≤ later)
    (done : Market.perform site m action = .ok next) : Ledger next later := by
  have resolutions : ∀ c, next.tokens.ctf.isResolved c = false →
      m.tokens.ctf.isResolved c = false := by
    intro c unresolved
    by_contra resolved
    have stays := calls_stay_resolved (perform_calls outsider done)
      (Bool.eq_true_of_not_eq_false resolved)
    rw [unresolved] at stays
    cases stays
  rcases perform_cases done with same | ⟨c, provider, amount, seeds⟩ | ⟨c, trades⟩ |
    ⟨c, usdcAmount, minLpOut, deposits⟩ | ⟨msg, tx, c, lpAmount, called, withdraws⟩
  · exact ledger.same same forward resolutions
  · exact ledger.seeds seeds forward resolutions
  · rcases trades.pools with ⟨yes, no, fees, pools, -⟩
    -- the row of any account stands for a balance that does not change
    have balances : next.amm.lpBalance = Function.update m.amm.lpBalance (c, zeroAddress)
        (m.amm.lpBalance (c, zeroAddress)) := by
      rw [trades.lpBalance, Function.update_eq_self]
    refine ledger.update trades.live ?_ ?_ pools balances trades.seedLocked ?_
      (ledger.floor c _) (fun early => ?_) forward resolutions
    · exact trades.live
    · rfl
    · rfl
    · exact ledger.locked c _ (lt_of_le_of_lt forward early)
  · rcases deposits.change with ⟨d, planned, pools, balances⟩
    rcases deposit_spec planned with ⟨denom, -, -, -, -, -, minted, -, -, -, pool⟩
    have supply : d.pool.lpSupply = (m.amm.pools c).lpSupply + d.minted := by rw [pool]
    refine ledger.update deposits.live (by rw [pool]; exact deposits.live) (by rw [pool]) pools
      balances deposits.seedLocked (by omega) ?_ (fun early unresolved => ?_) forward resolutions
    · exact (ledger.floor c _).trans (Nat.le_add_right _ _)
    · exact (ledger.locked c _ (lt_of_le_of_lt forward early) unresolved).trans
        (Nat.le_add_right _ _)
  · rcases withdraws.change with ⟨d, planned, pools⟩
    rcases withdrawal_spec planned with ⟨-, burned, -, -, -, -, -, -, pool⟩
    have supply : d.pool.lpSupply = (m.amm.pools c).lpSupply - lpAmount := by rw [pool]
    have covered := withdraws.covered
    have unlocked := withdraws.unlocked
    refine ledger.update withdraws.live (by rw [pool]; exact withdraws.live) (by rw [pool]) pools
      withdraws.lpBalance withdraws.seedLocked (by omega) ?_ (fun early unresolved => ?_) forward
      resolutions
    · exact (min_le_lpLocked m c _ _ _).trans unlocked
    · subst called
      have clock : msg.timestamp = later := onTime
      rw [← lpLocked_open early unresolved, ← clock]
      exact unlocked

/-! ### Withdrawals that succeed -/

/-- The checked products of a withdrawal stay within a word. -/
structure Fits (p : Pool) (lpAmount : Nat) : Prop where
  yes : p.yesReserve * lpAmount < wordSize
  no : p.noReserve * lpAmount < wordSize
  fees : p.lpFees * lpAmount < wordSize
  liquidity : p.liquidity * lpAmount + p.lpSupply < wordSize

theorem share_le {r lpAmount supply : Nat} (burned : lpAmount ≤ supply) :
    r * lpAmount / supply ≤ r := by
  apply Nat.div_le_of_le_mul
  rw [Nat.mul_comm]
  exact Nat.mul_le_mul_right _ burned

theorem withdrawal_succeeds {p : Pool} {lpAmount : Nat} (fits : Fits p lpAmount)
    (burned : lpAmount ≤ p.lpSupply) (supplied : 0 < p.lpSupply) :
    ∃ d, withdrawal p lpAmount = .ok d := by
  have nonzero : p.lpSupply ≠ 0 := Nat.ne_of_gt supplied
  have product : p.liquidity * lpAmount < wordSize :=
    lt_of_le_of_lt (Nat.le_add_right _ _) fits.liquidity
  have raised : 1 ≤ p.liquidity * lpAmount + p.lpSupply :=
    Nat.le_trans supplied (Nat.le_add_left _ _)
  simp only [withdrawal, mulDivUp, bind_ok, umul_ok, uadd_ok, usub_ok, udiv_ok, mulDiv_ok, pure_ok]
  exact ⟨_, _, ⟨fits.yes, nonzero, rfl⟩, _, ⟨fits.no, nonzero, rfl⟩, _, ⟨fits.fees, nonzero, rfl⟩,
    _, ⟨_, ⟨product, rfl⟩, _, ⟨fits.liquidity, rfl⟩, _, ⟨raised, rfl⟩, nonzero, rfl⟩,
    _, ⟨share_le burned, rfl⟩, _, ⟨share_le burned, rfl⟩, _, ⟨share_le burned, rfl⟩,
    _, ⟨Nat.min_le_right _ _, rfl⟩, _, ⟨burned, rfl⟩, rfl⟩

theorem callWhen_succeeds {guard : Prop} [Decidable guard] {call : Tokens → Call Tokens}
    (on : guard → ∃ after, call tokens = .ok after) :
    ∃ after, callWhen guard tokens call = .ok after := by
  by_cases open_ : guard
  · rcases on open_ with ⟨after, done⟩
    exact ⟨after, by rw [callWhen, if_pos open_, done]⟩
  · exact ⟨tokens, by rw [callWhen, if_neg open_, pure_ok]⟩

theorem sendTokens_succeeds (fitting : Fitting site.ctf tokens) {yes : Bool}
    (named : account ≠ zeroAddress) (held : amount ≤ held site tokens c yes) :
    ∃ after, sendTokens site tokens account c yes amount = .ok after := by
  have binary : (if yes then 0 else 1) < 2 := by
    cases yes <;> decide
  rcases fitting.transfer_succeeds binary named held with ⟨ctf, sent⟩
  exact ⟨{ tokens with ctf }, by
    rw [sendTokens, bind_ok]
    exact ⟨ctf, sent, rfl⟩⟩

theorem sendUsdc_succeeds (fitting : Fitting site.ctf tokens) (held : amount ≤ cash site tokens) :
    ∃ after, sendUsdc site tokens account amount = .ok after := by
  obtain ⟨usdc, sent⟩ : ∃ usdc, tokens.usdc.transfer site.self account amount = .ok usdc :=
    MockUSDC.transfer_succeeds fitting.backed.backed held
  exact ⟨{ tokens with usdc }, by
    rw [sendUsdc, bind_ok]
    exact ⟨usdc, sent, rfl⟩⟩

theorem mergePositions_succeeds (fitting : Fitting site.ctf tokens)
    (unresolved : tokens.ctf.isResolved c = false) (yes : amount ≤ held site tokens c true)
    (no : amount ≤ held site tokens c false) :
    ∃ after, mergePositions site tokens c amount = .ok after := by
  simp only [ConditionalTokens.isResolved, gt_iff_lt, decide_eq_false_iff_not, Nat.not_lt,
    Nat.le_zero] at unresolved
  exact fitting.backed.merge_succeeds unresolved yes no

/-- What the pool accounts for is there to be paid out. -/
theorem removeLiquidity_succeeds {lpAmount : Nat} (solvent : Solvent site m)
    (fitting : Fitting site.ctf m.tokens) (live : (m.amm.pools c).exists = true)
    (named : msg.sender ≠ zeroAddress) (positive : 0 < lpAmount)
    (unlocked : lpAmount + lpLocked m c msg.sender msg.timestamp (m.amm.pools c).closeTime ≤
      m.amm.lpBalance (c, msg.sender))
    (minimum : lpAmount + minLp ≤ (m.amm.pools c).lpSupply) (fits : Fits (m.amm.pools c) lpAmount) :
    ∃ out next, removeLiquidity site m msg c lpAmount = .ok (out, next) := by
  have supplied : 0 < (m.amm.pools c).lpSupply := by omega
  have covered : lpAmount ≤ m.amm.lpBalance (c, msg.sender) := by omega
  have calls := calls_carries site msg.sender
  rcases withdrawal_succeeds fits (by omega) supplied with ⟨d, planned⟩
  rcases withdrawal_spec planned with ⟨-, -, -, -, -, yes, no, fees, -⟩
  have yesHeld := yes.trans (solvent.reserves c true)
  have noHeld := no.trans (solvent.reserves c false)
  have feesHeld := (fees.trans (le_total (fun c => (m.amm.pools c).lpFees) c)).trans solvent.fees
  obtain ⟨sets, hsets⟩ : ∃ sets, sets = if m.tokens.ctf.isResolved c then 0 else min d.dx d.dy :=
    ⟨_, rfl⟩
  have setsYes : sets ≤ d.dx := by
    rw [hsets]
    split
    · exact Nat.zero_le _
    · exact Nat.min_le_left _ _
  have setsNo : sets ≤ d.dy := by
    rw [hsets]
    split
    · exact Nat.zero_le _
    · exact Nat.min_le_right _ _
  obtain ⟨t1, merged⟩ : ∃ t1, callWhen (sets > 0) m.tokens
      (fun tokens => mergePositions site tokens c sets) = .ok t1 := by
    apply callWhen_succeeds
    intro some_sets
    have unresolved : m.tokens.ctf.isResolved c = false := by
      by_contra resolved
      rw [if_pos (Bool.eq_true_of_not_eq_false resolved)] at hsets
      omega
    exact mergePositions_succeeds fitting unresolved (setsYes.trans yesHeld) (setsNo.trans noHeld)
  have fitting1 := fitting.calls (calls.callWhen merged calls.mergePositions)
  have shift1 : Shift site c m.tokens t1 sets (-sets) (-sets) :=
    callWhen_shift merged mergePositions_shift (by omega)
  have yes1 := shift1.yes_le
  have no1 := shift1.no_le
  have cash1 := shift1.cash_le
  obtain ⟨t2, long⟩ : ∃ t2, callWhen (d.dx - sets > 0) t1 (fun tokens =>
      sendTokens site tokens msg.sender c true (d.dx - sets)) = .ok t2 := by
    apply callWhen_succeeds
    intro
    exact sendTokens_succeeds fitting1 named (by omega)
  have fitting2 := fitting1.calls (calls.callWhen long calls.sendTokens)
  have shift2 : Shift site c t1 t2 0 (-((d.dx - sets : Nat) : Int)) 0 :=
    callWhen_shift long (fun sent => by simpa using sendTokens_shift sent) (by omega)
  have no2 := shift2.no_le
  have cash2 := shift2.cash_le
  obtain ⟨t3, short⟩ : ∃ t3, callWhen (d.dy - sets > 0) t2 (fun tokens =>
      sendTokens site tokens msg.sender c false (d.dy - sets)) = .ok t3 := by
    apply callWhen_succeeds
    intro
    exact sendTokens_succeeds fitting2 named (by omega)
  have fitting3 := fitting2.calls (calls.callWhen short calls.sendTokens)
  have shift3 : Shift site c t2 t3 0 0 (-((d.dy - sets : Nat) : Int)) :=
    callWhen_shift short (fun sent => by simpa using sendTokens_shift sent) (by omega)
  have cash3 := shift3.cash_le
  obtain ⟨t4, cashed⟩ : ∃ t4, callWhen (d.df + sets > 0) t3 (fun tokens =>
      sendUsdc site tokens msg.sender (d.df + sets)) = .ok t4 := by
    apply callWhen_succeeds
    intro
    exact sendUsdc_succeeds fitting3 (by omega)
  have payable : d.df + sets < wordSize := by
    have bound := fitting1.backed.backed.balance_le site.self
    have word := fitting1.backed.backed.fits
    unfold cash at cash1 feesHeld
    omega
  subst hsets
  simp only [removeLiquidity, bind_ok, require_ok, uadd_ok, usub_ok, debit_ok, pure_ok,
    Prod.mk.injEq, exists_const]
  exact ⟨_, _, live, ⟨positive, covered⟩, _, ⟨covered, rfl⟩, by omega, _, ⟨by omega, rfl⟩,
    by omega, d, planned, _, ⟨covered, rfl⟩, t1, merged, _, ⟨payable, rfl⟩, _, ⟨setsYes, rfl⟩, _,
    ⟨setsNo, rfl⟩, t2, long, t3, short, t4, cashed, rfl, rfl⟩

/-- Somebody else's shares and the minimum of the seed stay whatever one account
withdraws above its lock. -/
theorem Ledger.leaves_minimum (ledger : Ledger m now) (live : (m.amm.pools c).exists = true)
    {lpAmount timestamp : Nat}
    (unlocked : lpAmount + lpLocked m c account timestamp (m.amm.pools c).closeTime ≤
      m.amm.lpBalance (c, account)) : lpAmount + minLp ≤ (m.amm.pools c).lpSupply := by
  rcases ledger.seeded c live with ⟨provider, large, -⟩
  have seed := ledger.floor c provider
  rw [Nat.min_eq_right large] at seed
  rw [← ledger.balanced c]
  by_cases same : account = provider
  · have lock := min_le_lpLocked m c account timestamp (m.amm.pools c).closeTime
    rw [same, Nat.min_eq_right large] at lock
    calc lpAmount + minLp ≤ m.amm.lpBalance (c, account) := by
          rw [same] at unlocked ⊢
          exact (Nat.add_le_add_left lock _).trans unlocked
      _ ≤ _ := le_total (fun a => m.amm.lpBalance (c, a)) account
  · calc lpAmount + minLp ≤ m.amm.lpBalance (c, account) + m.amm.lpBalance (c, provider) :=
          Nat.add_le_add ((Nat.le_add_right _ _).trans unlocked) seed
      _ ≤ _ := add_le_total (fun a => m.amm.lpBalance (c, a)) same

end MarketAMM

open MarketAMM
open ConditionalTokens (Fitting)

variable {site : AmmSite} {m next : Market} {now later : Nat} {c : Bytes32}

/-- One call that did not revert, in a block no earlier than those before. -/
inductive Market.TimedStep (site : AmmSite) : Market × Nat → Market × Nat → Prop where
  | call {m after : Market} {now later : Nat} (action : Market.Action)
      (outsider : action.External site) (onTime : OnTime later action) (forward : now ≤ later)
      (done : Market.perform site m action = .ok after) : TimedStep site (m, now) (after, later)

/-- The pool contract was just deployed over token contracts in use since their
deployment, at an address that had approved nobody. -/
structure Market.Launched (site : AmmSite) (start : Market × Nat) : Prop where
  deployed : ∃ tokens feeVault operator,
    Reachable (Tokens.Initial site.ctf) (Tokens.Step site.ctf) tokens ∧
      (∀ s, tokens.usdc.allowance (site.self, s) = 0) ∧
      (∀ op, tokens.ctf.isApprovedForAll (site.self, op) = false) ∧
      MarketAMM.deploy site tokens feeVault operator = .ok start.1

theorem Market.Launched.initial {start : Market × Nat} (launched : Market.Launched site start) :
    Market.Initial site start.1 := by
  rcases launched.deployed with ⟨tokens, feeVault, operator, -, barred, unapproved, done⟩
  exact ⟨tokens, feeVault, operator, barred, unapproved, done⟩

/-- Everything that holds along a run. -/
structure MarketAMM.Sound (site : AmmSite) (s : Market × Nat) : Prop where
  solvent : Solvent site s.1
  fitting : Fitting site.ctf s.1.tokens
  alive : ∀ c, (s.1.amm.pools c).exists = true → Alive (s.1.amm.pools c)
  ledger : Ledger s.1 s.2

theorem initially_sound {start : Market × Nat} (launched : Market.Launched site start) :
    MarketAMM.Sound site start := by
  rcases start with ⟨m, now⟩
  have solvent := initially_solvent launched.initial
  rcases launched.deployed with ⟨tokens, feeVault, operator, reached, -, -, done⟩
  have fitting : Fitting site.ctf tokens :=
    reached.invariant (fun _ => ConditionalTokens.initially_fitting) fun _ _ inv => inv.step
  have approval : Tokens.Step site.ctf tokens
      { tokens with usdc := tokens.usdc.approve site.self site.ctf.self MockUSDC.maxAllowance } :=
    ⟨site.self, .usdc (.approve site.ctf.self MockUSDC.maxAllowance), site.apart, rfl⟩
  simp only [deploy, bind_ok, require_ok, pure_ok, exists_const] at done
  rcases done with ⟨-, rfl⟩
  refine ⟨solvent, fitting.step approval, fun c live => ?_, ?_⟩
  · cases live
  · constructor
    · exact fun c _ => ⟨rfl, fun a => ⟨rfl, rfl⟩⟩
    · exact fun c => total_zero fun a => rfl
    · intro c live
      cases live
    · exact fun c a => Nat.min_le_left _ _
    · exact fun c a _ _ => Nat.le_refl _

theorem MarketAMM.Sound.step {s t : Market × Nat} (inv : Sound site s)
    (taken : Market.TimedStep site s t) : Sound site t := by
  rcases taken with ⟨action, outsider, onTime, forward, done⟩
  exact ⟨inv.solvent.step ⟨action, outsider, done⟩, inv.fitting.calls (perform_calls outsider done),
    alive_step inv.alive done, inv.ledger.perform outsider onTime forward done⟩

/-- In every reachable state the shares of a pool add up to its supply of at least the
minimum, the seed is there while it is locked and its minimum forever, and every amount
above an account's lock can be withdrawn if the products of the withdrawal fit. -/
theorem share_ledger
    (reached : Reachable (Market.Launched site) (Market.TimedStep site) (m, now))
    (live : (m.amm.pools c).exists = true) :
    total (fun a => m.amm.lpBalance (c, a)) = (m.amm.pools c).lpSupply ∧
    minLp ≤ (m.amm.pools c).lpSupply ∧
    (∃ provider, minLp ≤ m.amm.seedLocked (c, provider) ∧
      (∀ a, a ≠ provider → m.amm.seedLocked (c, a) = 0) ∧
      (now < (m.amm.pools c).closeTime → m.tokens.ctf.isResolved c = false →
        m.amm.seedLocked (c, provider) ≤ m.amm.lpBalance (c, provider)) ∧
      min (m.amm.seedLocked (c, provider)) minLp ≤ m.amm.lpBalance (c, provider)) ∧
    ∀ (msg : Msg) (lpAmount : Nat), msg.sender ≠ zeroAddress → 0 < lpAmount →
      lpAmount + lpLocked m c msg.sender msg.timestamp (m.amm.pools c).closeTime ≤
        m.amm.lpBalance (c, msg.sender) →
      Fits (m.amm.pools c) lpAmount →
      ∃ out next, removeLiquidity site m msg c lpAmount = .ok (out, next) := by
  have inv : Sound site (m, now) :=
    reached.invariant (fun _ => initially_sound) fun _ _ inv => inv.step
  rcases inv.ledger.seeded c live with ⟨provider, large, others⟩
  refine ⟨inv.ledger.balanced c, (inv.alive c live).supply,
    ⟨provider, large, others, inv.ledger.locked c provider, inv.ledger.floor c provider⟩, ?_⟩
  intro msg lpAmount named positive unlocked fits
  exact removeLiquidity_succeeds inv.solvent inv.fitting live named positive unlocked
    (inv.ledger.leaves_minimum live unlocked) fits

theorem Market.sample_launched (now : Nat) : Market.Launched .sample (.sample, now) :=
  ⟨⟨.deployed, .deployed⟩, 4, 5, .start ⟨rfl, MockUSDC.deployed_backed, fun _ => rfl⟩,
    fun _ => rfl, fun _ => rfl, rfl⟩

/-- A list of calls that all succeed in one block. -/
theorem Market.sample_timed {actions : List Market.Action}
    (external : ∀ action ∈ actions, action.External .sample ∧ OnTime 5 action)
    (done : actions.foldlM (Market.perform .sample) .sample = .ok m) :
    Reachable (Market.Launched .sample) (Market.TimedStep .sample) (m, 5) := by
  have reached : Reachable (fun m => Market.Launched .sample (m, 5))
      (fun m m' => Market.TimedStep .sample (m, 5) (m', 5)) m :=
    Reachable.execute (fun _ action _ admitted done =>
      .call action admitted.1 admitted.2 (Nat.le_refl _) done) external
      (.start (sample_launched 5)) done
  rcases reached with ⟨start, launched, path⟩
  exact ⟨(start, 5), launched, path.lift (fun m => (m, 5)) fun _ _ taken => taken⟩

/-- Account 6 adds to the pool of condition 7. -/
def Market.sampleDeposit (usdcAmount : Nat) : List Market.Action :=
  Market.sampleListing 20000 ++ [.tokens 6 (.usdc (.faucet usdcAmount)),
    .tokens 6 (.usdc (.approve 8 usdcAmount)), .amm (.sample 6) (.addLiquidity 7 usdcAmount 0)]

/-- The theorem after a seed and a deposit of somebody else, who can leave again. -/
theorem share_ledger_deposited :
    ∃ m : Market, total (fun a => m.amm.lpBalance (7, a)) = 21000 ∧
      m.amm.lpBalance (7, 6) = 1000 ∧
      ∃ out next, removeLiquidity .sample m (.sample 6) 7 1000 = .ok (out, next) := by
  obtain ⟨m, done⟩ : ∃ m, (Market.sampleDeposit 1000).foldlM (Market.perform .sample) .sample =
      .ok m := ok_of_isOk (by decide +kernel)
  have books : ((Market.sampleDeposit 1000).foldlM (Market.perform .sample) .sample).toOption.map
      (fun m => decide (((m.amm.pools 7).exists = true ∧ (m.amm.pools 7).lpSupply = 21000 ∧
        m.amm.lpBalance (7, 6) = 1000 ∧ lpLocked m 7 6 5 (m.amm.pools 7).closeTime = 0) ∧
        (m.amm.pools 7).yesReserve * 1000 < wordSize ∧ (m.amm.pools 7).noReserve * 1000 < wordSize ∧
        (m.amm.pools 7).lpFees * 1000 < wordSize ∧
        (m.amm.pools 7).liquidity * 1000 + (m.amm.pools 7).lpSupply < wordSize)) = some true := by
    decide +kernel
  rw [done] at books
  simp only [Except.toOption, Option.map_some, Option.some.injEq, decide_eq_true_eq] at books
  rcases books with ⟨⟨live, supply, shares, unlocked⟩, yes, no, fees, liquidity⟩
  have ledger := share_ledger (Market.sample_timed (by decide) done) live
  refine ⟨m, ledger.1.trans supply, shares, ledger.2.2.2 (.sample 6) 1000 (by decide) (by decide)
    ?_ ⟨yes, no, fees, liquidity⟩⟩
  exact (Nat.add_le_add_left (Nat.le_of_eq unlocked) _).trans (Nat.le_of_eq shares.symm)

/-- A deposit so large that withdrawing all of it at once overflows. -/
theorem whole_position_overflows :
    ∃ m : Market, Reachable (Market.Launched .sample) (Market.TimedStep .sample) (m, 5) ∧
      (m.amm.pools 7).exists = true ∧
      0 < m.amm.lpBalance (7, 6) ∧ lpLocked m 7 6 5 (m.amm.pools 7).closeTime = 0 ∧
      removeLiquidity .sample m (.sample 6) 7 (m.amm.lpBalance (7, 6)) = .error .overflow := by
  obtain ⟨m, done⟩ : ∃ m, (Market.sampleDeposit (2 ^ 140)).foldlM (Market.perform .sample)
      .sample = .ok m := ok_of_isOk (by decide +kernel)
  have books : ((Market.sampleDeposit (2 ^ 140)).foldlM (Market.perform .sample)
      .sample).toOption.map (fun m => decide ((m.amm.pools 7).exists = true ∧
        0 < m.amm.lpBalance (7, 6) ∧ lpLocked m 7 6 5 (m.amm.pools 7).closeTime = 0)) =
      some true := by
    decide +kernel
  have stuck : ((Market.sampleDeposit (2 ^ 140)).foldlM (Market.perform .sample)
      .sample).toOption.map (fun m => match removeLiquidity .sample m (.sample 6) 7
        (m.amm.lpBalance (7, 6)) with
      | .ok _ => none
      | .error why => some why) = some (some .overflow) := by
    decide +kernel
  rw [done] at books stuck
  simp only [Except.toOption, Option.map_some, Option.some.injEq, decide_eq_true_eq] at books stuck
  refine ⟨m, Market.sample_timed (by decide) done, books.1, books.2.1, books.2.2, ?_⟩
  split at stuck
  · cases stuck
  · next why failed =>
    rw [failed, Option.some.inj stuck]

end OverUnder.Contracts
