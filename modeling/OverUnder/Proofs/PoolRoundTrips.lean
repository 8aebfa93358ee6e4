/-
Module: OverUnder.Proofs.PoolRoundTrips
Purpose: Providing liquidity and taking it back. The price coordinate of a pool moves
  only by roundings, and an account that withdraws what a deposit just minted ends up
  with no more of either outcome than it brought.
Trusted boundary: none
Main exports: Pool.u, Receipt, liquidity_keeps_price, deposit_then_withdrawal
-/
import OverUnder.Proofs.ShareLedger

namespace OverUnder.Contracts

open OverUnder.Vyper
open OverUnder.Library
open NormalMath (wad)

/-- `u`, the coordinate of the price on the curve. -/
def Pool.u (p : Pool) : Int := (((p.noReserve : Int) - p.yesReserve) * wad).tdiv p.liquidity

namespace MarketAMM

variable {p : Pool} {usdcAmount minLpOut lpAmount : Nat}

/-! ### The price coordinate -/

/-- Reserves rescaled by one ratio and rounded up, liquidity rescaled and rounded down. -/
structure Rescaled (p p' : Pool) (k : ℚ) : Prop where
  yes : (p.yesReserve : ℚ) * k ≤ p'.yesReserve ∧ (p'.yesReserve : ℚ) < p.yesReserve * k + 1
  no : (p.noReserve : ℚ) * k ≤ p'.noReserve ∧ (p'.noReserve : ℚ) < p.noReserve * k + 1
  liquidity : (p'.liquidity : ℚ) ≤ p.liquidity * k ∧ (p.liquidity : ℚ) * k < p'.liquidity + 1

theorem Rescaled.u_near {p' : Pool} {k : ℚ} (scaled : Rescaled p p' k)
    (some_liquidity : 0 < p.liquidity) (some_liquidity' : 0 < p'.liquidity) :
    |(p'.u : ℚ) - p.u| ≤
      (|(p.noReserve : ℚ) - p.yesReserve| / p.liquidity + 1) * wad / p'.liquidity + 2 := by
  have before := abs_tdiv_sub_lt (((p.noReserve : Int) - p.yesReserve) * wad) some_liquidity
  have after := abs_tdiv_sub_lt (((p'.noReserve : Int) - p'.yesReserve) * wad) some_liquidity'
  have above : (p'.noReserve : ℚ) - p'.yesReserve = (p.noReserve - p.yesReserve) * k +
      ((p'.noReserve - p'.yesReserve) - (p.noReserve - p.yesReserve) * k) := by ring
  have below : (p'.liquidity : ℚ) = p.liquidity * k - (p.liquidity * k - p'.liquidity) := by ring
  have up_le : |((p'.noReserve : ℚ) - p'.yesReserve) - (p.noReserve - p.yesReserve) * k| ≤ 1 := by
    rcases scaled.yes with ⟨yes, yes'⟩
    rcases scaled.no with ⟨no, no'⟩
    rw [abs_le]
    constructor <;> linarith
  have exact_near := rescaled_quotient (by exact_mod_cast some_liquidity)
    (by exact_mod_cast some_liquidity') above below up_le (by linarith [scaled.liquidity.1])
    (by linarith [scaled.liquidity.2])
  have wide : |((p'.noReserve : ℚ) - p'.yesReserve) * wad / p'.liquidity -
      ((p.noReserve : ℚ) - p.yesReserve) * wad / p.liquidity| ≤
      (|(p.noReserve : ℚ) - p.yesReserve| / p.liquidity + 1) * wad / p'.liquidity := by
    have some_wad : (0 : ℚ) ≤ wad := Nat.cast_nonneg _
    calc |((p'.noReserve : ℚ) - p'.yesReserve) * wad / p'.liquidity -
          ((p.noReserve : ℚ) - p.yesReserve) * wad / p.liquidity|
        = |((p'.noReserve : ℚ) - p'.yesReserve) / p'.liquidity -
            ((p.noReserve : ℚ) - p.yesReserve) / p.liquidity| * wad := by
          rw [← abs_of_nonneg some_wad, ← abs_mul, abs_of_nonneg some_wad]
          congr 1
          ring
      _ ≤ (|(p.noReserve : ℚ) - p.yesReserve| / p.liquidity + 1) / p'.liquidity * wad :=
          mul_le_mul_of_nonneg_right exact_near some_wad
      _ = _ := by ring
  simp only [Int.cast_mul, Int.cast_sub, Int.cast_natCast] at before after
  unfold Pool.u
  rw [abs_le] at wide ⊢
  rw [abs_lt] at before after
  constructor <;> linarith

theorem deposit_rescaled {d : Deposit} (done : deposit p usdcAmount minLpOut = .ok d) :
    ∃ k, Rescaled p d.pool k := by
  rcases deposit_spec done with ⟨denom, -, positive, -, dx, dy, -, -, -, -, pool⟩
  have grown : ∀ r : Nat, (r : ℚ) * (1 + usdcAmount / denom) ≤
      (r + (r * usdcAmount) ⌈/⌉ denom : Nat) ∧
      ((r + (r * usdcAmount) ⌈/⌉ denom : Nat) : ℚ) < r * (1 + usdcAmount / denom) + 1 := by
    intro r
    have bounds := ceilDiv_cast_bounds (r * usdcAmount) positive
    rw [Nat.cast_mul, mul_div_assoc] at bounds
    rw [Nat.cast_add, mul_add, mul_one]
    constructor <;> linarith [bounds.1, bounds.2]
  refine ⟨1 + usdcAmount / denom, ?_, ?_, ?_⟩
  · rw [pool, dx]
    exact grown p.yesReserve
  · rw [pool, dy]
    exact grown p.noReserve
  · have bounds := div_cast_bounds (p.liquidity * usdcAmount) positive
    rw [Nat.cast_mul, mul_div_assoc] at bounds
    rw [pool, Nat.cast_add, mul_add, mul_one]
    constructor <;> linarith [bounds.1, bounds.2]

theorem withdrawal_rescaled {d : Withdrawal} (done : withdrawal p lpAmount = .ok d) :
    ∃ k, Rescaled p d.pool k := by
  rcases withdrawal_spec done with ⟨positive, burned, dx, dy, -, yes, no, -, pool⟩
  have shrunk : ∀ r : Nat, r * lpAmount / p.lpSupply ≤ r →
      (r : ℚ) * (1 - lpAmount / p.lpSupply) ≤ (r - r * lpAmount / p.lpSupply : Nat) ∧
      ((r - r * lpAmount / p.lpSupply : Nat) : ℚ) < r * (1 - lpAmount / p.lpSupply) + 1 := by
    intro r part
    have bounds := div_cast_bounds (r * lpAmount) positive
    rw [Nat.cast_mul, mul_div_assoc] at bounds
    rw [Nat.cast_sub part, mul_sub, mul_one]
    constructor <;> linarith [bounds.1, bounds.2]
  refine ⟨1 - lpAmount / p.lpSupply, ?_, ?_, ?_⟩
  · rw [pool, dx]
    exact shrunk p.yesReserve (dx ▸ yes)
  · rw [pool, dy]
    exact shrunk p.noReserve (dy ▸ no)
  · have share : (p.liquidity * lpAmount) ⌈/⌉ p.lpSupply ≤ p.liquidity := by
      rw [ceilDiv_le_iff_le_mul positive, Nat.mul_comm]
      exact Nat.mul_le_mul_right _ burned
    have bounds := ceilDiv_cast_bounds (p.liquidity * lpAmount) positive
    rw [Nat.cast_mul, mul_div_assoc] at bounds
    rw [pool, Nat.min_eq_left share, Nat.cast_sub share, mul_sub, mul_one]
    constructor <;> linarith [bounds.1, bounds.2]

end MarketAMM

open MarketAMM

variable {site : AmmSite} {m : Market} {c : Bytes32}

/-- Every deposit and every withdrawal leaves the price coordinate within the roundings of
the reserves, of the liquidity and of the two truncated quotients. -/
theorem liquidity_keeps_price
    (reached : Reachable (Market.Initial site) (Market.Step site) m) (msg : Msg) :
    (∀ usdcAmount minLpOut minted next,
      addLiquidity site m msg c usdcAmount minLpOut = .ok (minted, next) →
      let p := m.amm.pools c
      let p' := next.amm.pools c
      |(p'.u : ℚ) - p.u| ≤
        (|(p.noReserve : ℚ) - p.yesReserve| / p.liquidity + 1) * wad / p'.liquidity + 2) ∧
    (∀ lpAmount out next, removeLiquidity site m msg c lpAmount = .ok (out, next) →
      let p := m.amm.pools c
      let p' := next.amm.pools c
      |(p'.u : ℚ) - p.u| ≤
        (|(p.noReserve : ℚ) - p.yesReserve| / p.liquidity + 1) * wad / p'.liquidity + 2) := by
  have some_liquidity : ∀ {p : Pool}, Alive p → 0 < p.liquidity := fun {p} alive =>
    Nat.lt_of_lt_of_le (Nat.mul_pos (by decide) alive.supply_pos) alive.liquidity
  constructor
  · intro usdcAmount minLpOut minted next done p p'
    have deposits := addLiquidity_spec done
    rcases deposits.change with ⟨d, planned, pools, -⟩
    have here : p' = d.pool := by
      simp only [p', pools, Function.update_self]
    have alive := reachable_alive reached c deposits.live
    rcases deposit_rescaled planned with ⟨k, scaled⟩
    rw [here]
    exact scaled.u_near (some_liquidity alive) (some_liquidity (deposit_alive alive planned))
  · intro lpAmount out next done p p'
    have withdraws := removeLiquidity_spec done
    rcases withdraws.change with ⟨d, planned, pools⟩
    have here : p' = d.pool := by
      simp only [p', pools, Function.update_self]
    have alive := reachable_alive reached c withdraws.live
    rcases withdrawal_rescaled planned with ⟨k, scaled⟩
    rw [here]
    exact scaled.u_near (some_liquidity alive)
      (some_liquidity (withdrawal_alive alive planned withdraws.minimum.2))

/-- The theorem on a deposit after a seed and a purchase. -/
theorem liquidity_keeps_price_after_buy :
    ∃ m next : Market, ∃ minted,
      addLiquidity .sample m (.sample 5) 7 5000 0 = .ok (minted, next) ∧
      |((next.amm.pools 7).u : ℚ) - (m.amm.pools 7).u| ≤
        (|((m.amm.pools 7).noReserve : ℚ) - (m.amm.pools 7).yesReserve| /
          (m.amm.pools 7).liquidity + 1) * wad / (next.amm.pools 7).liquidity + 2 := by
  let actions := Market.sampleListing 20000 ++
    [.amm (.sample 5) (.buyWithUSDC 7 true 1000 0)]
  rcases (ok_of_isOk (by decide +kernel) : ∃ m, (actions ++ [Market.Action.amm
      (.sample 5) (.addLiquidity 7 5000 0)]).foldlM (Market.perform .sample) .sample = .ok m)
    with ⟨next, done⟩
  rw [List.foldlM_append, bind_ok] at done
  rcases done with ⟨m, listed, added⟩
  simp only [List.foldlM_cons, List.foldlM_nil, Market.perform, exec, bind_ok, pure_ok] at added
  rcases added with ⟨_, ⟨⟨minted, m'⟩, added, -⟩, -⟩
  have kept := liquidity_keeps_price (c := 7) (Market.sample_reachable (by decide) listed) (.sample 5)
  exact ⟨m, m', minted, added, kept.1 5000 0 minted m' added⟩

namespace MarketAMM

/-! ### What an account gets -/

/-- Positions of one outcome held by an account. -/
def holding (site : AmmSite) (tokens : Tokens) (account : Address) (c : Bytes32) (yes : Bool) :
    Nat :=
  tokens.ctf.balanceOf (account, pid site c yes)

/-- What an account gets of the collateral and of both outcomes of a condition. -/
structure Receipt (site : AmmSite) (account : Address) (c : Bytes32) (before after : Tokens)
    (usdc yes no : Int) : Prop where
  usdc_eq : (after.usdc.balanceOf account : Int) = before.usdc.balanceOf account + usdc
  yes_eq : (holding site after account c true : Int) = holding site before account c true + yes
  no_eq : (holding site after account c false : Int) = holding site before account c false + no

variable {site : AmmSite} {tokens after : Tokens} {account : Address} {c : Bytes32} {amount : Nat}

theorem Receipt.trans {first second third : Tokens} {u y n u' y' n' : Int}
    (left : Receipt site account c first second u y n)
    (right : Receipt site account c second third u' y' n') :
    Receipt site account c first third (u + u') (y + y') (n + n') where
  usdc_eq := by rw [right.usdc_eq, left.usdc_eq]; ring
  yes_eq := by rw [right.yes_eq, left.yes_eq]; ring
  no_eq := by rw [right.no_eq, left.no_eq]; ring

/-- A call that is skipped exactly when there is nothing to get. -/
theorem callWhen_receipt {guard : Prop} [Decidable guard] {call : Tokens → Call Tokens}
    {u y n : Int} (done : callWhen guard tokens call = .ok after)
    (on : call tokens = .ok after → Receipt site account c tokens after u y n)
    (off : ¬guard → u = 0 ∧ y = 0 ∧ n = 0) : Receipt site account c tokens after u y n := by
  unfold callWhen at done
  split at done
  · exact on done
  · next idle =>
    rcases off idle with ⟨rfl, rfl, rfl⟩
    rw [pure_ok] at done
    subst done
    exact ⟨by ring, by ring, by ring⟩

theorem pullUsdc_receipt (outsider : account ≠ site.self)
    (done : pullUsdc site tokens account amount = .ok after) :
    Receipt site account c tokens after (-amount) 0 0 := by
  simp only [pullUsdc, bind_ok, pure_ok] at done
  rcases done with ⟨usdc, paid, rfl⟩
  have entry := (MockUSDC.transferFrom_spec paid).1.entry account
  rw [if_pos rfl, if_neg outsider] at entry
  exact ⟨by simp only; omega, by simp [holding], by simp [holding]⟩

theorem sendUsdc_receipt (outsider : account ≠ site.self)
    (done : sendUsdc site tokens account amount = .ok after) :
    Receipt site account c tokens after amount 0 0 := by
  simp only [sendUsdc, bind_ok, pure_ok] at done
  rcases done with ⟨usdc, paid, rfl⟩
  have entry := (MockUSDC.transfer_spec paid).1.entry account
  rw [if_neg outsider, if_pos rfl] at entry
  exact ⟨by simp only; omega, by simp [holding], by simp [holding]⟩

theorem sendTokens_receipt {yes : Bool} (outsider : account ≠ site.self)
    (done : sendTokens site tokens account c yes amount = .ok after) :
    Receipt site account c tokens after 0 (if yes then amount else 0)
      (if yes then 0 else amount) := by
  simp only [sendTokens, bind_ok, pure_ok] at done
  rcases done with ⟨ctf, sent, rfl⟩
  have moved := (ConditionalTokens.safeTransferFrom_spec sent).2.1
  have entry : ∀ y, ctf.balanceOf (account, pid site c y) =
      tokens.ctf.balanceOf (account, pid site c y) + if y = yes then amount else 0 := by
    intro y
    have posted := moved.entry (account, pid site c y)
    rw [if_neg fun pair => outsider (congrArg Prod.fst pair)] at posted
    simp only [Prod.mk.injEq, true_and, pid_eq_iff] at posted
    omega
  have long := entry true
  have short := entry false
  refine ⟨by simp only; omega, ?_, ?_⟩ <;> unfold holding <;> simp only <;>
    cases yes <;> simp at long short ⊢ <;> omega

/-- The pool contract splits and merges its own sets. -/
theorem splitPosition_receipt (outsider : account ≠ site.self) (contract : account ≠ site.ctf.self)
    (done : splitPosition site tokens c amount = .ok after) :
    Receipt site account c tokens after 0 0 0 := by
  rcases ConditionalTokens.splitPosition_spec done with ⟨-, -, paid, ⟨middle, yes, no⟩, -⟩
  have entry := (MockUSDC.transferFrom_spec paid).1.entry account
  rw [if_neg outsider, if_neg contract] at entry
  have kept : ∀ y, holding site after account c y = holding site tokens account c y := by
    intro y
    have apart : ∀ id, (account, pid site c y) ≠ (site.self, id) :=
      fun _ pair => outsider (congrArg Prod.fst pair)
    exact (no.of_ne (apart _)).trans (yes.of_ne (apart _))
  exact ⟨by omega, by rw [kept]; ring, by rw [kept]; ring⟩

theorem mergePositions_receipt (outsider : account ≠ site.self)
    (contract : account ≠ site.ctf.self)
    (done : mergePositions site tokens c amount = .ok after) :
    Receipt site account c tokens after 0 0 0 := by
  rcases ConditionalTokens.mergePositions_spec done with ⟨-, paid, ⟨middle, yes, no⟩, -⟩
  have entry := (MockUSDC.transfer_spec paid).1.entry account
  rw [if_neg contract, if_neg outsider] at entry
  have kept : ∀ y, holding site after account c y = holding site tokens account c y := by
    intro y
    have apart : ∀ id, (account, pid site c y) ≠ (site.self, id) :=
      fun _ pair => outsider (congrArg Prod.fst pair)
    exact (no.of_ne (apart _)).trans (yes.of_ne (apart _))
  exact ⟨by omega, by rw [kept]; ring, by rw [kept]; ring⟩

variable {m next mid : Market} {msg : Msg} {minted out now : Nat}

/-- A deposit takes the collateral and refunds the shorter leg as tokens. -/
theorem addLiquidity_receipt (outsider : msg.sender ≠ site.self)
    (contract : msg.sender ≠ site.ctf.self)
    (done : addLiquidity site m msg c usdcAmount minLpOut = .ok (minted, next)) :
    ∃ d, deposit (m.amm.pools c) usdcAmount minLpOut = .ok d ∧ minted = d.minted ∧
      next.amm.pools c = d.pool ∧ Receipt site msg.sender c m.tokens next.tokens
        (-usdcAmount) ((d.sets : Int) - d.dx) ((d.sets : Int) - d.dy) := by
  simp only [addLiquidity, bind_ok, require_ok, credit_ok, pure_ok, Prod.mk.injEq,
    exists_const] at done
  rcases done with ⟨-, -, -, _, -, d, planned, _, ⟨-, rfl⟩, t1, pulled, t2, split, t3, long, t4,
    short, rfl, rfl⟩
  rcases deposit_covers planned with ⟨longCovered, shortCovered⟩
  have refundedYes : Receipt site msg.sender c t2 t3 0 (d.sets - d.dx : Nat) 0 :=
    callWhen_receipt long (fun sent => by simpa using sendTokens_receipt outsider sent) (by omega)
  have refundedNo : Receipt site msg.sender c t3 t4 0 0 (d.sets - d.dy : Nat) :=
    callWhen_receipt short (fun sent => by simpa using sendTokens_receipt outsider sent) (by omega)
  have paid := ((pullUsdc_receipt (c := c) outsider pulled).trans
    (splitPosition_receipt outsider contract split)).trans (refundedYes.trans refundedNo)
  refine ⟨d, planned, rfl, by simp only [setPool, Function.update_self], ?_⟩
  convert paid using 1 <;> omega

/-- A withdrawal pays the fees and the merged sets in collateral and the rest of the longer
leg as tokens. -/
theorem removeLiquidity_receipt (outsider : msg.sender ≠ site.self)
    (contract : msg.sender ≠ site.ctf.self)
    (done : removeLiquidity site m msg c lpAmount = .ok (out, next)) :
    ∃ d sets, withdrawal (m.amm.pools c) lpAmount = .ok d ∧ out = d.df + sets ∧
      Receipt site msg.sender c m.tokens next.tokens out ((d.dx : Int) - sets)
        ((d.dy : Int) - sets) := by
  simp only [removeLiquidity, bind_ok, require_ok, uadd_ok, usub_ok, debit_ok, pure_ok,
    Prod.mk.injEq, exists_const] at done
  rcases done with ⟨-, -, _, ⟨-, rfl⟩, -, _, ⟨-, rfl⟩, -, d, planned, _, ⟨-, rfl⟩, t1, merged, _,
    ⟨-, rfl⟩, _, ⟨yesPart, rfl⟩, _, ⟨noPart, rfl⟩, t2, long, t3, short, t4, cashed, rfl, rfl⟩
  generalize (if m.tokens.ctf.isResolved c = true then 0 else min d.dx d.dy) = sets at *
  have unpaid : Receipt site msg.sender c m.tokens t1 0 0 0 :=
    callWhen_receipt merged (mergePositions_receipt outsider contract) (fun _ => ⟨rfl, rfl, rfl⟩)
  have paidYes : Receipt site msg.sender c t1 t2 0 (d.dx - sets : Nat) 0 :=
    callWhen_receipt long (fun sent => by simpa using sendTokens_receipt outsider sent) (by omega)
  have paidNo : Receipt site msg.sender c t2 t3 0 0 (d.dy - sets : Nat) :=
    callWhen_receipt short (fun sent => by simpa using sendTokens_receipt outsider sent) (by omega)
  have cash : Receipt site msg.sender c t3 t4 (d.df + sets : Nat) 0 0 :=
    callWhen_receipt cashed (sendUsdc_receipt outsider) (by omega)
  have paid := unpaid.trans ((paidYes.trans paidNo).trans cash)
  refine ⟨d, sets, planned, rfl, ?_⟩
  convert paid using 1 <;> omega

/-! ### A deposit taken back -/

/-- What the shares of a deposit take back of each part of the pool is at most what the
deposit put there. -/
theorem withdrawal_of_deposit {d : Deposit} {w : Withdrawal} (some_supply : 0 < p.lpSupply)
    (deposited : deposit p usdcAmount minLpOut = .ok d)
    (withdrawn : withdrawal d.pool d.minted = .ok w) :
    w.dx ≤ d.dx ∧ w.dy ≤ d.dy ∧ w.df ≤ usdcAmount - d.sets := by
  rcases deposit_spec deposited with
    ⟨denom, whole, positive, sets, dx, dy, minted, -, -, part, pool⟩
  rcases withdrawal_spec withdrawn with ⟨-, -, wx, wy, wf, -⟩
  have down : d.minted * denom ≤ p.lpSupply * usdcAmount := by
    rw [minted]
    exact Nat.div_mul_le_self _ _
  have back : ∀ r u, u = (r * usdcAmount) ⌈/⌉ denom →
      (r + u) * d.minted / (p.lpSupply + d.minted) ≤ u := by
    intro r u up
    exact taken_back_le (mul_le_of_rounded positive (up ▸ le_ceilDiv_mul positive) down)
  have fees : p.lpFees * usdcAmount < (usdcAmount - d.sets + 1) * denom := by
    have setsUp : d.sets * denom < usdcAmount * max p.yesReserve p.noReserve + denom :=
      sets ▸ ceilDiv_mul_lt positive
    have kept : (usdcAmount - d.sets) * denom + d.sets * denom = usdcAmount * denom := by
      rw [← Nat.add_mul, Nat.sub_add_cancel part]
    have spread : usdcAmount * denom =
        usdcAmount * max p.yesReserve p.noReserve + p.lpFees * usdcAmount := by
      rw [whole]
      ring
    rw [Nat.add_mul, Nat.one_mul]
    omega
  rw [wx, wy, wf, pool]
  exact ⟨back _ _ dx, back _ _ dy, kept_back_le some_supply (mul_lt_of_rounded some_supply fees down)⟩

/-- A withdrawal is computed only if its products fit. -/
theorem withdrawal_fits {d : Withdrawal} (done : withdrawal p lpAmount = .ok d) :
    Fits p lpAmount := by
  simp only [withdrawal, mulDivUp, bind_ok, umul_ok, uadd_ok, mulDiv_ok] at done
  rcases done with ⟨_, ⟨yes, -⟩, _, ⟨no, -⟩, _, ⟨fees, -⟩, _, ⟨_, ⟨-, rfl⟩, _, ⟨liquidity, -⟩, -⟩, -⟩
  exact ⟨yes, no, fees, liquidity⟩

/-- The shares just minted are above the lock of the account. -/
theorem minted_unlocked (ledger : Ledger m now) {timestamp : Nat} (forward : now ≤ timestamp)
    (unresolved : m.tokens.ctf.isResolved c = false)
    (closes : (mid.amm.pools c).closeTime = (m.amm.pools c).closeTime)
    (balances : mid.amm.lpBalance = Function.update m.amm.lpBalance (c, account)
      (m.amm.lpBalance (c, account) + minted))
    (locks : mid.amm.seedLocked = m.amm.seedLocked) :
    minted + lpLocked mid c account timestamp (mid.amm.pools c).closeTime ≤
      mid.amm.lpBalance (c, account) := by
  have lock : lpLocked mid c account timestamp (mid.amm.pools c).closeTime ≤
      m.amm.lpBalance (c, account) := by
    simp only [lpLocked, locks, closes]
    split
    · exact Nat.zero_le _
    · split
      · next early => exact ledger.locked c account (lt_of_le_of_lt forward early.1) unresolved
      · exact ledger.floor c account
  rw [balances, Function.update_self, Nat.add_comm]
  exact Nat.add_le_add_right lock minted

end MarketAMM

variable {next mid : Market} {msg later : Msg} {usdcAmount minLpOut minted now : Nat}

/-- An account that withdraws the shares of a deposit right away can do so exactly when the
products of the withdrawal fit in a word, and then has no more of either outcome, counting
the collateral returned and the tokens of both calls, than it deposited. -/
theorem deposit_then_withdrawal
    (reached : Reachable (Market.Launched site) (Market.TimedStep site) (m, now))
    (outsider : msg.sender ≠ site.self ∧ msg.sender ≠ site.ctf.self)
    (named : msg.sender ≠ zeroAddress) (forward : now ≤ msg.timestamp)
    (added : addLiquidity site m msg c usdcAmount minLpOut = .ok (minted, mid))
    (same : later.sender = msg.sender) (clock : msg.timestamp ≤ later.timestamp) :
    ((∃ out next, removeLiquidity site mid later c minted = .ok (out, next)) ↔
      Fits (mid.amm.pools c) minted) ∧
    ∀ out next, removeLiquidity site mid later c minted = .ok (out, next) →
      next.tokens.usdc.balanceOf msg.sender + usdcAmount =
        m.tokens.usdc.balanceOf msg.sender + out ∧
      ∀ yes, out + holding site next.tokens msg.sender c yes ≤
        holding site m.tokens msg.sender c yes + usdcAmount := by
  have sound : Sound site (m, now) :=
    reached.invariant (fun _ => initially_sound) fun _ _ inv => inv.step
  have step : Market.TimedStep site (m, now) (mid, msg.timestamp) := by
    refine .call (.amm msg (.addLiquidity c usdcAmount minLpOut)) outsider rfl forward ?_
    simp only [Market.perform, exec, bind_ok, pure_ok]
    exact ⟨_, added, rfl⟩
  have after := sound.step step
  have deposits := addLiquidity_spec added
  have supplied := (sound.alive c deposits.live).supply_pos
  rcases addLiquidity_receipt outsider.1 outsider.2 added with ⟨d, planned, rfl, pool, received⟩
  constructor
  · constructor
    · rintro ⟨out, next, removed⟩
      rcases (removeLiquidity_spec removed).change with ⟨w, withdrawn, -⟩
      exact withdrawal_fits withdrawn
    · intro fits
      rcases deposit_spec planned with ⟨denom, -, -, -, -, -, -, positive, -, -, changed⟩
      have unresolved : m.tokens.ctf.isResolved c = false := by
        simp only [addLiquidity, bind_ok, require_ok, exists_const] at added
        exact Bool.eq_false_of_not_eq_true added.2.2.1
      have live : (mid.amm.pools c).exists = true := by
        rw [pool, changed]
        exact deposits.live
      have closes : (mid.amm.pools c).closeTime = (m.amm.pools c).closeTime := by
        rw [pool, changed]
      rcases deposits.change with ⟨d', planned', -, balances⟩
      rw [planned, Except.ok.injEq] at planned'
      rw [← planned'] at balances
      have unlocked := minted_unlocked sound.ledger (forward.trans clock) unresolved closes
        balances deposits.seedLocked
      rw [← same] at unlocked named
      exact removeLiquidity_succeeds after.solvent after.fitting live named positive unlocked
        (after.ledger.leaves_minimum live unlocked) fits
  · intro out next removed
    rw [← same] at outsider received ⊢
    rcases removeLiquidity_receipt outsider.1 outsider.2 removed with
      ⟨w, sets, withdrawn, rfl, returned⟩
    rw [pool] at withdrawn
    rcases withdrawal_of_deposit supplied planned withdrawn with ⟨dx, dy, df⟩
    rcases deposit_spec planned with ⟨-, -, -, -, -, -, -, -, -, part, -⟩
    have total := received.trans returned
    have usdc := total.usdc_eq
    have long := total.yes_eq
    have short := total.no_eq
    refine ⟨by omega, fun yes => ?_⟩
    cases yes with
    | true => omega
    | false => omega

/-- Account 6 is about to add to the pool of condition 7. -/
def Market.sampleFunded (usdcAmount : Nat) : List Market.Action :=
  Market.sampleListing 20000 ++ [.tokens 6 (.usdc (.faucet usdcAmount)),
    .tokens 6 (.usdc (.approve 8 usdcAmount))]

/-- The theorem on a deposit of somebody else after the seed. -/
theorem deposit_then_withdrawal_after_seed :
    ∃ m mid next : Market, ∃ minted out,
      addLiquidity .sample m (.sample 6) 7 1000 0 = .ok (minted, mid) ∧
      removeLiquidity .sample mid (.sample 6) 7 minted = .ok (out, next) ∧
      out + holding .sample next.tokens 6 7 true ≤ holding .sample m.tokens 6 7 true + 1000 := by
  obtain ⟨m, done⟩ : ∃ m, (Market.sampleFunded 1000).foldlM (Market.perform .sample) .sample =
      .ok m := ok_of_isOk (by decide +kernel)
  have books : ((Market.sampleFunded 1000).foldlM (Market.perform .sample) .sample).toOption.bind
      (fun m => (addLiquidity .sample m (.sample 6) 7 1000 0).toOption.map fun added =>
        decide ((added.2.amm.pools 7).yesReserve * added.1 < wordSize ∧
          (added.2.amm.pools 7).noReserve * added.1 < wordSize ∧
          (added.2.amm.pools 7).lpFees * added.1 < wordSize ∧
          (added.2.amm.pools 7).liquidity * added.1 + (added.2.amm.pools 7).lpSupply < wordSize)) =
      some true := by
    decide +kernel
  simp only [done, Except.toOption, Option.bind_some, Option.map_eq_some_iff] at books
  rcases books with ⟨⟨minted, mid⟩, taken, fits⟩
  have added : addLiquidity .sample m (.sample 6) 7 1000 0 = .ok (minted, mid) := by
    split at taken
    · next result => rw [result, Option.some.inj taken]
    · cases taken
  rcases of_decide_eq_true fits with ⟨yes, no, fees, liquidity⟩
  have trip := deposit_then_withdrawal (Market.sample_timed (by decide) done) (by decide)
    (by decide) (Nat.le_refl _) added rfl (Nat.le_refl _)
  rcases trip.1.mpr ⟨yes, no, fees, liquidity⟩ with ⟨out, next, removed⟩
  exact ⟨m, mid, next, minted, out, added, removed, (trip.2 out next removed).2 true⟩

/-- Why a call reverted, if it did. -/
def revertOf {α : Type} : Call α → Option Revert
  | .ok _ => none
  | .error why => some why

theorem revertOf_eq_some {α : Type} {call : Call α} {why : Revert}
    (failed : revertOf call = some why) : call = .error why := by
  cases call with
  | ok => cases failed
  | error => rw [Option.some.inj failed]

/-- Shares of a deposit so large that taking all of them back at once overflows. -/
theorem deposit_then_withdrawal_overflows :
    ∃ m mid : Market, ∃ minted,
      Reachable (Market.Launched .sample) (Market.TimedStep .sample) (m, 5) ∧
      addLiquidity .sample m (.sample 6) 7 (2 ^ 140) 0 = .ok (minted, mid) ∧
      removeLiquidity .sample mid (.sample 6) 7 minted = .error .overflow := by
  obtain ⟨m, done⟩ : ∃ m, (Market.sampleFunded (2 ^ 140)).foldlM (Market.perform .sample)
      .sample = .ok m := ok_of_isOk (by decide +kernel)
  have stuck : ((Market.sampleFunded (2 ^ 140)).foldlM (Market.perform .sample)
      .sample).toOption.bind (fun m =>
        (addLiquidity .sample m (.sample 6) 7 (2 ^ 140) 0).toOption.map fun added =>
          revertOf (removeLiquidity .sample added.2 (.sample 6) 7 added.1)) =
      some (some .overflow) := by
    decide +kernel
  simp only [done, Except.toOption, Option.bind_some, Option.map_eq_some_iff] at stuck
  rcases stuck with ⟨⟨minted, mid⟩, taken, failed⟩
  refine ⟨m, mid, minted, Market.sample_timed (by decide) done, ?_, ?_⟩
  · split at taken
    · next result => rw [result, Option.some.inj taken]
    · cases taken
  · exact revertOf_eq_some failed

end OverUnder.Contracts
