/-
Module: OverUnder.Proofs.PoolShares
Purpose: What one share of a pool stands for. Deposits and withdrawals round in
  favour of the shares that stay, so a share never loses reserves, and the pool
  keeps both reserves and two units of liquidity for each share.
Trusted boundary: none
Main exports: Alive, deposit_alive, withdrawal_alive, pool_stays_alive,
  shares_undiluted
-/
import OverUnder.Library.Reachable
import OverUnder.Library.Rounding
import OverUnder.Proofs.PoolSteps
import OverUnder.Proofs.Solvency

namespace OverUnder.Contracts

open OverUnder.Vyper
open OverUnder.Library
open NormalMath (wad)

namespace MarketAMM

/-- What an existing pool never falls below. -/
structure Alive (p : Pool) : Prop where
  yes : 1 ≤ p.yesReserve
  no : 1 ≤ p.noReserve
  supply : minLp ≤ p.lpSupply
  liquidity : 2 * p.lpSupply ≤ p.liquidity

variable {p : Pool} {usdcAmount minLpOut lpAmount : Nat}

theorem Alive.reserve_pos (alive : Alive p) (yes : Bool) : 0 < p.reserve yes := by
  cases yes with
  | true => exact alive.yes
  | false => exact alive.no

theorem Alive.supply_pos (alive : Alive p) : 0 < p.lpSupply :=
  Nat.lt_of_lt_of_le (by decide) alive.supply

/-! ### Deposits -/

/-- The reserve of an outcome grows by its share rounded up, the supply by its share
rounded down. -/
theorem deposit_reserve {d : Deposit} (done : deposit p usdcAmount minLpOut = .ok d)
    (yes : Bool) : p.reserve yes * d.pool.lpSupply ≤ d.pool.reserve yes * p.lpSupply := by
  rcases deposit_spec done with ⟨denom, -, positive, -, dx, dy, minted, -, -, -, pool⟩
  have down : d.minted * denom ≤ p.lpSupply * usdcAmount := by
    rw [minted]
    exact Nat.div_mul_le_self _ _
  have grown : ∀ r u, u = (r * usdcAmount) ⌈/⌉ denom →
      r * (p.lpSupply + d.minted) ≤ (r + u) * p.lpSupply := by
    intro r u up
    rw [Nat.mul_add, Nat.add_mul]
    apply Nat.add_le_add_left
    exact mul_le_of_rounded positive (up ▸ le_ceilDiv_mul positive) down
  rw [pool]
  cases yes with
  | true => exact grown _ _ dx
  | false => exact grown _ _ dy

/-- The longer reserve and the fees together grow by the whole deposit. -/
theorem deposit_long {d : Deposit} (done : deposit p usdcAmount minLpOut = .ok d) :
    (max p.yesReserve p.noReserve + p.lpFees) * d.pool.lpSupply ≤
      (max d.pool.yesReserve d.pool.noReserve + d.pool.lpFees) * p.lpSupply := by
  rcases deposit_spec done with
    ⟨denom, whole, positive, sets, dx, dy, minted, -, -, part, pool⟩
  have down : d.minted * denom ≤ p.lpSupply * usdcAmount := by
    rw [minted]
    exact Nat.div_mul_le_self _ _
  have longer : max p.yesReserve p.noReserve + d.sets ≤
      max d.pool.yesReserve d.pool.noReserve := by
    rw [pool, sets, dx, dy, Nat.mul_comm usdcAmount]
    rcases Nat.le_total p.yesReserve p.noReserve with shorter | shorter
    · rw [Nat.max_eq_right shorter]
      exact Nat.le_max_right _ _
    · rw [Nat.max_eq_left shorter]
      exact Nat.le_max_left _ _
  have fees : d.pool.lpFees = p.lpFees + (usdcAmount - d.sets) := by rw [pool]
  have supply : d.pool.lpSupply = p.lpSupply + d.minted := by rw [pool]
  have claim : denom + usdcAmount ≤
      max d.pool.yesReserve d.pool.noReserve + d.pool.lpFees := by omega
  calc (max p.yesReserve p.noReserve + p.lpFees) * d.pool.lpSupply
      = denom * p.lpSupply + d.minted * denom := by rw [← whole, supply]; ring
    _ ≤ denom * p.lpSupply + p.lpSupply * usdcAmount := Nat.add_le_add_left down _
    _ = (denom + usdcAmount) * p.lpSupply := by ring
    _ ≤ _ := Nat.mul_le_mul_right _ claim

/-- Splitting off the fees rounds the claim of an outcome by less than one token. -/
theorem deposit_short {d : Deposit} (some_supply : 0 < p.lpSupply)
    (done : deposit p usdcAmount minLpOut = .ok d) (yes : Bool) :
    (p.reserve yes + p.lpFees) * d.pool.lpSupply <
      (d.pool.reserve yes + d.pool.lpFees + 1) * p.lpSupply := by
  rcases deposit_spec done with
    ⟨denom, whole, positive, sets, dx, dy, minted, -, -, part, pool⟩
  have down : d.minted * denom ≤ p.lpSupply * usdcAmount := by
    rw [minted]
    exact Nat.div_mul_le_self _ _
  have setsUp : d.sets * denom < usdcAmount * max p.yesReserve p.noReserve + denom :=
    sets ▸ ceilDiv_mul_lt positive
  have grown : ∀ r u, u = (r * usdcAmount) ⌈/⌉ denom →
      (r + p.lpFees) * (p.lpSupply + d.minted) <
        (r + u + (p.lpFees + (usdcAmount - d.sets)) + 1) * p.lpSupply := by
    intro r u up
    have upper : r * usdcAmount ≤ u * denom := up ▸ le_ceilDiv_mul positive
    have kept : (usdcAmount - d.sets) * denom + d.sets * denom = usdcAmount * denom := by
      rw [← Nat.add_mul, Nat.sub_add_cancel part]
    have claim : (r + p.lpFees) * usdcAmount < (u + (usdcAmount - d.sets) + 1) * denom := by
      have spread : usdcAmount * denom =
          usdcAmount * max p.yesReserve p.noReserve + p.lpFees * usdcAmount := by
        rw [whole]
        ring
      calc (r + p.lpFees) * usdcAmount = r * usdcAmount + p.lpFees * usdcAmount := by ring
        _ < u * denom + (usdcAmount - d.sets) * denom + denom := by omega
        _ = _ := by ring
    have more : (r + p.lpFees) * d.minted < (u + (usdcAmount - d.sets) + 1) * p.lpSupply :=
      mul_lt_of_rounded some_supply claim down
    calc (r + p.lpFees) * (p.lpSupply + d.minted)
        = (r + p.lpFees) * p.lpSupply + (r + p.lpFees) * d.minted := by ring
      _ < (r + p.lpFees) * p.lpSupply + (u + (usdcAmount - d.sets) + 1) * p.lpSupply :=
          Nat.add_lt_add_left more _
      _ = _ := by ring
  rw [pool]
  cases yes with
  | true => exact grown _ _ dx
  | false => exact grown _ _ dy

theorem deposit_alive {d : Deposit} (alive : Alive p)
    (done : deposit p usdcAmount minLpOut = .ok d) : Alive d.pool := by
  rcases deposit_spec done with ⟨denom, -, positive, -, -, -, minted, -, -, -, pool⟩
  have liquidity : 2 * d.minted ≤ p.liquidity * usdcAmount / denom := by
    rw [Nat.le_div_iff_mul_le positive, minted]
    calc 2 * (p.lpSupply * usdcAmount / denom) * denom
        = 2 * (p.lpSupply * usdcAmount / denom * denom) := by ring
      _ ≤ 2 * (p.lpSupply * usdcAmount) := Nat.mul_le_mul_left _ (Nat.div_mul_le_self _ _)
      _ = 2 * p.lpSupply * usdcAmount := by ring
      _ ≤ p.liquidity * usdcAmount := Nat.mul_le_mul_right _ alive.liquidity
  have old := alive.liquidity
  rw [pool]
  exact ⟨Nat.le_add_right_of_le alive.yes, Nat.le_add_right_of_le alive.no,
    Nat.le_add_right_of_le alive.supply, by simp only; omega⟩

/-! ### Withdrawals -/

/-- What is left of `r` after its share of `lpAmount` is taken out, rounded down. -/
theorem withdrawal_left (p : Pool) (r lpAmount : Nat) :
    r * (p.lpSupply - lpAmount) ≤ (r - r * lpAmount / p.lpSupply) * p.lpSupply := by
  rw [Nat.mul_sub, Nat.sub_mul]
  exact Nat.sub_le_sub_left (Nat.div_mul_le_self _ _) _

theorem withdrawal_reserve {d : Withdrawal} (done : withdrawal p lpAmount = .ok d)
    (yes : Bool) : p.reserve yes * d.pool.lpSupply ≤ d.pool.reserve yes * p.lpSupply := by
  rcases withdrawal_spec done with ⟨-, -, dx, dy, -, -, -, -, pool⟩
  rw [pool]
  cases yes with
  | true => exact dx ▸ withdrawal_left p p.yesReserve lpAmount
  | false => exact dy ▸ withdrawal_left p p.noReserve lpAmount

theorem withdrawal_claim {d : Withdrawal} (done : withdrawal p lpAmount = .ok d)
    (yes : Bool) : (p.reserve yes + p.lpFees) * d.pool.lpSupply ≤
      (d.pool.reserve yes + d.pool.lpFees) * p.lpSupply := by
  have reserve := withdrawal_reserve done yes
  rcases withdrawal_spec done with ⟨-, -, -, -, df, -, -, -, pool⟩
  have fees : p.lpFees * d.pool.lpSupply ≤ d.pool.lpFees * p.lpSupply := by
    rw [pool]
    exact df ▸ withdrawal_left p p.lpFees lpAmount
  rw [Nat.add_mul, Nat.add_mul]
  exact Nat.add_le_add reserve fees

theorem withdrawal_long {d : Withdrawal} (done : withdrawal p lpAmount = .ok d) :
    (max p.yesReserve p.noReserve + p.lpFees) * d.pool.lpSupply ≤
      (max d.pool.yesReserve d.pool.noReserve + d.pool.lpFees) * p.lpSupply := by
  rcases Nat.le_total p.yesReserve p.noReserve with shorter | shorter
  · rw [Nat.max_eq_right shorter]
    calc _ ≤ (d.pool.noReserve + d.pool.lpFees) * p.lpSupply := withdrawal_claim done false
      _ ≤ _ := Nat.mul_le_mul_right _ (Nat.add_le_add_right (Nat.le_max_right _ _) _)
  · rw [Nat.max_eq_left shorter]
    calc _ ≤ (d.pool.yesReserve + d.pool.lpFees) * p.lpSupply := withdrawal_claim done true
      _ ≤ _ := Nat.mul_le_mul_right _ (Nat.add_le_add_right (Nat.le_max_left _ _) _)

/-- A withdrawal that leaves the minimum supply leaves the pool alive: the liquidity
taken is at most the share of what is above two units for each share. -/
theorem withdrawal_alive {d : Withdrawal} (alive : Alive p)
    (done : withdrawal p lpAmount = .ok d) (minimum : minLp ≤ p.lpSupply - lpAmount) :
    Alive d.pool := by
  have left : 0 < p.lpSupply - lpAmount := Nat.lt_of_lt_of_le (by decide) minimum
  have reserve_pos : ∀ yes, 0 < d.pool.reserve yes := by
    intro yes
    have kept := withdrawal_reserve done yes
    rcases withdrawal_spec done with ⟨-, -, -, -, -, -, -, -, pool⟩
    have supply : d.pool.lpSupply = p.lpSupply - lpAmount := by rw [pool]
    have product : 0 < d.pool.reserve yes * p.lpSupply :=
      Nat.lt_of_lt_of_le (Nat.mul_pos (alive.reserve_pos yes) (supply ▸ left)) kept
    exact Nat.pos_of_mul_pos_right product
  rcases withdrawal_spec done with ⟨positive, burned, -, -, -, -, -, -, pool⟩
  have taken : (p.liquidity * lpAmount) ⌈/⌉ p.lpSupply ≤
      p.liquidity - 2 * (p.lpSupply - lpAmount) := by
    rw [ceilDiv_le_iff_le_mul positive]
    have parts : p.lpSupply - lpAmount + lpAmount = p.lpSupply := Nat.sub_add_cancel burned
    have room : 2 * (p.lpSupply - lpAmount) ≤ p.liquidity := by
      have := alive.liquidity
      omega
    have scaled : p.lpSupply * (2 * (p.lpSupply - lpAmount)) ≤
        p.liquidity * (p.lpSupply - lpAmount) := by
      calc p.lpSupply * (2 * (p.lpSupply - lpAmount))
          = 2 * p.lpSupply * (p.lpSupply - lpAmount) := by ring
        _ ≤ _ := Nat.mul_le_mul_right _ alive.liquidity
    have whole : p.liquidity * (p.lpSupply - lpAmount) + p.liquidity * lpAmount =
        p.lpSupply * p.liquidity := by
      rw [← Nat.mul_add, parts, Nat.mul_comm]
    rw [Nat.mul_sub]
    omega
  have old := alive.liquidity
  refine ⟨reserve_pos true, reserve_pos false, ?_, ?_⟩
  · rw [pool]
    exact minimum
  · rw [pool]
    simp only
    omega

/-! ### Pools of a run -/

variable {site : AmmSite} {m next : Market} {c : Bytes32}

theorem seeded_alive {amount closeTime : Nat} (enough : minLp ≤ amount) :
    Alive ⟨amount, amount, amount, true, amount * wad / phi0, 0, closeTime⟩ := by
  have positive : 1 ≤ amount := Nat.le_trans (by decide) enough
  refine ⟨positive, positive, enough, ?_⟩
  rw [Nat.le_div_iff_mul_le (by decide)]
  calc 2 * amount * phi0 = amount * (2 * phi0) := by ring
    _ ≤ amount * wad := Nat.mul_le_mul_left _ (by decide)

theorem alive_step (alive : ∀ c, (m.amm.pools c).exists = true → Alive (m.amm.pools c))
    {action : Market.Action} (done : Market.perform site m action = .ok next) :
    ∀ c, (next.amm.pools c).exists = true → Alive (next.amm.pools c) := by
  have updated : ∀ c p, next.amm.pools = Function.update m.amm.pools c p → Alive p →
      ∀ c, (next.amm.pools c).exists = true → Alive (next.amm.pools c) := by
    intro c p pools here c' live
    rw [pools] at live ⊢
    by_cases same : c' = c
    · subst same
      rw [Function.update_self]
      exact here
    · rw [Function.update_of_ne same] at live ⊢
      exact alive c' live
  rcases perform_cases done with same | ⟨c, provider, amount, seeds⟩ | ⟨c, trades⟩ |
    ⟨c, usdcAmount, minLpOut, deposits⟩ | ⟨msg, tx, c, lpAmount, -, withdraws⟩
  · intro c live
    rw [same.pools] at live ⊢
    exact alive c live
  · rcases seeds.pools with ⟨closeTime, pools⟩
    exact updated c _ pools (seeded_alive seeds.enough)
  · rcases trades.pools with ⟨yes, no, fees, pools, positive⟩
    have old := alive c trades.live
    rcases positive old.yes old.no with ⟨yesPos, noPos⟩
    exact updated c _ pools ⟨yesPos, noPos, old.supply, old.liquidity⟩
  · rcases deposits.change with ⟨d, planned, pools, -⟩
    exact updated c _ pools (deposit_alive (alive c deposits.live) planned)
  · rcases withdraws.change with ⟨d, planned, pools⟩
    exact updated c _ pools
      (withdrawal_alive (alive c withdraws.live) planned withdraws.minimum.2)

theorem reachable_alive (reached : Reachable (Market.Initial site) (Market.Step site) m) :
    ∀ c, (m.amm.pools c).exists = true → Alive (m.amm.pools c) := by
  apply reached.invariant
  · rintro s ⟨tokens, feeVault, operator, -, -, done⟩ c live
    simp only [deploy, bind_ok, require_ok, pure_ok, exists_const] at done
    rcases done with ⟨-, rfl⟩
    cases live
  · rintro s t alive ⟨action, -, done⟩
    exact alive_step alive done

end MarketAMM

open MarketAMM

variable {site : AmmSite} {m : Market}

/-- In every reachable state an existing pool has both reserves, the minimum supply and two
units of liquidity for each share, so the check for a pool passes. -/
theorem pool_stays_alive (reached : Reachable (Market.Initial site) (Market.Step site) m)
    (c : Bytes32) (live : (m.amm.pools c).exists = true) :
    (1 ≤ (m.amm.pools c).yesReserve ∧ 1 ≤ (m.amm.pools c).noReserve ∧
      2 * (m.amm.pools c).lpSupply ≤ (m.amm.pools c).liquidity ∧
      2 * minLp ≤ 2 * (m.amm.pools c).lpSupply) ∧
    require ((m.amm.pools c).exists ∧ (m.amm.pools c).liquidity > 0) (.reason "no pool") =
      .ok () := by
  have alive := reachable_alive reached c live
  have positive := alive.supply_pos
  have liquidity := alive.liquidity
  refine ⟨⟨alive.yes, alive.no, liquidity, Nat.mul_le_mul_left _ alive.supply⟩, ?_⟩
  rw [require_ok]
  exact ⟨live, by omega⟩

/-- The theorem after a seed and a purchase. -/
theorem pool_stays_alive_after_buy :
    ∃ m : Market, (m.amm.pools 7).exists = true ∧ 1 ≤ (m.amm.pools 7).yesReserve ∧
      2 * (m.amm.pools 7).lpSupply ≤ (m.amm.pools 7).liquidity := by
  let actions := Market.sampleListing 20000 ++
    [.amm (.sample 5) (.buyWithUSDC 7 true 1000 0)]
  have live : (actions.foldlM (Market.perform .sample) .sample).toOption.map
      (fun m => (m.amm.pools 7).exists) = some true := by
    decide +kernel
  rcases (ok_of_isOk (by decide +kernel) :
      ∃ m, actions.foldlM (Market.perform .sample) .sample = .ok m)
    with ⟨m, done⟩
  rw [done] at live
  have listed : (m.amm.pools 7).exists = true := Option.some.inj live
  have alive := pool_stays_alive (Market.sample_reachable (by decide) done) 7 listed
  exact ⟨m, listed, alive.1.1, alive.1.2.2.1⟩

/-- No deposit or withdrawal lowers what a share stands for: its part of either reserve,
its claim if the longer outcome wins and, on a withdrawal, if either wins. On a deposit the
claim on the shorter outcome loses less than one token in total. -/
theorem shares_undiluted (reached : Reachable (Market.Initial site) (Market.Step site) m)
    (msg : Msg) (c : Bytes32) :
    (∀ usdcAmount minLpOut minted next,
      addLiquidity site m msg c usdcAmount minLpOut = .ok (minted, next) →
      let p := m.amm.pools c
      let p' := next.amm.pools c
      (∀ yes, p.reserve yes * p'.lpSupply ≤ p'.reserve yes * p.lpSupply) ∧
      (max p.yesReserve p.noReserve + p.lpFees) * p'.lpSupply ≤
        (max p'.yesReserve p'.noReserve + p'.lpFees) * p.lpSupply ∧
      ∀ yes, (p.reserve yes + p.lpFees) * p'.lpSupply <
        (p'.reserve yes + p'.lpFees + 1) * p.lpSupply) ∧
    (∀ lpAmount out next, removeLiquidity site m msg c lpAmount = .ok (out, next) →
      let p := m.amm.pools c
      let p' := next.amm.pools c
      (∀ yes, p.reserve yes * p'.lpSupply ≤ p'.reserve yes * p.lpSupply) ∧
      (max p.yesReserve p.noReserve + p.lpFees) * p'.lpSupply ≤
        (max p'.yesReserve p'.noReserve + p'.lpFees) * p.lpSupply ∧
      ∀ yes, (p.reserve yes + p.lpFees) * p'.lpSupply ≤
        (p'.reserve yes + p'.lpFees) * p.lpSupply) := by
  constructor
  · intro usdcAmount minLpOut minted next done p p'
    have deposits := addLiquidity_spec done
    rcases deposits.change with ⟨d, planned, pools, -⟩
    have here : p' = d.pool := by
      simp only [p', pools, Function.update_self]
    rw [here]
    exact ⟨deposit_reserve planned, deposit_long planned,
      deposit_short (reachable_alive reached c deposits.live).supply_pos planned⟩
  · intro lpAmount out next done p p'
    rcases (removeLiquidity_spec done).change with ⟨d, planned, pools⟩
    have here : p' = d.pool := by
      simp only [p', pools, Function.update_self]
    rw [here]
    exact ⟨withdrawal_reserve planned, withdrawal_long planned, withdrawal_claim planned⟩

/-- The theorem on a deposit after a seed and a purchase. -/
theorem shares_undiluted_by_deposit :
    ∃ m next : Market, ∃ minted,
      addLiquidity .sample m (.sample 5) 7 5000 0 = .ok (minted, next) ∧
      (m.amm.pools 7).noReserve * (next.amm.pools 7).lpSupply ≤
        (next.amm.pools 7).noReserve * (m.amm.pools 7).lpSupply := by
  let actions := Market.sampleListing 20000 ++
    [.amm (.sample 5) (.buyWithUSDC 7 true 1000 0)]
  rcases (ok_of_isOk (by decide +kernel) : ∃ m, (actions ++ [Market.Action.amm
      (.sample 5) (.addLiquidity 7 5000 0)]).foldlM (Market.perform .sample) .sample = .ok m)
    with ⟨next, done⟩
  rw [List.foldlM_append, bind_ok] at done
  rcases done with ⟨m, listed, added⟩
  simp only [List.foldlM_cons, List.foldlM_nil, Market.perform, exec, bind_ok, pure_ok] at added
  rcases added with ⟨_, ⟨⟨minted, m'⟩, added, -⟩, -⟩
  have undiluted := shares_undiluted (Market.sample_reachable (by decide) listed) (.sample 5) 7
  exact ⟨m, m', minted, added, (undiluted.1 5000 0 minted m' added).1 false⟩

end OverUnder.Contracts
