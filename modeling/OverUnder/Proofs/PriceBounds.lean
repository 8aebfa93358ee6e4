/-
Module: OverUnder.Proofs.PriceBounds
Purpose: Where trades leave the price. Every pool keeps both reserves above the curve's
  floor for its liquidity, which makes up for the solver stopping short and for reserves
  that a purchase does not move.
Trusted boundary: none
Main exports: AboveFloor, buyReserves_bounds, sellReserves_bounds, reachable_aboveFloor,
  trades_keep_price_range
-/
import OverUnder.Proofs.CurveBounds
import OverUnder.Proofs.PoolShares

namespace OverUnder.Contracts

open OverUnder.Vyper
open OverUnder.Library
open NormalMath (wad curveFloor gCdf_sub_ge gCdf_ge le_uTradeMax_of_gCdf_le solveG_le)

namespace MarketAMM

/-- Both reserves are at least what the curve keeps at the ends of the price range. -/
def AboveFloor (p : Pool) : Prop := ∀ yes, p.liquidity * curveFloor ≤ p.reserve yes * wad

variable {p : Pool} {L : Nat}

/-! ### Purchases -/

section Buy

variable {rIn rOut sp c g0 p0 : Nat} {w0 : Int}

/-- What is above the curve on the bought side, beyond the surplus that both sides hold. -/
theorem surplus_le_reserve (some_liquidity : 0 < L)
    (located : w0 = (((rIn : Int) - rOut) * wad).tdiv L)
    (curve : NormalMath.gCdf w0 = .ok (g0, p0))
    (spared : sp = rIn - min rIn ((L * g0) ⌈/⌉ wad)) (bounded : (rIn - sp) * wad / L ≤ gTradeMax)
    (floor : L * curveFloor ≤ rOut * wad) :
    (L : Int) * (curveFloor - 1) ≤ ((rOut : Int) - sp) * wad := by
  rcases le_or_gt rIn ((L * g0) ⌈/⌉ wad) with short | long
  · have nothing : sp = 0 := by omega
    have kept : (L : Int) * curveFloor ≤ rOut * wad := by exact_mod_cast floor
    rw [nothing, mul_sub]
    push_cast
    linarith
  · have onCurve : rIn - sp = (L * g0) ⌈/⌉ wad := by omega
    have raised : L * g0 ≤ (rIn - sp) * wad := onCurve ▸ le_ceilDiv_mul (by decide)
    -- the pool stands at or below the bound before the trade
    have under : g0 ≤ gTradeMax :=
      ((Nat.le_div_iff_mul_le some_liquidity).2 (Nat.mul_comm L g0 ▸ raised)).trans bounded
    have opposite := gCdf_sub_ge curve (le_uTradeMax_of_gCdf_le curve under)
    have near : ((rIn : Int) - rOut) * wad < (w0 + 1) * L :=
      located ▸ lt_tdiv_add_one_mul _ some_liquidity
    have raised' : (L : Int) * g0 ≤ ((rIn : Int) - sp) * wad := by
      have covered : sp ≤ rIn := by omega
      calc (L : Int) * g0 ≤ ((rIn - sp : Nat) : Int) * wad := by exact_mod_cast raised
        _ = _ := by rw [Nat.cast_sub covered]
    have spread : (L : Int) * (w0 + curveFloor) ≤ L * g0 :=
      mul_le_mul_of_nonneg_left opposite (Int.natCast_nonneg L)
    linarith

end Buy

/-- A purchase keeps both reserves above the floor and the price below the bound. -/
theorem buyReserves_bounds {rIn rOut trade rInNew rOutNew : Nat}
    (done : buyReserves L rIn rOut trade = .ok (rInNew, rOutNew))
    (floorIn : L * curveFloor ≤ rIn * wad) (floorOut : L * curveFloor ≤ rOut * wad) :
    L * curveFloor ≤ rInNew * wad ∧ L * curveFloor ≤ rOutNew * wad ∧
      (((rInNew : Int) - rOutNew) * wad).tdiv L ≤ uTradeMax := by
  obtain ⟨some_liquidity, rfl, w0, g0, p0, sp, c, located, curve, spared, value, bounded,
    settled⟩ := buyReserves_spec done
  have grown : L * curveFloor ≤ (rIn + trade) * wad :=
    floorIn.trans (Nat.mul_le_mul_right _ (Nat.le_add_right rIn trade))
  have positive : 0 ≤ uTradeMax := by decide
  -- where the bought reserve stays, its own distance from the surplus bounds the price
  have unmoved : (((rIn + trade : Nat) : Int) - rOut) * wad < (uTradeMax + 1) * L := by
    have before : (rIn - sp) * wad / L ≤ gTradeMax := by
      have shorter : (rIn - sp) * wad ≤ (rIn + trade - sp) * wad :=
        Nat.mul_le_mul_right _ (by omega)
      exact (Nat.div_le_div_right shorter).trans (value ▸ bounded)
    have kept := surplus_le_reserve some_liquidity located curve spared before floorOut
    have checked : (rIn + trade - sp) * wad < (gTradeMax + 1) * L :=
      Nat.lt_mul_of_div_lt (Nat.lt_succ_of_le (value ▸ bounded)) some_liquidity
    have checked' : (((rIn + trade : Nat) : Int) - sp) * wad < (gTradeMax + 1) * L := by
      have covered : sp ≤ rIn + trade := by omega
      calc (((rIn + trade : Nat) : Int) - sp) * wad = ((rIn + trade - sp : Nat) : Int) * wad := by
            rw [Nat.cast_sub covered]
        _ < _ := by exact_mod_cast checked
    have floor_eq : (curveFloor : Int) - 1 = gTradeMax - uTradeMax + 1 := by decide
    rw [floor_eq] at kept
    linarith
  rcases settled with ⟨rises, w, r, solved, placed, rfl⟩ | ⟨-, rfl⟩
  · rcases Nat.le_total r rOut with moved | clipped
    · rw [Nat.min_eq_left moved]
      obtain ⟨g, q, curve', below⟩ := solveG_le curve rises.le solved
      have inside := le_uTradeMax_of_gCdf_le curve' (below.trans bounded)
      have onCurve := reserveAt_ok placed
      have value_le : L * g ≤ (rIn + trade) * wad := by
        calc L * g ≤ L * c := Nat.mul_le_mul_left _ below
          _ ≤ (rIn + trade - sp) * wad := by
              rw [value, Nat.mul_comm]
              exact Nat.div_mul_le_self _ _
          _ ≤ _ := Nat.mul_le_mul_right _ (Nat.sub_le _ _)
      refine ⟨grown, ?_, ?_⟩
      · have opposite : (L : Int) * (w + curveFloor) ≤ L * g :=
          mul_le_mul_of_nonneg_left (gCdf_sub_ge curve' inside) (Int.natCast_nonneg L)
        have value_le' : (L : Int) * g ≤ ((rIn + trade : Nat) : Int) * wad := by
          exact_mod_cast value_le
        have floored : (L : Int) * curveFloor ≤ r * wad := by linarith
        exact_mod_cast floored
      · apply tdiv_le_of_lt some_liquidity positive
        have limit : (L : Int) * w ≤ L * uTradeMax :=
          mul_le_mul_of_nonneg_left inside (Int.natCast_nonneg L)
        have some_liquidity' : (0 : Int) < L := by exact_mod_cast some_liquidity
        linarith
    · rw [Nat.min_eq_right clipped]
      exact ⟨grown, floorOut, tdiv_le_of_lt some_liquidity positive unmoved⟩
  · exact ⟨grown, floorOut, tdiv_le_of_lt some_liquidity positive unmoved⟩

theorem buyQuote_bounds {buyYes : Bool} {usdcIn : Nat} {q : BuyQuote} (floor : AboveFloor p)
    (done : buyQuote p buyYes usdcIn = .ok q) :
    (∀ yes, p.liquidity * curveFloor ≤ q.reserve yes * wad) ∧
      (((q.reserve !buyYes : Int) - q.reserve buyYes) * wad).tdiv p.liquidity ≤ uTradeMax := by
  obtain ⟨-, -, -, -, moved, -, -⟩ := buyQuote_spec done
  obtain ⟨floorIn, floorOut, price⟩ := buyReserves_bounds moved (floor !buyYes) (floor buyYes)
  refine ⟨?_, price⟩
  intro yes
  rcases Bool.eq_or_eq_not yes buyYes with bought | other
  · exact bought ▸ floorOut
  · exact other ▸ floorIn

/-! ### Sales -/

/-- A sale keeps both reserves above the floor, and moves the coordinate by exactly the
tokens sold. -/
theorem sellReserves_bounds {rSame rOther s rSameNew rOtherNew m : Nat}
    (done : sellReserves L rSame rOther s = .ok (rSameNew, rOtherNew, m))
    (floorSame : L * curveFloor ≤ rSame * wad) :
    L * curveFloor ≤ rSameNew * wad ∧ L * curveFloor ≤ rOtherNew * wad ∧
      -uTradeMax - 1 ≤ (((rOtherNew : Int) - rSameNew) * wad).tdiv L := by
  obtain ⟨some_liquidity, wo, go, po, sp, wn, gw, pw, -, -, -, located, bounded, curve, room,
    sets, rfl, rfl⟩ := sellReserves_spec done
  have raised := gCdf_ge curve bounded
  have few : m ≤ s := sets ▸ Nat.min_le_right _ _
  have kept : (L * gw) ⌈/⌉ wad ≤ rOther - m := by
    clear located bounded
    omega
  refine ⟨?_, ?_, ?_⟩
  · calc L * curveFloor ≤ rSame * wad := floorSame
      _ ≤ (rSame + s - m) * wad :=
          Nat.mul_le_mul_right _ (Nat.le_sub_of_add_le (Nat.add_le_add_left few rSame))
  · calc L * curveFloor ≤ L * gw := Nat.mul_le_mul_left _ raised
      _ ≤ (L * gw) ⌈/⌉ wad * wad := le_ceilDiv_mul (by decide)
      _ ≤ (rOther - m) * wad := Nat.mul_le_mul_right _ kept
  · have moved : (((rOther - m : Nat) : Int) - (rSame + s - m : Nat)) = rOther - rSame - s := by
      clear located bounded
      omega
    rw [moved, sub_le_iff_le_add]
    exact located ▸ bounded

theorem sellQuote_bounds {sellYes : Bool} {s : Nat} {q : SellQuote} (floor : AboveFloor p)
    (done : sellQuote p sellYes s = .ok q) :
    (∀ yes, p.liquidity * curveFloor ≤ q.reserve yes * wad) ∧
      -uTradeMax - 1 ≤
        (((q.reserve !sellYes : Int) - q.reserve sellYes) * wad).tdiv p.liquidity := by
  obtain ⟨-, moved, -, -, -, -⟩ := sellQuote_spec done
  obtain ⟨floorSame, floorOther, price⟩ := sellReserves_bounds moved (floor sellYes)
  refine ⟨?_, price⟩
  intro yes
  rcases Bool.eq_or_eq_not yes sellYes with sold | other
  · exact sold ▸ floorSame
  · exact other ▸ floorOther

/-! ### Pools of a run -/

theorem deposit_aboveFloor {usdcAmount minLpOut : Nat} {d : Deposit} (floor : AboveFloor p)
    (done : deposit p usdcAmount minLpOut = .ok d) : AboveFloor d.pool := by
  rcases deposit_spec done with ⟨denom, -, positive, -, dx, dy, -, -, -, -, pool⟩
  have below : (p.liquidity + p.liquidity * usdcAmount / denom) * denom ≤
      p.liquidity * (denom + usdcAmount) := by
    rw [Nat.add_mul, Nat.mul_add]
    exact Nat.add_le_add_left (Nat.div_mul_le_self _ _) _
  have grown : ∀ r u, u = (r * usdcAmount) ⌈/⌉ denom →
      r * (denom + usdcAmount) ≤ (r + u) * denom := by
    intro r u up
    rw [Nat.mul_add, Nat.add_mul]
    exact Nat.add_le_add_left (up ▸ le_ceilDiv_mul positive) _
  intro yes
  rw [pool]
  cases yes with
  | true => exact ratio_le_of_rounded positive below (grown _ _ dx) (floor true)
  | false => exact ratio_le_of_rounded positive below (grown _ _ dy) (floor false)

theorem withdrawal_aboveFloor {lpAmount : Nat} {d : Withdrawal} (floor : AboveFloor p)
    (done : withdrawal p lpAmount = .ok d) : AboveFloor d.pool := by
  rcases withdrawal_spec done with ⟨positive, burned, dx, dy, -, -, -, -, pool⟩
  have below : (p.liquidity - min ((p.liquidity * lpAmount) ⌈/⌉ p.lpSupply) p.liquidity) *
      p.lpSupply ≤ p.liquidity * (p.lpSupply - lpAmount) := by
    have taken : p.liquidity * lpAmount ≤ (p.liquidity * lpAmount) ⌈/⌉ p.lpSupply * p.lpSupply :=
      le_ceilDiv_mul positive
    have whole : p.liquidity * lpAmount ≤ p.liquidity * p.lpSupply :=
      Nat.mul_le_mul_left _ burned
    rw [Nat.sub_mul, Nat.mul_sub, ← Nat.mul_min_mul_right]
    exact Nat.sub_le_sub_left (Nat.le_min.2 ⟨taken, whole⟩) _
  intro yes
  rw [pool]
  cases yes with
  | true =>
      exact ratio_le_of_rounded positive below (dx ▸ withdrawal_left p p.yesReserve lpAmount)
        (floor true)
  | false =>
      exact ratio_le_of_rounded positive below (dy ▸ withdrawal_left p p.noReserve lpAmount)
        (floor false)

theorem seeded_aboveFloor (amount closeTime : Nat) :
    AboveFloor ⟨amount, amount, amount, true, amount * wad / phi0, 0, closeTime⟩ := by
  have floor : amount * wad / phi0 * curveFloor ≤ amount * wad := by
    calc amount * wad / phi0 * curveFloor ≤ amount * wad / phi0 * phi0 :=
          Nat.mul_le_mul_left _ (by decide)
      _ ≤ amount * wad := Nat.div_mul_le_self _ _
  intro yes
  cases yes with
  | true => exact floor
  | false => exact floor

variable {site : AmmSite} {m next : Market} {msg : Msg} {c : Bytes32}

/-- A purchase replaces the reserves by those of its quote. -/
theorem buyWithUSDC_quote {buyYes : Bool} {usdcIn minOut out : Nat}
    (done : buyWithUSDC site m msg c buyYes usdcIn minOut = .ok (out, next)) :
    ∃ q lpFees, buyQuote (m.amm.pools c) buyYes usdcIn = .ok q ∧
      next.amm.pools = Function.update m.amm.pools c
        { m.amm.pools c with yesReserve := q.newYes, noReserve := q.newNo, lpFees } := by
  simp only [buyWithUSDC, bind_ok, require_ok, uadd_ok, usub_ok, pure_ok, Prod.mk.injEq,
    exists_const] at done
  rcases done with ⟨-, -, _, -, q, quoted, -, _, ⟨-, rfl⟩, _, ⟨-, rfl⟩, _, ⟨-, rfl⟩, t1, -, t2,
    -, t3, -, t4, -, rfl, rfl⟩
  exact ⟨q, _, quoted, rfl⟩

theorem sellToUSDC_quote {sellYes : Bool} {tokenAmount minUsdc out : Nat}
    (done : sellToUSDC site m msg c sellYes tokenAmount minUsdc = .ok (out, next)) :
    ∃ q lpFees, sellQuote (m.amm.pools c) sellYes tokenAmount = .ok q ∧
      next.amm.pools = Function.update m.amm.pools c
        { m.amm.pools c with yesReserve := q.newYes, noReserve := q.newNo, lpFees } := by
  simp only [sellToUSDC, bind_ok, require_ok, uadd_ok, pure_ok, Prod.mk.injEq,
    exists_const] at done
  rcases done with ⟨-, -, _, -, q, quoted, -, _, ⟨-, rfl⟩, t1, -, t2, -, t3, -, t4, -, rfl, rfl⟩
  exact ⟨q, _, quoted, rfl⟩

theorem update_aboveFloor (floor : ∀ c, AboveFloor (m.amm.pools c)) {p' : Pool}
    (pools : next.amm.pools = Function.update m.amm.pools c p') (here : AboveFloor p') :
    ∀ c, AboveFloor (next.amm.pools c) := by
  intro c'
  rw [pools]
  by_cases same : c' = c
  · subst same
    rwa [Function.update_self]
  · rw [Function.update_of_ne same]
    exact floor c'

theorem buy_aboveFloor {buyYes : Bool} {usdcIn minOut out : Nat}
    (floor : ∀ c, AboveFloor (m.amm.pools c))
    (done : buyWithUSDC site m msg c buyYes usdcIn minOut = .ok (out, next)) :
    ∀ c, AboveFloor (next.amm.pools c) := by
  rcases buyWithUSDC_quote done with ⟨q, lpFees, quoted, pools⟩
  refine update_aboveFloor floor pools fun yes => ?_
  have kept := (buyQuote_bounds (floor c) quoted).1 yes
  cases yes with
  | true => exact kept
  | false => exact kept

theorem sell_aboveFloor {sellYes : Bool} {tokenAmount minUsdc out : Nat}
    (floor : ∀ c, AboveFloor (m.amm.pools c))
    (done : sellToUSDC site m msg c sellYes tokenAmount minUsdc = .ok (out, next)) :
    ∀ c, AboveFloor (next.amm.pools c) := by
  rcases sellToUSDC_quote done with ⟨q, lpFees, quoted, pools⟩
  refine update_aboveFloor floor pools fun yes => ?_
  have kept := (sellQuote_bounds (floor c) quoted).1 yes
  cases yes with
  | true => exact kept
  | false => exact kept

theorem exec_aboveFloor {tx : Tx} (floor : ∀ c, AboveFloor (m.amm.pools c))
    (done : exec site m msg tx = .ok next) : ∀ c, AboveFloor (next.amm.pools c) := by
  have seeded : ∀ {c provider amount}, Seeds m next c provider amount →
      ∀ c, AboveFloor (next.amm.pools c) := by
    intro c provider amount seeds
    rcases seeds.pools with ⟨closeTime, pools⟩
    exact update_aboveFloor floor pools (seeded_aboveFloor amount closeTime)
  cases tx with
  | setFactory factory =>
      simp only [exec, setFactory, bind_ok, require_ok, pure_ok, exists_const] at done
      rcases done with ⟨amm, ⟨-, rfl⟩, rfl⟩
      exact floor
  | setCloseGate enabled =>
      simp only [exec, setCloseGate, bind_ok, require_ok, pure_ok, exists_const] at done
      rcases done with ⟨amm, ⟨-, rfl⟩, rfl⟩
      exact floor
  | seedPool c usdcAmount => exact seeded (seed_spec done)
  | seedPoolFor c usdcAmount provider => exact seeded (seed_spec done)
  | buyWithUSDC c buyYes usdcIn minOut =>
      simp only [exec, bind_ok, pure_ok] at done
      rcases done with ⟨⟨out, m'⟩, done, rfl⟩
      exact buy_aboveFloor floor done
  | sellToUSDC c sellYes tokenAmount minUsdc =>
      simp only [exec, bind_ok, pure_ok] at done
      rcases done with ⟨⟨out, m'⟩, done, rfl⟩
      exact sell_aboveFloor floor done
  | addLiquidity c usdcAmount minLpOut =>
      simp only [exec, bind_ok, pure_ok] at done
      rcases done with ⟨⟨minted, m'⟩, done, rfl⟩
      rcases (addLiquidity_spec done).change with ⟨d, planned, pools, -⟩
      exact update_aboveFloor floor pools (deposit_aboveFloor (floor c) planned)
  | removeLiquidity c lpAmount =>
      simp only [exec, bind_ok, pure_ok] at done
      rcases done with ⟨⟨out, m'⟩, done, rfl⟩
      rcases (removeLiquidity_spec done).change with ⟨d, planned, pools⟩
      exact update_aboveFloor floor pools (withdrawal_aboveFloor (floor c) planned)

theorem reachable_aboveFloor
    (reached : Reachable (Market.Initial site) (Market.Step site) m) :
    ∀ c, AboveFloor (m.amm.pools c) := by
  apply reached.invariant
  · rintro s ⟨tokens, feeVault, operator, -, -, done⟩ c yes
    simp only [deploy, bind_ok, require_ok, pure_ok, exists_const] at done
    rcases done with ⟨-, rfl⟩
    change 0 * curveFloor ≤ _
    rw [Nat.zero_mul]
    exact Nat.zero_le _
  · rintro s t floor ⟨action, -, done⟩
    cases action with
    | tokens sender tx =>
        simp only [Market.perform, bind_ok, pure_ok] at done
        rcases done with ⟨tokens, -, rfl⟩
        exact floor
    | amm msg tx => exact exec_aboveFloor floor done

end MarketAMM

open MarketAMM

variable {site : AmmSite} {m : Market}

/-- Trades end inside the price range in their own direction: in every reachable state a
purchase leaves the coordinate of the bought outcome at or below the upper end, and a sale
leaves that of the sold one at most a unit below the lower end. -/
theorem trades_keep_price_range
    (reached : Reachable (Market.Initial site) (Market.Step site) m) (msg : Msg) (c : Bytes32) :
    (∀ buyYes usdcIn minOut out next,
      buyWithUSDC site m msg c buyYes usdcIn minOut = .ok (out, next) →
      let p' := next.amm.pools c
      (((p'.reserve !buyYes : Int) - p'.reserve buyYes) * wad).tdiv p'.liquidity ≤ uTradeMax) ∧
    (∀ sellYes tokenAmount minUsdc out next,
      sellToUSDC site m msg c sellYes tokenAmount minUsdc = .ok (out, next) →
      let p' := next.amm.pools c
      (((p'.reserve !sellYes : Int) - p'.reserve sellYes) * wad).tdiv p'.liquidity ≥
        -uTradeMax - 1) := by
  have floor := reachable_aboveFloor reached c
  constructor
  · intro buyYes usdcIn minOut out next done p'
    rcases buyWithUSDC_quote done with ⟨q, lpFees, quoted, pools⟩
    have price := (buyQuote_bounds floor quoted).2
    simp only [p', pools, Function.update_self]
    cases buyYes with
    | true => exact price
    | false => exact price
  · intro sellYes tokenAmount minUsdc out next done p'
    rcases sellToUSDC_quote done with ⟨q, lpFees, quoted, pools⟩
    have price := (sellQuote_bounds floor quoted).2
    simp only [p', pools, Function.update_self]
    cases sellYes with
    | true => exact price
    | false => exact price

/-- The theorem on a second purchase after a seed and a purchase. -/
theorem trades_keep_price_range_after_buy :
    ∃ m next : Market, ∃ out,
      buyWithUSDC .sample m (.sample 5) 7 true 5000 0 = .ok (out, next) ∧
      ((((next.amm.pools 7).noReserve : Int) - (next.amm.pools 7).yesReserve) * wad).tdiv
        (next.amm.pools 7).liquidity ≤ uTradeMax := by
  let actions := Market.sampleListing 20000 ++
    [.amm (.sample 5) (.buyWithUSDC 7 true 1000 0)]
  rcases (ok_of_isOk (by decide +kernel) : ∃ m, (actions ++ [Market.Action.amm
      (.sample 5) (.buyWithUSDC 7 true 5000 0)]).foldlM (Market.perform .sample) .sample = .ok m)
    with ⟨next, done⟩
  rw [List.foldlM_append, bind_ok] at done
  rcases done with ⟨m, listed, bought⟩
  simp only [List.foldlM_cons, List.foldlM_nil, Market.perform, exec, bind_ok, pure_ok] at bought
  rcases bought with ⟨_, ⟨⟨out, m'⟩, bought, -⟩, -⟩
  have bounds := trades_keep_price_range (Market.sample_reachable (by decide) listed) (.sample 5) 7
  exact ⟨m, m', out, bought, bounds.1 true 5000 0 out m' bought⟩

end OverUnder.Contracts
