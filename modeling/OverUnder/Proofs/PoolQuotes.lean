/-
Module: OverUnder.Proofs.PoolQuotes
Purpose: The pool arithmetic that trades, deposits and withdrawals share, as
  equations. Trades are stated for the bought or sold outcome and the other one,
  so that both orientations of a pool are one case.
Trusted boundary: none
Main exports: Pool.reserve, mulDiv_ok, mulDivUp_ok, coordinate_ok,
  buyReserves_spec, buyQuote_spec, sellReserves_spec, sellQuote_spec,
  deposit_spec, deposit_covers, withdrawal_spec
-/
import Mathlib
import OverUnder.Contracts.MarketAMM

namespace OverUnder.Contracts

open OverUnder.Vyper
open NormalMath (wad)

/-- The reserve of one outcome. -/
def Pool.reserve (p : Pool) (yes : Bool) : Nat := if yes then p.yesReserve else p.noReserve

namespace MarketAMM

/-- The new reserve of one outcome. -/
def BuyQuote.reserve (q : BuyQuote) (yes : Bool) : Nat := if yes then q.newYes else q.newNo

/-- The new reserve of one outcome. -/
def SellQuote.reserve (q : SellQuote) (yes : Bool) : Nat := if yes then q.newYes else q.newNo

/-! ### Rounded products -/

theorem mulDiv_ok {a b d x : Nat} :
    mulDiv a b d = .ok x ↔ a * b < wordSize ∧ d ≠ 0 ∧ x = a * b / d := by
  simp only [mulDiv, bind_ok, umul_ok, udiv_ok]
  constructor
  · rintro ⟨product, ⟨fits, rfl⟩, nonzero, rfl⟩
    exact ⟨fits, nonzero, rfl⟩
  · rintro ⟨fits, nonzero, rfl⟩
    exact ⟨_, ⟨fits, rfl⟩, nonzero, rfl⟩

/-- `(a * b + d - 1) // d` is the quotient rounded up. -/
theorem mulDivUp_ok {a b d x : Nat} (done : mulDivUp a b d = .ok x) :
    0 < d ∧ x = (a * b) ⌈/⌉ d := by
  simp only [mulDivUp, bind_ok, umul_ok, uadd_ok, usub_ok, udiv_ok] at done
  obtain ⟨_, ⟨-, rfl⟩, _, ⟨-, rfl⟩, _, ⟨-, rfl⟩, nonzero, rfl⟩ := done
  exact ⟨Nat.pos_of_ne_zero nonzero, rfl⟩

theorem signedGap_ok {a b : Nat} {gap : Int} (done : signedGap a b = .ok gap) :
    gap = (a : Int) - b := by
  simp only [signedGap, bind_ok, toInt256_ok, isub_ok] at done
  obtain ⟨_, ⟨-, rfl⟩, _, ⟨-, rfl⟩, -, rfl⟩ := done
  rfl

theorem coordinate_ok {gap w : Int} {L : Nat} (done : coordinate gap L = .ok w) :
    0 < L ∧ w = (gap * wad).tdiv L := by
  simp only [coordinate, bind_ok, imul_ok, toInt256_ok, idiv_ok] at done
  obtain ⟨_, ⟨-, rfl⟩, _, ⟨-, rfl⟩, nonzero, -, rfl⟩ := done
  exact ⟨by omega, rfl⟩

theorem surplus_ok {L r g sp : Nat} (done : surplus L r g = .ok sp) :
    sp = r - min r ((L * g) ⌈/⌉ wad) := by
  simp only [surplus, bind_ok, usub_ok] at done
  obtain ⟨_, onCurve, -, rfl⟩ := done
  rw [(mulDivUp_ok onCurve).2]

/-! ### Trades -/

/-- `reserveAt` is `r_in_new - L*w` rounded up. -/
theorem reserveAt_ok {L rInNew r : Nat} {w : Int} (done : reserveAt L rInNew w = .ok r) :
    (rInNew : Int) * wad - L * w ≤ r * wad := by
  have wadPos : 0 < wad := by decide
  unfold reserveAt at done
  split at done
  · next nonneg =>
    simp only [bind_ok, toUint256_ok, mulDiv_ok, usub_ok] at done
    obtain ⟨_, ⟨-, rfl⟩, _, ⟨-, -, rfl⟩, covered, rfl⟩ := done
    have below : L * w.toNat / wad * wad ≤ L * w.toNat := Nat.div_mul_le_self _ _
    have below' : ((L * w.toNat / wad : Nat) : Int) * wad ≤ L * w := by
      calc ((L * w.toNat / wad : Nat) : Int) * wad ≤ ((L * w.toNat : Nat) : Int) := by
            exact_mod_cast below
        _ = L * w := by rw [Nat.cast_mul, Int.toNat_of_nonneg nonneg]
    rw [Nat.cast_sub covered, sub_mul]
    omega
  · next negative =>
    simp only [bind_ok, isub_ok, toUint256_ok, uadd_ok] at done
    obtain ⟨_, ⟨-, rfl⟩, _, ⟨nonneg, rfl⟩, shift, raised, -, rfl⟩ := done
    obtain ⟨-, rfl⟩ := mulDivUp_ok raised
    have above : L * (0 - w).toNat ≤ wad * ((L * (0 - w).toNat) ⌈/⌉ wad) :=
      le_smul_ceilDiv wadPos
    have above' : (L : Int) * (0 - w) ≤ wad * ((L * (0 - w).toNat) ⌈/⌉ wad : Nat) := by
      calc (L : Int) * (0 - w) = ((L * (0 - w).toNat : Nat) : Int) := by
            rw [Nat.cast_mul, Int.toNat_of_nonneg nonneg]
        _ ≤ wad * ((L * (0 - w).toNat) ⌈/⌉ wad : Nat) := by exact_mod_cast above
    rw [Nat.cast_add, add_mul]
    linarith

/-- A buy moves the opposite reserve up by the trade and the bought one to where the
solver puts it, never up. -/
theorem buyReserves_spec {L rIn rOut trade rInNew rOutNew : Nat}
    (done : buyReserves L rIn rOut trade = .ok (rInNew, rOutNew)) :
    0 < L ∧ rInNew = rIn + trade ∧
      ∃ w0 g0 p0 sp c, w0 = (((rIn : Int) - rOut) * wad).tdiv L ∧
        NormalMath.gCdf w0 = .ok (g0, p0) ∧ sp = rIn - min rIn ((L * g0) ⌈/⌉ wad) ∧
        c = (rInNew - sp) * wad / L ∧ c ≤ gTradeMax ∧
        (g0 < c ∧ (∃ w r, NormalMath.solveG c w0 g0 p0 = .ok w ∧
            reserveAt L rInNew w = .ok r ∧ rOutNew = min r rOut) ∨
          c ≤ g0 ∧ rOutNew = rOut) := by
  simp only [buyReserves, bind_ok, uadd_ok, usub_ok, mulDiv_ok, require_ok, Prod.exists,
    exists_const] at done
  obtain ⟨_, ⟨-, rfl⟩, gap, gapped, w0, located, g0, p0, curve, sp, kept, _, ⟨-, rfl⟩, c,
    ⟨-, -, rfl⟩, bounded, settled⟩ := done
  obtain rfl := signedGap_ok gapped
  obtain ⟨positive, rfl⟩ := coordinate_ok located
  have spared := surplus_ok kept
  split at settled
  · next rises =>
    simp only [bind_ok, pure_ok, Prod.mk.injEq] at settled
    obtain ⟨w, solved, r, placed, rfl, rfl⟩ := settled
    exact ⟨positive, rfl, _, g0, p0, sp, _, rfl, curve, spared, rfl, bounded,
      .inl ⟨rises, w, r, solved, placed, rfl⟩⟩
  · next stays =>
    simp only [pure_ok, Prod.mk.injEq] at settled
    obtain ⟨rfl, rfl⟩ := settled
    exact ⟨positive, rfl, _, g0, p0, sp, _, rfl, curve, spared, rfl, bounded,
      .inr ⟨by omega, rfl⟩⟩

theorem buyReserves_le {L rIn rOut trade rInNew rOutNew : Nat}
    (done : buyReserves L rIn rOut trade = .ok (rInNew, rOutNew)) : rOutNew ≤ rOut := by
  obtain ⟨-, -, _, _, _, _, _, -, -, -, -, -, ⟨-, _, _, -, -, rfl⟩ | ⟨-, rfl⟩⟩ :=
    buyReserves_spec done
  · exact Nat.min_le_right _ _
  · exact Nat.le_refl _

/-- A successful quote splits the input into two fees and the trade, and pays the
trade plus what the bought reserve gives up. -/
theorem buyQuote_spec {p : Pool} {buyYes : Bool} {usdcIn : Nat} {q : BuyQuote}
    (done : buyQuote p buyYes usdcIn = .ok q) :
    p.exists = true ∧ fee usdcIn vaultFeeBps = .ok q.vaultFee ∧
      fee usdcIn lpFeeBps = .ok q.lpFee ∧ q.vaultFee + q.lpFee < usdcIn ∧
      buyReserves p.liquidity (p.reserve !buyYes) (p.reserve buyYes)
        (usdcIn - q.vaultFee - q.lpFee) = .ok (q.reserve !buyYes, q.reserve buyYes) ∧
      0 < q.reserve buyYes ∧
      q.tokensOut = usdcIn - q.vaultFee - q.lpFee + (p.reserve buyYes - q.reserve buyYes) := by
  simp only [buyQuote, bind_ok, require_ok, uadd_ok, usub_ok, Prod.exists, exists_const]
    at done
  obtain ⟨⟨live, -⟩, vaultFee, vault, lpFee, lp, _, ⟨-, rfl⟩, dust, _, ⟨-, rfl⟩, _, ⟨-, rfl⟩,
    rInNew, rOutNew, moved, positive, _, ⟨-, rfl⟩, _, ⟨-, rfl⟩, quoted⟩ := done
  cases buyYes <;> simp only [if_true, if_false, Bool.false_eq_true, pure_ok] at moved quoted <;>
    subst quoted <;>
    exact ⟨live, vault, lp, dust, moved, positive, rfl⟩

/-- A sell merges `m` sets, at most the tokens sold and at most what brings the other
reserve to one above the curve and the old surplus. -/
theorem sellReserves_spec {L rSame rOther s rSameNew rOtherNew m : Nat}
    (done : sellReserves L rSame rOther s = .ok (rSameNew, rOtherNew, m)) :
    0 < L ∧ ∃ wo go po sp wn gw pw, wo = (((rOther : Int) - rSame) * wad).tdiv L ∧
      NormalMath.gCdf wo = .ok (go, po) ∧ sp = rOther - min rOther ((L * go) ⌈/⌉ wad) ∧
      wn = (((rOther : Int) - rSame - s) * wad).tdiv L + 1 ∧ -uTradeMax ≤ wn ∧
      NormalMath.gCdf wn = .ok (gw, pw) ∧ (L * gw) ⌈/⌉ wad + 1 + sp < rOther ∧
      m = min (rOther - ((L * gw) ⌈/⌉ wad + 1 + sp)) s ∧
      rOtherNew = rOther - m ∧ rSameNew = rSame + s - m := by
  simp only [sellReserves, bind_ok, uadd_ok, usub_ok, isub_ok, iadd_ok, toInt256_ok,
    require_ok, Prod.exists, exists_const] at done
  obtain ⟨gap, gapped, wo, located, go, po, curve, sp, kept, _, ⟨-, rfl⟩, _, ⟨-, rfl⟩, w,
    relocated, _, ⟨-, rfl⟩, bounded, gw, pw, curveNew, onCurve, raised, _, ⟨-, rfl⟩, _,
    ⟨-, rfl⟩, dust, _, ⟨-, rfl⟩, settled⟩ := done
  obtain rfl := signedGap_ok gapped
  obtain ⟨positive, rfl⟩ := coordinate_ok located
  obtain ⟨-, rfl⟩ := coordinate_ok relocated
  have spared := surplus_ok kept
  obtain ⟨-, rfl⟩ := mulDivUp_ok raised
  refine ⟨positive, _, go, po, sp, _, gw, pw, rfl, curve, spared, rfl, bounded, curveNew,
    dust, ?_⟩
  split at settled
  · next clipped =>
    simp only [bind_ok, uadd_ok, usub_ok, pure_ok, Prod.mk.injEq] at settled
    obtain ⟨_, ⟨-, rfl⟩, _, ⟨-, rfl⟩, _, ⟨-, rfl⟩, rfl, rfl, rfl⟩ := settled
    exact ⟨by omega, rfl, rfl⟩
  · next whole =>
    simp only [bind_ok, uadd_ok, usub_ok, pure_ok, Prod.mk.injEq] at settled
    obtain ⟨_, ⟨-, rfl⟩, _, ⟨-, rfl⟩, rfl, rfl, rfl⟩ := settled
    exact ⟨by omega, by omega, rfl⟩

theorem sellQuote_spec {p : Pool} {sellYes : Bool} {s : Nat} {q : SellQuote}
    (done : sellQuote p sellYes s = .ok q) :
    p.exists = true ∧
      sellReserves p.liquidity (p.reserve sellYes) (p.reserve !sellYes) s =
        .ok (q.reserve sellYes, q.reserve !sellYes, q.merged) ∧
      fee q.merged vaultFeeBps = .ok q.vaultFee ∧ fee q.merged lpFeeBps = .ok q.lpFee ∧
      q.vaultFee + q.lpFee < q.merged ∧ q.usdcOut = q.merged - q.vaultFee - q.lpFee := by
  simp only [sellQuote, bind_ok, require_ok, uadd_ok, usub_ok, Prod.exists, exists_const]
    at done
  obtain ⟨⟨live, -⟩, rSameNew, rOtherNew, m, moved, vaultFee, vault, lpFee, lp, _, ⟨-, rfl⟩,
    dust, _, ⟨-, rfl⟩, _, ⟨-, rfl⟩, quoted⟩ := done
  cases sellYes <;> simp only [if_true, if_false, Bool.false_eq_true, pure_ok] at moved quoted <;>
    subst quoted <;>
    exact ⟨live, moved, vault, lp, dust, rfl⟩

/-! ### Deposits and withdrawals -/

/-- A deposit scales every part of the pool by the same ratio, reserves rounded up,
liquidity and shares rounded down. -/
theorem deposit_spec {p : Pool} {usdcAmount minLpOut : Nat} {d : Deposit}
    (done : deposit p usdcAmount minLpOut = .ok d) :
    ∃ denom, denom = max p.yesReserve p.noReserve + p.lpFees ∧ 0 < denom ∧
      d.sets = (usdcAmount * max p.yesReserve p.noReserve) ⌈/⌉ denom ∧
      d.dx = (p.yesReserve * usdcAmount) ⌈/⌉ denom ∧
      d.dy = (p.noReserve * usdcAmount) ⌈/⌉ denom ∧
      d.minted = p.lpSupply * usdcAmount / denom ∧ 0 < d.minted ∧ minLpOut ≤ d.minted ∧
      d.sets ≤ usdcAmount ∧
      d.pool = { p with
        yesReserve := p.yesReserve + d.dx
        noReserve := p.noReserve + d.dy
        lpSupply := p.lpSupply + d.minted
        liquidity := p.liquidity + p.liquidity * usdcAmount / denom
        lpFees := p.lpFees + (usdcAmount - d.sets) } := by
  simp only [deposit, bind_ok, uadd_ok, usub_ok, mulDiv_ok, require_ok, pure_ok,
    exists_const] at done
  obtain ⟨_, ⟨-, rfl⟩, sets, split, dx, long, dy, short, minted, ⟨-, -, rfl⟩, positive,
    enough, _, ⟨-, rfl⟩, _, ⟨-, rfl⟩, _, ⟨-, nonzero, rfl⟩, _, ⟨-, rfl⟩, _, ⟨part, rfl⟩, _,
    ⟨-, rfl⟩, _, ⟨-, rfl⟩, rfl⟩ := done
  exact ⟨_, rfl, Nat.pos_of_ne_zero nonzero, (mulDivUp_ok split).2, (mulDivUp_ok long).2,
    (mulDivUp_ok short).2, rfl, positive, enough, part, rfl⟩

/-- The sets split for a deposit cover both legs, each reserve being at most the longer
one. -/
theorem deposit_covers {p : Pool} {usdcAmount minLpOut : Nat} {d : Deposit}
    (done : deposit p usdcAmount minLpOut = .ok d) : d.dx ≤ d.sets ∧ d.dy ≤ d.sets := by
  obtain ⟨denom, -, positive, sets, dx, dy, -⟩ := deposit_spec done
  have covers : ∀ r, r ≤ max p.yesReserve p.noReserve → (r * usdcAmount) ⌈/⌉ denom ≤ d.sets := by
    intro r shorter
    rw [sets, ceilDiv_le_iff_le_mul positive]
    calc r * usdcAmount ≤ usdcAmount * max p.yesReserve p.noReserve := by
          rw [Nat.mul_comm]
          exact Nat.mul_le_mul_left _ shorter
      _ ≤ _ := le_smul_ceilDiv positive
  exact ⟨dx ▸ covers _ (Nat.le_max_left _ _), dy ▸ covers _ (Nat.le_max_right _ _)⟩

/-- A withdrawal takes the same share of every part of the pool, payouts rounded
down, liquidity rounded up. -/
theorem withdrawal_spec {p : Pool} {lpAmount : Nat} {d : Withdrawal}
    (done : withdrawal p lpAmount = .ok d) :
    0 < p.lpSupply ∧ lpAmount ≤ p.lpSupply ∧
      d.dx = p.yesReserve * lpAmount / p.lpSupply ∧
      d.dy = p.noReserve * lpAmount / p.lpSupply ∧
      d.df = p.lpFees * lpAmount / p.lpSupply ∧
      d.dx ≤ p.yesReserve ∧ d.dy ≤ p.noReserve ∧ d.df ≤ p.lpFees ∧
      d.pool = { p with
        yesReserve := p.yesReserve - d.dx
        noReserve := p.noReserve - d.dy
        lpSupply := p.lpSupply - lpAmount
        liquidity := p.liquidity -
          min ((p.liquidity * lpAmount) ⌈/⌉ p.lpSupply) p.liquidity
        lpFees := p.lpFees - d.df } := by
  simp only [withdrawal, bind_ok, usub_ok, mulDiv_ok, pure_ok] at done
  obtain ⟨dx, ⟨-, nonzero, rfl⟩, dy, ⟨-, -, rfl⟩, df, ⟨-, -, rfl⟩, share, raised, _,
    ⟨yes, rfl⟩, _, ⟨no, rfl⟩, _, ⟨fees, rfl⟩, _, ⟨-, rfl⟩, _, ⟨burned, rfl⟩, rfl⟩ := done
  obtain ⟨-, rfl⟩ := mulDivUp_ok raised
  exact ⟨Nat.pos_of_ne_zero nonzero, burned, rfl, rfl, rfl, yes, no, fees, rfl⟩

end MarketAMM

end OverUnder.Contracts
