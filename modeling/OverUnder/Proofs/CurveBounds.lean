/-
Module: OverUnder.Proofs.CurveBounds
Purpose: Intervals for what the curve code computes on an interval of coordinates, and from
  them bounds on the curve over the whole price range, by halving the range until the
  intervals are tight enough.
Trusted boundary: none
Main exports: mem_expWads, mem_gNegatives, curveFloor, le_gNegative, gCdf_sub_ge, gCdf_ge,
  le_uTradeMax_of_gCdf_le, solveG_le
-/
import OverUnder.Contracts.MarketAMM
import OverUnder.Vyper.Ranges

namespace OverUnder.Contracts.NormalMath

open OverUnder.Vyper NonemptyInterval OverUnder.Library.Enclosure
open scoped WordOrders
open MarketAMM (uTradeMax gTradeMax)

variable {x y t p q k r c w : Int}

/-! ### The exponential -/

theorem mulAdd96_ok (done : mulAdd96 p t c = .ok y) :
    y = sarInt (unsafeMulInt p t) 96 + c :=
  (iadd_ok.1 done).2

def mulAdd96s (p t : NonemptyInterval ℤ) (c : Int) : NonemptyInterval ℤ :=
  sarInts (mulInts p t) 96 + pure c

theorem mem_mulAdd96s {P T : NonemptyInterval ℤ} (left : p ∈ P) (right : t ∈ T)
    (done : mulAdd96 p t c = .ok y) : y ∈ mulAdd96s P T c := by
  rw [mulAdd96_ok done]
  exact mem_add (mem_sarInts (mem_mulInts left right) 96) (mem_pure_self c)

/-- `expReduce` on an interval: the exponents and the rests. -/
def expReduces (X : NonemptyInterval ℤ) : NonemptyInterval ℤ × NonemptyInterval ℤ :=
  let T := divInts (shlInts X 78) 3814697265624
  let K := sarInts (divInts (shlInts T 96) 54916777467707473351141471127 + pure (2 ^ 95)) 96
  (K, T - times K (pure ln2))

theorem mem_expReduces {X : NonemptyInterval ℤ} (inside : x ∈ X)
    (done : expReduce x = .ok (k, t)) : k ∈ (expReduces X).1 ∧ t ∈ (expReduces X).2 := by
  simp only [expReduce, bind_ok, iadd_ok, imul_ok, isub_ok, pure_ok, Prod.mk.injEq] at done
  obtain ⟨_, ⟨-, rfl⟩, _, ⟨-, rfl⟩, _, ⟨-, rfl⟩, rfl, rfl⟩ := done
  have scaled := mem_divInts (mem_shlInts inside 78) 3814697265624
  have exponent := mem_sarInts (mem_add
    (mem_divInts (mem_shlInts scaled 96) 54916777467707473351141471127)
    (mem_pure_self (2 ^ 95))) 96
  exact ⟨exponent, sub_mem_sub _ _ scaled (mem_times exponent (mem_pure_self ln2))⟩

def expNumerators (T : NonemptyInterval ℤ) : NonemptyInterval ℤ :=
  let Y := mulAdd96s (T + pure 1346386616545796478920950773328) T
    57155421227552351082224309758442
  let P := mulAdd96s (Y + T - pure 94201549194550492254356042504812) Y
    28719021644029726153956944680412240
  mulInts P T + pure (shlInt 4385272521454847904659076985693276 96)

theorem mem_expNumerators {T : NonemptyInterval ℤ} (inside : t ∈ T)
    (done : expNumerator t = .ok p) : p ∈ expNumerators T := by
  simp only [expNumerator, bind_ok, iadd_ok, isub_ok] at done
  obtain ⟨_, ⟨-, rfl⟩, y, first, _, ⟨-, rfl⟩, _, ⟨-, rfl⟩, p, second, -, rfl⟩ := done
  have y_mem := mem_mulAdd96s (mem_add inside (mem_pure_self _)) inside first
  have p_mem := mem_mulAdd96s (sub_mem_sub _ _ (mem_add y_mem inside) (mem_pure_self _)) y_mem
    second
  exact mem_add (mem_mulInts p_mem inside) (mem_pure_self _)

/-- The steps of `expDenominator` on intervals. -/
theorem mem_foldl_mulAdd96s {T : NonemptyInterval ℤ} (inside : t ∈ T) :
    ∀ (cs : List Int) {q r : Int} {Q : NonemptyInterval ℤ}, q ∈ Q →
      cs.foldlM (fun q c => mulAdd96 q t c) q = .ok r →
      r ∈ cs.foldl (fun Q c => mulAdd96s Q T c) Q := by
  intro cs
  induction cs with
  | nil =>
      intro q r Q start done
      rw [List.foldlM_nil, pure_ok] at done
      rwa [done]
  | cons c cs ih =>
      intro q r Q start done
      rw [List.foldlM_cons, bind_ok] at done
      obtain ⟨q', stepped, rest⟩ := done
      exact ih (mem_mulAdd96s start inside stepped) rest

def expDenominators (T : NonemptyInterval ℤ) : NonemptyInterval ℤ :=
  expDenominatorRest.foldl (fun Q c => mulAdd96s Q T c)
    (T - pure 2855989394907223263936484059900)

theorem mem_expDenominators {T : NonemptyInterval ℤ} (inside : t ∈ T)
    (done : expDenominator t = .ok q) : q ∈ expDenominators T := by
  simp only [expDenominator, bind_ok, isub_ok] at done
  obtain ⟨_, ⟨-, rfl⟩, rest⟩ := done
  exact mem_foldl_mulAdd96s inside _ (sub_mem_sub _ _ inside (mem_pure_self _)) rest

def expScales (R K : NonemptyInterval ℤ) : NonemptyInterval ℕ :=
  shrNats (mulNats (R.map toNatHom)
    (pure 3822833074963236453042738258902158003155416615667)) ((pure 195 - K).map toNatHom)

theorem mem_expScales {R K : NonemptyInterval ℤ} {e : Nat} (left : r ∈ R) (right : k ∈ K)
    (done : expScale r k = .ok e) : e ∈ expScales R K := by
  simp only [expScale, bind_ok, isub_ok, toUint256_ok, pure_ok] at done
  obtain ⟨_, ⟨-, rfl⟩, _, ⟨-, rfl⟩, _, ⟨-, rfl⟩, rfl⟩ := done
  exact mem_shrNats (mem_mulNats (mem_map toNatHom left) (mem_pure_self _))
    (mem_map toNatHom (sub_mem_sub _ _ (mem_pure_self 195) right))

/-- `expWad` on an interval above the least exponent. -/
def expWads (X : NonemptyInterval ℤ) : NonemptyInterval ℕ :=
  let (K, T) := expReduces X
  expScales (quotientInts (expNumerators T) (expDenominators T)) K

theorem mem_expWads {X : NonemptyInterval ℤ} {e : Nat} (inside : x ∈ X)
    (least : -41446531673892822313 < X.fst) (done : expWad x = .ok e) : e ∈ expWads X := by
  rw [expWad, if_neg (by have := inside.1; omega)] at done
  simp only [bind_ok, require_ok, Prod.exists, exists_const] at done
  obtain ⟨-, k, t, reduced, p, numerator, q, denominator, scaled⟩ := done
  obtain ⟨exponent, rest⟩ := mem_expReduces inside reduced
  exact mem_expScales (mem_quotientInts (mem_expNumerators rest numerator)
    (mem_expDenominators rest denominator)) exponent scaled

/-! ### The tail and the curve -/

variable {a e n d : Nat}

def mulAddWads (N A : NonemptyInterval ℕ) (c : Nat) : NonemptyInterval ℕ :=
  divNats (mulNats N A) (pure wad) + pure c

theorem mem_foldl_mulAddWads {A : NonemptyInterval ℕ} (inside : a ∈ A) :
    ∀ (cs : List Nat) {n m : Nat} {N : NonemptyInterval ℕ}, n ∈ N →
      cs.foldlM (fun n c => mulAddWad n a c) n = .ok m →
      m ∈ cs.foldl (fun N c => mulAddWads N A c) N := by
  intro cs
  induction cs with
  | nil =>
      intro n m N start done
      rw [List.foldlM_nil, pure_ok] at done
      rwa [done]
  | cons c cs ih =>
      intro n m N start done
      rw [List.foldlM_cons, bind_ok] at done
      obtain ⟨n', stepped, rest⟩ := done
      obtain ⟨-, rfl⟩ := uadd_ok.1 stepped
      exact ih (mem_add (mem_divNats (mem_mulNats start inside) (mem_pure_self wad)
        (by decide)) (mem_pure_self c)) rest

/-- `-square` is antitone. -/
def minusSquares (A : NonemptyInterval ℕ) : NonemptyInterval ℤ :=
  pure 0 - (divNats (mulNats A A) (pure (2 * wad))).map castHom

def numerators (A : NonemptyInterval ℕ) : NonemptyInterval ℕ :=
  numeratorRest.foldl (fun N c => mulAddWads N A c) (pure numeratorLead)

def denominators (A : NonemptyInterval ℕ) : NonemptyInterval ℕ :=
  denominatorRest.foldl (fun D c => mulAddWads D A c) (pure denominatorLead)

theorem mem_tails {A : NonemptyInterval ℕ} (inside : a ∈ A)
    (least : -41446531673892822313 < (minusSquares A).fst) (done : tail a = .ok (e, n, d)) :
    e ∈ expWads (minusSquares A) ∧ n ∈ numerators A ∧ d ∈ denominators A := by
  simp only [tail, bind_ok, toInt256_ok, isub_ok, pure_ok, Prod.mk.injEq] at done
  obtain ⟨_, ⟨-, rfl⟩, _, ⟨-, rfl⟩, _, exponential, _, numerator, _, denominator, rfl, rfl,
    rfl⟩ := done
  have square := mem_map castHom (mem_divNats (mem_mulNats inside inside)
    (mem_pure_self (2 * wad)) (by decide))
  exact ⟨mem_expWads (sub_mem_sub _ _ (mem_pure_self 0) square) least exponential,
    mem_foldl_mulAddWads inside _ (mem_pure_self _) numerator,
    mem_foldl_mulAddWads inside _ (mem_pure_self _) denominator⟩

/-- `gNegative` on an interval of magnitudes. -/
def gNegatives (A : NonemptyInterval ℕ) : NonemptyInterval ℕ :=
  divNats (expWads (minusSquares A) *
    (pure invSqrt2Pi - divNats (A * numerators A) (denominators A))) (pure wad)

theorem mem_gNegatives {A : NonemptyInterval ℕ} {g : Nat} (inside : a ∈ A)
    (least : -41446531673892822313 < (minusSquares A).fst)
    (done : tail a = .ok (e, n, d)) (settled : gNegative a e n d = .ok g) :
    g ∈ gNegatives A := by
  obtain ⟨exponential, numerator, denominator⟩ := mem_tails inside least done
  simp only [gNegative, bind_ok, umul_ok, udiv_ok] at settled
  obtain ⟨_, ⟨-, rfl⟩, _, ⟨nonzero, rfl⟩, _, ⟨-, rfl⟩, positive, rfl⟩ := settled
  have an := mem_divNats (mem_mul inside numerator) denominator nonzero
  have diff : (if invSqrt2Pi > a * n / d then invSqrt2Pi - a * n / d else 0) =
      invSqrt2Pi - a * n / d := by
    split <;> omega
  rw [diff]
  exact mem_divNats (mem_mul exponential (sub_mem_sub _ _ (mem_pure_self _) an))
    (mem_pure_self wad) positive

/-! ### The price range -/

def magnitudes (a b : Nat) : NonemptyInterval ℕ := ⟨(min a b, max a b), min_le_max⟩

/-- `g(-a)` reaches the bound all over an interval, by the least value of the enclosure. -/
def reaches (bound : Nat → Nat) (a b : Nat) : Bool :=
  decide (-41446531673892822313 < (minusSquares (magnitudes a b)).fst) &&
    decide (bound a ≤ (gNegatives (magnitudes a b)).fst)

/-- `g(-a)`, where the code returns it, is at least the bound. -/
def GNegativeGe (bound : Nat → Nat) (a : Nat) : Prop :=
  ∀ e n d g, tail a = .ok (e, n, d) → gNegative a e n d = .ok g → bound a ≤ g

theorem reaches_settles {bound : Nat → Nat} (falls : Antitone bound) :
    Settles (reaches bound) (GNegativeGe bound) := by
  intro a b x above below passed e n d g done settled
  rw [reaches, Bool.and_eq_true, decide_eq_true_iff, decide_eq_true_iff] at passed
  have inside : x ∈ magnitudes a b :=
    ⟨(min_le_left a b).trans above, below.trans (le_max_right a b)⟩
  calc bound x ≤ bound a := falls above
    _ ≤ (gNegatives (magnitudes a b)).fst := passed.2
    _ ≤ g := (mem_gNegatives inside passed.1 done settled).1

/-- What the curve keeps above the axis inside the price range. -/
def curveFloor : Nat := gTradeMax - uTradeMax.toNat + 2

/-- The last magnitudes before the binary exponent of the exponential drops, where the
reduced argument jumps. -/
def exponentCuts : List Nat :=
  [832554611157697756, 1442026886600883017, 1861648705529517066, 2202732454003349260,
    2497663833473093269, 2761271262690320761, 3001818340153062797, 3224470143821955074,
    3432710600898227520, 3629021415015205015]

set_option maxRecDepth 20000 in
theorem reaches_curveFloor :
    pieces (reaches fun _ => curveFloor) 64 exponentCuts 0 uTradeMax.toNat = true := by
  decide +kernel

set_option maxRecDepth 20000 in
theorem reaches_gTradeMax :
    bisect (reaches fun a => gTradeMax + 1 - a) 64 (uTradeMax.toNat + 1) gTradeMax = true := by
  decide +kernel

theorem curveFloor_le_gNegative {g : Nat} (bounded : a ≤ uTradeMax.toNat)
    (done : tail a = .ok (e, n, d)) (settled : gNegative a e n d = .ok g) : curveFloor ≤ g :=
  pieces_sound (reaches_settles antitone_const) 64 exponentCuts 0 _ a (Nat.zero_le a) bounded
    reaches_curveFloor e n d g done settled

/-- Past the price range the curve is past its bound. -/
theorem gTradeMax_lt_add_gNegative {g : Nat} (past : uTradeMax.toNat < a)
    (done : tail a = .ok (e, n, d)) (settled : gNegative a e n d = .ok g) :
    gTradeMax < a + g := by
  rcases Nat.lt_or_ge gTradeMax a with beyond | inside
  · exact Nat.lt_of_lt_of_le beyond (Nat.le_add_right a g)
  · have falls : Antitone fun a => gTradeMax + 1 - a := fun _ _ below => Nat.sub_le_sub_left below _
    have reached : gTradeMax + 1 - a ≤ g := bisect_sound (reaches_settles falls) 64 _ _ a past
      inside reaches_gTradeMax e n d g done settled
    omega

/-! ### The curve -/

theorem gCdf_spec {g p : Nat} (done : gCdf w = .ok (g, p)) :
    ∃ e n d gneg, tail w.natAbs = .ok (e, n, d) ∧ gNegative w.natAbs e n d = .ok gneg ∧
      (0 ≤ w ∧ g = w.natAbs + gneg ∨ w < 0 ∧ g = gneg) := by
  simp only [gCdf, magnitude, bind_ok, int256_ok, toUint256_ok, require_ok, Prod.exists,
    exists_const] at done
  obtain ⟨a, ⟨_, ⟨-, rfl⟩, -, rfl⟩, -, e, n, d, tailed, probability, -, gneg, settled, chosen⟩ :=
    done
  have absolute : |w|.toNat = w.natAbs := by rw [Int.abs_eq_natAbs, Int.toNat_natCast]
  rw [absolute] at tailed settled chosen
  refine ⟨e, n, d, gneg, tailed, settled, ?_⟩
  split at chosen
  · next nonneg =>
      simp only [bind_ok, uadd_ok, usub_ok, pure_ok, Prod.mk.injEq] at chosen
      obtain ⟨_, ⟨-, rfl⟩, _, -, rfl, -⟩ := chosen
      exact .inl ⟨nonneg, rfl⟩
  · next negative =>
      rw [pure_ok, Prod.mk.injEq] at chosen
      exact .inr ⟨Int.not_le.1 negative, chosen.1⟩

/-- `g(-w) = g(w) - w` stays above the axis. -/
theorem gCdf_sub_ge {g p : Nat} (done : gCdf w = .ok (g, p)) (bounded : w ≤ uTradeMax) :
    w + curveFloor ≤ g := by
  obtain ⟨e, n, d, gneg, tailed, settled, ⟨nonneg, rfl⟩ | ⟨negative, rfl⟩⟩ := gCdf_spec done
  · have floor := curveFloor_le_gNegative (by omega) tailed settled
    omega
  · have small : (curveFloor : Int) < uTradeMax := by decide
    rcases Nat.lt_or_ge uTradeMax.toNat w.natAbs with past | inside
    · omega
    · have floor := curveFloor_le_gNegative inside tailed settled
      omega

theorem gCdf_ge {g p : Nat} (done : gCdf w = .ok (g, p)) (bounded : -uTradeMax ≤ w) :
    curveFloor ≤ g := by
  obtain ⟨e, n, d, gneg, tailed, settled, ⟨nonneg, rfl⟩ | ⟨negative, rfl⟩⟩ := gCdf_spec done
  · have small : curveFloor < uTradeMax.toNat := by decide
    rcases Nat.lt_or_ge uTradeMax.toNat w.natAbs with past | inside
    · omega
    · have floor := curveFloor_le_gNegative inside tailed settled
      omega
  · exact curveFloor_le_gNegative (by omega) tailed settled

/-- The bound on the curve value is a bound on the coordinate. -/
theorem le_uTradeMax_of_gCdf_le {g p : Nat} (done : gCdf w = .ok (g, p))
    (bounded : g ≤ gTradeMax) : w ≤ uTradeMax := by
  have positive : 0 ≤ uTradeMax := by decide
  obtain ⟨e, n, d, gneg, tailed, settled, ⟨nonneg, rfl⟩ | ⟨negative, rfl⟩⟩ := gCdf_spec done
  · rcases Nat.lt_or_ge uTradeMax.toNat w.natAbs with past | inside
    · have above := gTradeMax_lt_add_gNegative past tailed settled
      omega
    · omega
  · omega

/-! ### The solver -/

/-- The value of the curve at the coordinate, at most `c`. -/
def Under (c : Nat) (w : Int) : Prop := ∃ g p, gCdf w = .ok (g, p) ∧ g ≤ c

theorem solveLeft_le {c : Nat} {lc : Int} : ∀ left {w w' : Int} {g p : Nat},
    gCdf w = .ok (g, p) → g ≤ c → solveLeft c lc left w g p = .ok w' → Under c w' := by
  intro left
  induction left with
  | zero =>
      intro w w' g p curve below done
      rw [solveLeft, pure_ok] at done
      exact ⟨g, p, done ▸ curve, below⟩
  | succ left ih =>
      intro w w' g p curve below done
      simp only [solveLeft, bind_ok] at done
      obtain ⟨_, -, _, -, _, -, _, -, _, -, st, -, done⟩ := done
      split at done
      · rw [pure_ok] at done
        exact ⟨g, p, done ▸ curve, below⟩
      · simp only [bind_ok, Prod.exists] at done
        obtain ⟨nw, -, ng, np, curve', done⟩ := done
        split at done
        · rw [pure_ok] at done
          exact ⟨g, p, done ▸ curve, below⟩
        · next fits => exact ih curve' (Nat.not_lt.1 fits) done

theorem widen_le {c : Nat} : ∀ js {w w' : Int}, widen c js w = .ok w' → Under c w' := by
  intro js
  induction js with
  | nil =>
      intro w w' done
      rw [widen, error_ok] at done
      exact done.elim
  | cons j js ih =>
      intro w w' done
      simp only [widen, bind_ok, Prod.exists] at done
      obtain ⟨g, p, curve, done⟩ := done
      split at done
      · next below =>
          rw [pure_ok] at done
          exact ⟨g, p, done ▸ curve, below⟩
      · rw [bind_ok] at done
        obtain ⟨_, -, done⟩ := done
        exact ih done

theorem pullLeft_le {c : Nat} {w w' : Int} (done : pullLeft c w = .ok w') : Under c w' := by
  simp only [pullLeft, bind_ok] at done
  obtain ⟨_, -, done⟩ := done
  exact widen_le _ done

theorem solveRight_le {c : Nat} : ∀ left {w w' : Int},
    solveRight c left w = .ok w' → Under c w' := by
  intro left
  induction left with
  | zero =>
      intro w w' done
      exact pullLeft_le done
  | succ left ih =>
      intro w w' done
      simp only [solveRight, bind_ok, Prod.exists] at done
      obtain ⟨g, p, curve, done⟩ := done
      split at done
      · next below =>
          rw [pure_ok] at done
          exact ⟨g, p, done ▸ curve, below⟩
      · simp only [bind_ok] at done
        obtain ⟨_, -, _, -, _, -, _, -, _, -, done⟩ := done
        split at done
        · exact pullLeft_le done
        · exact ih done

/-- What the solver returns is at or below the root, whichever way it leaves its loops. -/
theorem solveG_le {c g0 p0 : Nat} {w0 w : Int} (curve : gCdf w0 = .ok (g0, p0)) (below : g0 ≤ c)
    (done : solveG c w0 g0 p0 = .ok w) : Under c w := by
  simp only [solveG, bind_ok, require_ok, exists_const] at done
  obtain ⟨-, done⟩ := done
  split at done
  · rw [bind_ok] at done
    obtain ⟨lc, -, done⟩ := done
    exact solveLeft_le _ curve below done
  · rw [bind_ok] at done
    obtain ⟨start, -, done⟩ := done
    exact solveRight_le _ done

end OverUnder.Contracts.NormalMath
