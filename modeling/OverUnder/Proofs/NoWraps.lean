/-
Module: OverUnder.Proofs.NoWraps
Purpose: The unchecked arithmetic of the curve code never loses a bit: the code with every
  unchecked operation replaced by one that reverts instead gives a result on the whole
  domain, and the same one.
Trusted boundary: none
Main exports: Strict.expWad, Strict.lnWad, Strict.tail, Yields, expWad_yields, lnWad_yields,
  tail_yields, unchecked_never_wraps
-/
import OverUnder.Proofs.CurveBounds

namespace OverUnder.Contracts.NormalMath

open OverUnder.Vyper NonemptyInterval OverUnder.Library.Enclosure
open scoped WordOrders

/-! ### The code with checks -/

namespace Strict

/-- `x << n` on `int256`. -/
def shlInt (x : Int) (n : Nat) : Call Int := int256 (x * 2 ^ n)

/-- `x << n` on `uint256`. -/
def shl (x n : Nat) : Call Nat := umul x (2 ^ n)

def mulAdd96 (p t c : Int) : Call Int := do
  let product ← imul p t
  iadd (sarInt product 96) c

def expReduce (x : Int) : Call (Int × Int) := do
  let scaled ← shlInt x 78
  let t ← idiv scaled 3814697265625
  let scaled ← shlInt t 96
  let turns ← idiv scaled ln2
  let rounded ← iadd turns (2 ^ 95)
  let k := sarInt rounded 96
  let whole ← imul k ln2
  let t ← isub t whole
  return (k, t)

def expNumerator (t : Int) : Call Int := do
  let y ← iadd t 1346386616545796478920950773328
  let y ← mulAdd96 y t 57155421227552351082224309758442
  let p ← iadd y t
  let p ← isub p 94201549194550492254356042504812
  let p ← mulAdd96 p y 28719021644029726153956944680412240
  let product ← imul p t
  let last ← shlInt 4385272521454847904659076985693276 96
  iadd product last

def expDenominator (t : Int) : Call Int := do
  let q ← isub t 2855989394907223263936484059900
  expDenominatorRest.foldlM (fun q c => mulAdd96 q t c) q

def expScale (r k : Int) : Call Nat := do
  let r ← toUint256 r
  let places ← isub 195 k
  let places ← toUint256 places
  let scaled ← umul r 3822833074963236453042738258902158003155416615667
  return shr scaled places

def expWad (x : Int) : Call Nat :=
  if x ≤ -41446531673892822313 then
    return 0
  else do
    require (x < 135305999368893231589) (.reason "exp overflow")
    let (k, t) ← expReduce x
    let p ← expNumerator t
    let q ← expDenominator t
    let r ← idiv p q
    expScale r k

/-- One `if v >= 1 << bits` of `_log2`. -/
def log2Step (vr : Nat × Nat) (bits : Nat) : Call (Nat × Nat) :=
  if vr.1 ≥ 2 ^ bits then do
    let r ← uadd vr.2 bits
    return (shr vr.1 bits, r)
  else return vr

def log2 (x : Nat) : Call Nat := do
  let (v, r) ← [128, 64, 32, 16, 8, 4, 2].foldlM log2Step (x, 0)
  if v ≥ 2 then uadd r 1 else return r

def lnNumerator (t : Int) : Call Int := do
  let p ← iadd t 3273285459638523848632254066296
  let p ← lnNumeratorRest.foldlM (fun p c => mulAdd96 p t c) p
  let product ← imul p t
  let last ← shlInt 795164235651350426258249787498 96
  isub product last

def lnDenominator (t : Int) : Call Int := do
  let q ← iadd t 5573035233440673466300451813936
  lnDenominatorRest.foldlM (fun q c => mulAdd96 q t c) q

def lnWad (x : Nat) : Call Int := do
  require (x > 0) (.reason "ln undefined")
  let log ← log2 x
  let log ← toInt256 log
  let k ← isub log 96
  let places ← isub 159 k
  let places ← toUint256 places
  let shifted ← shl x places
  let t ← toInt256 (shr shifted 159)
  let p ← lnNumerator t
  let q ← lnDenominator t
  let r ← idiv p q
  let r ← imul r 1677202110996718588342820967067443963516166
  let turns ← imul 16597577552685614221487285958193947469193820559219878177908093499208371 k
  let r ← iadd r turns
  let r ← iadd r 600920179829731861736702779321621459595472258049074101567377883020018308
  return sarInt r 174

def mulAddWad (n a c : Nat) : Call Nat := do
  let product ← umul n a
  let quotient ← udiv product wad
  uadd quotient c

def tail (a : Nat) : Call (Nat × Nat × Nat) := do
  let square ← umul a a
  let half ← udiv square (2 * wad)
  let half ← toInt256 half
  let half ← isub 0 half
  let e ← expWad half
  let n ← numeratorRest.foldlM (fun n c => mulAddWad n a c) numeratorLead
  let d ← denominatorRest.foldlM (fun d c => mulAddWad d a c) denominatorLead
  return (e, n, d)

end Strict

/-! ### Where the checked code returns, the unchecked code returns the same -/

section Agreement

variable {α β : Type} {p t c x y a b v : Int} {n m : Nat}

theorem unsafeMulInt_of_imul (done : imul a b = .ok v) : unsafeMulInt a b = v := by
  obtain ⟨fits, rfl⟩ := imul_ok.1 done
  exact wrapInt_of_inInt256 fits

theorem unsafeDivInt_of_idiv (done : idiv a b = .ok v) : unsafeDivInt a b = v := by
  obtain ⟨-, fits, rfl⟩ := idiv_ok.1 done
  exact wrapInt_of_inInt256 fits

theorem unsafeAddInt_of_iadd (done : iadd a b = .ok v) : unsafeAddInt a b = v := by
  obtain ⟨fits, rfl⟩ := iadd_ok.1 done
  exact wrapInt_of_inInt256 fits

theorem shlInt_of_strict (done : Strict.shlInt x n = .ok v) : shlInt x n = v := by
  obtain ⟨fits, rfl⟩ := int256_ok.1 done
  exact wrapInt_of_inInt256 fits

theorem unsafeMul_of_umul {a b v : Nat} (done : umul a b = .ok v) : unsafeMul a b = v := by
  obtain ⟨fits, rfl⟩ := umul_ok.1 done
  exact wrapNat_of_lt fits

theorem mulAdd96_of_strict (done : Strict.mulAdd96 p t c = .ok y) : mulAdd96 p t c = .ok y := by
  simp only [Strict.mulAdd96, bind_ok] at done
  obtain ⟨product, multiplied, done⟩ := done
  rw [mulAdd96, unsafeMulInt_of_imul multiplied]
  exact done

/-- A loop whose checked steps agree with the unchecked ones agrees. -/
theorem foldlM_of_strict {σ τ : Type} {f g : σ → τ → Call σ}
    (steps : ∀ s c s', f s c = .ok s' → g s c = .ok s') :
    ∀ (cs : List τ) {s s' : σ}, cs.foldlM f s = .ok s' → cs.foldlM g s = .ok s' := by
  intro cs
  induction cs with
  | nil => exact fun done => done
  | cons c cs ih =>
      intro s s' done
      rw [List.foldlM_cons, bind_ok] at done ⊢
      obtain ⟨next, stepped, rest⟩ := done
      exact ⟨next, steps s c next stepped, ih rest⟩

theorem expReduce_of_strict {kt : Int × Int} (done : Strict.expReduce x = .ok kt) :
    expReduce x = .ok kt := by
  simp only [Strict.expReduce, bind_ok] at done
  obtain ⟨_, scaled, t, divided, _, scaled', _, divided', done⟩ := done
  simp only [expReduce, shlInt_of_strict scaled, unsafeDivInt_of_idiv divided,
    shlInt_of_strict scaled', unsafeDivInt_of_idiv divided', bind_ok]
  exact done

theorem expNumerator_of_strict (done : Strict.expNumerator t = .ok p) :
    expNumerator t = .ok p := by
  simp only [Strict.expNumerator, bind_ok] at done
  obtain ⟨_, first, y, second, _, third, _, fourth, _, fifth, _, product, _, last, done⟩ := done
  simp only [expNumerator, bind_ok]
  refine ⟨_, first, y, mulAdd96_of_strict second, _, third, _, fourth, _,
    mulAdd96_of_strict fifth, ?_⟩
  rw [unsafeMulInt_of_imul product, shlInt_of_strict last]
  exact done

theorem expDenominator_of_strict (done : Strict.expDenominator t = .ok y) :
    expDenominator t = .ok y := by
  simp only [Strict.expDenominator, bind_ok] at done
  obtain ⟨_, first, done⟩ := done
  simp only [expDenominator, bind_ok]
  exact ⟨_, first, foldlM_of_strict (fun _ _ _ => mulAdd96_of_strict) _ done⟩

theorem expScale_of_strict {r k : Int} {e : Nat} (done : Strict.expScale r k = .ok e) :
    expScale r k = .ok e := by
  simp only [Strict.expScale, bind_ok] at done
  obtain ⟨_, first, _, second, places, third, _, scaled, done⟩ := done
  simp only [expScale, bind_ok]
  refine ⟨_, first, _, second, places, third, ?_⟩
  rw [unsafeMul_of_umul scaled]
  exact done

theorem expWad_of_strict {e : Nat} (done : Strict.expWad x = .ok e) : expWad x = .ok e := by
  unfold Strict.expWad at done
  unfold expWad
  split at done
  · next low =>
      rw [if_pos low]
      exact done
  · next high =>
      rw [if_neg high]
      simp only [bind_ok] at done ⊢
      obtain ⟨_, guard, kt, reduced, p, numerator, q, denominator, r, divided, scaled⟩ := done
      refine ⟨_, guard, kt, expReduce_of_strict reduced, p, expNumerator_of_strict numerator, q,
        expDenominator_of_strict denominator, ?_⟩
      rw [unsafeDivInt_of_idiv divided]
      exact expScale_of_strict scaled

theorem lnNumerator_of_strict (done : Strict.lnNumerator t = .ok p) :
    lnNumerator t = .ok p := by
  simp only [Strict.lnNumerator, bind_ok] at done
  obtain ⟨_, first, _, chain, _, product, _, last, done⟩ := done
  simp only [lnNumerator, bind_ok]
  refine ⟨_, first, _, foldlM_of_strict (fun _ _ _ => mulAdd96_of_strict) _ chain, ?_⟩
  rw [unsafeMulInt_of_imul product, shlInt_of_strict last]
  exact done

theorem lnDenominator_of_strict (done : Strict.lnDenominator t = .ok y) :
    lnDenominator t = .ok y := by
  simp only [Strict.lnDenominator, bind_ok] at done
  obtain ⟨_, first, done⟩ := done
  simp only [lnDenominator, bind_ok]
  exact ⟨_, first, foldlM_of_strict (fun _ _ _ => mulAdd96_of_strict) _ done⟩

theorem log2Step_of_strict {vr vr' : Nat × Nat} {bits : Nat}
    (done : Strict.log2Step vr bits = .ok vr') : log2Step vr bits = vr' := by
  unfold Strict.log2Step at done
  unfold log2Step
  split at done
  · next large =>
      simp only [bind_ok, uadd_ok, pure_ok] at done
      obtain ⟨_, ⟨-, rfl⟩, rfl⟩ := done
      rw [if_pos large]
  · next small =>
      rw [pure_ok] at done
      rw [if_neg small, done]

theorem log2_of_strict {x r : Nat} (done : Strict.log2 x = .ok r) : log2 x = r := by
  have fold : ∀ (cs : List Nat) {s s' : Nat × Nat}, cs.foldlM Strict.log2Step s = .ok s' →
      cs.foldl log2Step s = s' := by
    intro cs
    induction cs with
    | nil =>
        intro s s' done
        rw [List.foldlM_nil, pure_ok] at done
        exact done.symm
    | cons c cs ih =>
        intro s s' done
        rw [List.foldlM_cons, bind_ok] at done
        obtain ⟨next, stepped, rest⟩ := done
        rw [List.foldl_cons, log2Step_of_strict stepped]
        exact ih rest
  simp only [Strict.log2, bind_ok, Prod.exists] at done
  obtain ⟨v, log, steps, done⟩ := done
  rw [log2, fold _ steps]
  split at done
  · next large =>
      rw [(uadd_ok.1 done).2]
      exact if_pos large
  · next small =>
      rw [pure_ok] at done
      rw [done]
      exact if_neg small

theorem lnWad_of_strict {x : Nat} (done : Strict.lnWad x = .ok v) : lnWad x = .ok v := by
  simp only [Strict.lnWad, bind_ok, toInt256_ok] at done
  obtain ⟨_, guard, log, logged, _, ⟨-, rfl⟩, k, exponent, _, second, places, third, _, shifted,
    _, narrow, p, numerator, q, denominator, _, divided, _, scaled, _, turns, _, summed, _,
    summed', done⟩ := done
  simp only [lnWad, bind_ok, log2_of_strict logged]
  refine ⟨_, guard, k, exponent, _, second, places, third, _, ?_, p,
    lnNumerator_of_strict numerator, q, lnDenominator_of_strict denominator, ?_⟩
  · rw [shl, show wrapNat _ = _ from unsafeMul_of_umul shifted]
    exact toInt256_ok.2 narrow
  · rw [unsafeDivInt_of_idiv divided, unsafeMulInt_of_imul scaled, unsafeMulInt_of_imul turns,
      unsafeAddInt_of_iadd summed, unsafeAddInt_of_iadd summed']
    exact done

theorem mulAddWad_of_strict {n a c m : Nat} (done : Strict.mulAddWad n a c = .ok m) :
    mulAddWad n a c = .ok m := by
  simp only [Strict.mulAddWad, bind_ok, udiv_ok] at done
  obtain ⟨_, product, _, ⟨-, rfl⟩, done⟩ := done
  rw [mulAddWad, unsafeMul_of_umul product]
  exact done

theorem tail_of_strict {a : Nat} {end' : Nat × Nat × Nat} (done : Strict.tail a = .ok end') :
    tail a = .ok end' := by
  simp only [Strict.tail, bind_ok, udiv_ok] at done
  obtain ⟨_, square, _, ⟨-, rfl⟩, _, narrow, _, negated, e, exponential, n, numerator, d,
    denominator, done⟩ := done
  simp only [tail, bind_ok, unsafeMul_of_umul square]
  exact ⟨_, narrow, _, negated, e, expWad_of_strict exponential, n,
    foldlM_of_strict (fun _ _ _ => mulAddWad_of_strict) _ numerator, d,
    foldlM_of_strict (fun _ _ _ => mulAddWad_of_strict) _ denominator, done⟩

end Agreement

/-! ### Calls that return -/

section Yields

variable {α β : Type}

/-- The call returns a value with the property. -/
def Yields (call : Call α) (P : α → Prop) : Prop := ∃ a, call = .ok a ∧ P a

theorem Yields.pure {P : α → Prop} {a : α} (holds : P a) : Yields (.ok a) P := ⟨a, rfl, holds⟩

theorem Yields.bind {call : Call α} {next : α → Call β} {P : α → Prop} {Q : β → Prop}
    (first : Yields call P) (rest : ∀ a, P a → Yields (next a) Q) : Yields (call >>= next) Q := by
  obtain ⟨a, rfl, holds⟩ := first
  exact rest a holds

/-- All of an interval fits in an `int256`. -/
def fits (s : NonemptyInterval ℤ) : Bool := decide (-(halfWord : Int) ≤ s.fst ∧ s.snd < halfWord)

variable {S T P Q : NonemptyInterval ℤ} {x y p q t c : Int}

theorem int256_yields (inside : x ∈ S) (room : fits S = true) : Yields (int256 x) (· ∈ S) := by
  have bounds := of_decide_eq_true room
  have fine : InInt256 x := ⟨bounds.1.trans inside.1, inside.2.trans_lt bounds.2⟩
  exact ⟨x, int256_ok.2 ⟨fine, rfl⟩, inside⟩

theorem Yields.exactly {P : Int → Prop} (yields : Yields (int256 x) P) :
    Yields (int256 x) fun v => v = x ∧ P v := by
  obtain ⟨v, done, holds⟩ := yields
  exact ⟨v, done, (int256_ok.1 done).2, holds⟩

/-- A wider interval. -/
theorem mem_of_le (inside : x ∈ S) (wider : S ≤ T) : x ∈ T := by
  obtain ⟨low, high⟩ := le_def.1 wider
  exact ⟨low.trans inside.1, inside.2.trans high⟩

theorem iadd_yields (left : x ∈ S) (right : y ∈ T) (room : fits (S + T) = true) :
    Yields (iadd x y) (· ∈ S + T) :=
  int256_yields (mem_add left right) room

theorem isub_yields (left : x ∈ S) (right : y ∈ T) (room : fits (S - T) = true) :
    Yields (isub x y) (· ∈ S - T) :=
  int256_yields (sub_mem_sub _ _ left right) room

theorem imul_yields (left : x ∈ S) (right : y ∈ T) (room : fits (times S T) = true) :
    Yields (imul x y) (· ∈ times S T) :=
  int256_yields (mem_times left right) room

theorem shlInt_yields (inside : x ∈ S) (n : Nat) (room : fits (S.map (scaleHom (2 ^ n))) = true) :
    Yields (Strict.shlInt x n) (fun v => v = x * 2 ^ n ∧ v ∈ S.map (scaleHom (2 ^ n))) := by
  have power : scaleHom (2 ^ n) x = x * 2 ^ n := by
    change x * ((2 ^ n : Nat) : Int) = _
    rw [Nat.cast_pow, Nat.cast_ofNat]
  obtain ⟨v, done, here⟩ := int256_yields (power ▸ mem_map (scaleHom (2 ^ n)) inside) room
  exact ⟨v, done, (int256_ok.1 done).2, here⟩

theorem idiv_yields (inside : x ∈ S) (d : Nat) (room : fits (S.map (divHom d)) = true) :
    Yields (idiv x (d + 1)) (fun v => v = x.tdiv (d + 1) ∧ v ∈ S.map (divHom d)) := by
  have nonzero : ((d : Int) + 1) ≠ 0 := by omega
  obtain ⟨v, done, here⟩ := int256_yields (mem_map (divHom d) inside) room
  obtain ⟨fine, rfl⟩ := int256_ok.1 done
  exact ⟨_, idiv_ok.2 ⟨nonzero, fine, rfl⟩, rfl, here⟩

/-- `mulAdd96` on intervals, where nothing wraps. -/
def exact96 (P T : NonemptyInterval ℤ) (c : Int) : NonemptyInterval ℤ :=
  sarInts (times P T) 96 + NonemptyInterval.pure c

def fits96 (P T : NonemptyInterval ℤ) (c : Int) : Bool :=
  fits (times P T) && fits (exact96 P T c)

theorem mulAdd96_yields (left : p ∈ P) (right : t ∈ T) (room : fits96 P T c = true) :
    Yields (Strict.mulAdd96 p t c) (· ∈ exact96 P T c) := by
  rw [fits96, Bool.and_eq_true] at room
  exact (imul_yields left right room.1).bind fun product here =>
    iadd_yields (mem_sarInts here 96) (mem_pure_self c) room.2

/-- The loops of `mulAdd96` on intervals, while they fit. -/
def chain96 (T : NonemptyInterval ℤ) : List Int → NonemptyInterval ℤ → Option (NonemptyInterval ℤ)
  | [], P => some P
  | c :: cs, P => if fits96 P T c then chain96 T cs (exact96 P T c) else none

theorem chain96_yields (right : t ∈ T) : ∀ (cs : List Int) {p : Int} {P Q : NonemptyInterval ℤ},
    p ∈ P → chain96 T cs P = some Q →
      Yields (cs.foldlM (fun p c => Strict.mulAdd96 p t c) p) (· ∈ Q) := by
  intro cs
  induction cs with
  | nil =>
      intro p P Q left last
      rw [chain96, Option.some.injEq] at last
      exact .pure (last ▸ left)
  | cons c cs ih =>
      intro p P Q left last
      rw [chain96] at last
      split at last
      · next room =>
          rw [List.foldlM_cons]
          exact (mulAdd96_yields left right room).bind fun p' here => ih here last
      · cases last

/-- The quotient of a dividend that is not negative by a positive divisor. -/
theorem quotient_yields (left : p ∈ P) (right : q ∈ Q) (nonneg : 0 ≤ P.fst)
    (positive : 0 < Q.fst) (room : P.snd < halfWord) :
    Yields (idiv p q) fun r => 0 ≤ r ∧ r ≤ P.snd / Q.fst := by
  have dividend : 0 ≤ p := nonneg.trans left.1
  have divisor : 0 < q := positive.trans_le right.1
  have whole : p.tdiv q = p / q := Int.tdiv_eq_ediv_of_nonneg dividend
  have below : 0 ≤ p / q := Int.ediv_nonneg dividend divisor.le
  have above : p / q ≤ P.snd / Q.fst := by
    apply Int.le_ediv_of_mul_le positive
    calc p / q * Q.fst ≤ p / q * q := Int.mul_le_mul_of_nonneg_left right.1 below
      _ ≤ p := Int.ediv_mul_le p divisor.ne'
      _ ≤ P.snd := left.2
  have inside : InInt256 (p / q) := by
    have self : p / q ≤ p := Int.ediv_le_self q dividend
    constructor
    · exact le_trans (by decide) below
    · exact (self.trans left.2).trans_lt room
  exact ⟨p / q, idiv_ok.2 ⟨divisor.ne', whole.symm ▸ inside, whole.symm⟩, below, above⟩

theorem toUint256_yields (nonneg : 0 ≤ x) : Yields (toUint256 x) fun n => (n : Int) = x :=
  ⟨x.toNat, toUint256_ok.2 ⟨nonneg, rfl⟩, Int.toNat_of_nonneg nonneg⟩

end Yields

/-! ### The exponential -/

section Exponential

variable {x t k p q r : Int}

/-- Exponents below the overflow bound and above the flush to zero. -/
def exponents : NonemptyInterval ℤ := ⟨(-41446531673892822312, 135305999368893231588), by decide⟩

/-- What is left of an argument after the nearest multiple of `ln 2` is taken out. -/
def rests : NonemptyInterval ℤ :=
  ⟨(-27458388733853736675570735565, 27458388733853736675570735565), by decide⟩

def turns : NonemptyInterval ℤ := ⟨(-60, 195), by decide⟩

/-- The exponent is rounded to the nearest, so half of `ln 2` is the most that is left. -/
theorem rest_bounds {T s v m k : Int} (shifted : s = T * 2 ^ 96) (divided : v * ln2 + m = s)
    (low : -ln2 < m) (high : m < ln2) (rounded : k = sarInt (v + 2 ^ 95) 96) :
    T - k * ln2 ∈ rests := by
  unfold ln2 at *
  unfold sarInt at rounded
  constructor
  · change -27458388733853736675570735565 ≤ _
    omega
  · change _ ≤ 27458388733853736675570735565
    omega

theorem expReduce_yields (inside : x ∈ exponents) :
    Yields (Strict.expReduce x) (fun kt => kt.1 ∈ turns ∧ kt.2 ∈ rests) := by
  have positive : 0 < ln2 := by decide
  refine (shlInt_yields inside 78 (by decide +kernel)).bind fun scaled first => ?_
  refine (idiv_yields first.2 3814697265624 (by decide +kernel)).bind fun T second => ?_
  refine (shlInt_yields second.2 96 (by decide +kernel)).bind fun s third => ?_
  refine (idiv_yields third.2 54916777467707473351141471127 (by decide +kernel)).bind
    fun v fourth => ?_
  refine (iadd_yields fourth.2 (mem_pure_self (2 ^ 95)) (by decide +kernel)).exactly.bind
    fun rounded fifth => ?_
  have k_mem : sarInt rounded 96 ∈ turns :=
    mem_of_le (mem_sarInts fifth.2 96) (by decide +kernel)
  refine (imul_yields k_mem (mem_pure_self ln2) (by decide +kernel)).exactly.bind
    fun whole sixth => ?_
  refine (isub_yields second.2 sixth.2 (by decide +kernel)).exactly.bind fun t seventh => ?_
  refine .pure ⟨k_mem, ?_⟩
  rw [seventh.1, sixth.1]
  have divided : v * ln2 + s.tmod ln2 = s := by
    rw [fourth.1]
    exact Int.tdiv_mul_add_tmod s ln2
  exact rest_bounds third.1 divided (Int.lt_tmod_of_pos s positive)
    (Int.tmod_lt_of_pos s positive) (by rw [fifth.1])

/-- The numerator of the exponential over all rests. -/
def expNumeratorRange : NonemptyInterval ℤ :=
  let y := exact96 (rests + NonemptyInterval.pure 1346386616545796478920950773328) rests
    57155421227552351082224309758442
  let p := exact96 (y + rests - NonemptyInterval.pure 94201549194550492254356042504812) y
    28719021644029726153956944680412240
  times p rests + (NonemptyInterval.pure 4385272521454847904659076985693276).map (scaleHom (2 ^ 96))

theorem expNumerator_yields (inside : t ∈ rests) :
    Yields (Strict.expNumerator t) (· ∈ expNumeratorRange) := by
  refine (iadd_yields inside (mem_pure_self _) (by decide +kernel)).bind fun _ first => ?_
  refine (mulAdd96_yields first inside (by decide +kernel)).bind fun y second => ?_
  refine (iadd_yields second inside (by decide +kernel)).bind fun _ third => ?_
  refine (isub_yields third (mem_pure_self _) (by decide +kernel)).bind fun _ fourth => ?_
  refine (mulAdd96_yields fourth second (by decide +kernel)).bind fun _ fifth => ?_
  refine (imul_yields fifth inside (by decide +kernel)).bind fun _ product => ?_
  refine (shlInt_yields (mem_pure_self _) 96 (by decide +kernel)).bind fun _ last => ?_
  exact iadd_yields product last.2 (by decide +kernel)

/-- The denominator of the exponential over all rests. -/
def expDenominatorRange : Option (NonemptyInterval ℤ) :=
  chain96 rests expDenominatorRest (rests - NonemptyInterval.pure 2855989394907223263936484059900)

theorem expDenominator_yields (inside : t ∈ rests) {Q : NonemptyInterval ℤ}
    (range : expDenominatorRange = some Q) : Yields (Strict.expDenominator t) (· ∈ Q) := by
  refine (isub_yields inside (mem_pure_self _) (by decide +kernel)).bind fun _ first => ?_
  exact chain96_yields inside _ first range

theorem expScale_yields (nonneg : 0 ≤ r) (k_mem : k ∈ turns)
    (room : r * 3822833074963236453042738258902158003155416615667 < wordSize) :
    Yields (Strict.expScale r k) fun _ => True := by
  refine (toUint256_yields nonneg).bind fun n first => ?_
  refine (isub_yields (mem_pure_self 195) k_mem (by decide +kernel)).bind fun places second => ?_
  have within : places ∈ (⟨(0, 255), by decide⟩ : NonemptyInterval ℤ) :=
    mem_of_le second (by decide +kernel)
  refine (toUint256_yields within.1).bind fun m _ => ?_
  have scaled : n * 3822833074963236453042738258902158003155416615667 < wordSize := by
    rw [← first] at room
    exact_mod_cast room
  rw [umul, if_pos scaled]
  exact .pure trivial

theorem expWad_yields (below : x < 135305999368893231589) :
    Yields (Strict.expWad x) fun _ => True := by
  unfold Strict.expWad
  split
  · exact .pure trivial
  · next high =>
      have inside : x ∈ exponents := by
        constructor
        · change -41446531673892822312 ≤ x
          omega
        · change x ≤ 135305999368893231588
          omega
      refine Yields.bind (P := fun _ => True) ⟨(), require_ok.2 below, trivial⟩ fun _ _ => ?_
      refine (expReduce_yields inside).bind ?_
      rintro ⟨k, t⟩ ⟨k_mem, t_mem⟩
      refine (expNumerator_yields t_mem).bind fun p p_mem => ?_
      obtain ⟨Q, range, positive, room⟩ : ∃ Q, expDenominatorRange = some Q ∧ 0 < Q.fst ∧
          expNumeratorRange.snd / Q.fst * 3822833074963236453042738258902158003155416615667 <
            wordSize := by
        refine ⟨expDenominatorRange.get (by decide +kernel), ?_⟩
        decide +kernel
      refine (expDenominator_yields t_mem range).bind fun q q_mem => ?_
      refine (quotient_yields p_mem q_mem (by decide +kernel) positive (by decide +kernel)).bind
        fun r bounds => ?_
      apply expScale_yields bounds.1 k_mem
      exact (Int.mul_le_mul_of_nonneg_right bounds.2 (by decide)).trans_lt room

end Exponential

/-! ### The logarithm -/

section Logarithm

variable {x : Nat} {t k : Int}

/-- The loop of `_log2`: what is left of `x` after the places counted so far fits in the
places still to be halved. -/
structure Halved (x width : Nat) (vr : Nat × Nat) : Prop where
  whole : x / 2 ^ vr.2 = vr.1
  positive : 0 < vr.1
  small : vr.1 < 2 ^ width
  room : vr.2 + width ≤ 256

theorem log2Step_yields {vr : Nat × Nat} (bits : Nat) (halved : Halved x (2 * bits) vr) :
    Yields (Strict.log2Step vr bits) (Halved x bits) := by
  obtain ⟨v, r⟩ := vr
  obtain ⟨whole, positive, small, room⟩ := halved
  simp only at whole positive small room
  unfold Strict.log2Step
  split
  · next large =>
      have counted : r + bits < wordSize :=
        Nat.lt_of_le_of_lt (by omega) (by decide : 256 < wordSize)
      rw [uadd, if_pos counted]
      refine .pure ⟨?_, ?_, ?_, ?_⟩
      · change x / 2 ^ (r + bits) = v / 2 ^ bits
        rw [Nat.pow_add, ← Nat.div_div_eq_div_mul, whole]
      · exact Nat.div_pos large (Nat.two_pow_pos bits)
      · change v / 2 ^ bits < 2 ^ bits
        rw [Nat.div_lt_iff_lt_mul (Nat.two_pow_pos bits), ← Nat.pow_add, ← Nat.two_mul]
        exact small
      · change r + bits + bits ≤ 256
        omega
  · next less =>
      exact .pure ⟨whole, positive, Nat.not_le.1 less, by change r + bits ≤ 256; omega⟩

theorem log2_yields (positive : 0 < x) (word : x < wordSize) :
    Yields (Strict.log2 x) fun log => x / 2 ^ log = 1 ∧ log ≤ 255 := by
  have start : Halved x 256 (x, 0) := ⟨by simp, positive, word, Nat.le_refl _⟩
  have steps : Yields ([128, 64, 32, 16, 8, 4, 2].foldlM Strict.log2Step (x, 0)) (Halved x 2) := by
    simp only [List.foldlM_cons, List.foldlM_nil]
    refine (log2Step_yields 128 start).bind fun _ halved => ?_
    refine (log2Step_yields 64 halved).bind fun _ halved => ?_
    refine (log2Step_yields 32 halved).bind fun _ halved => ?_
    refine (log2Step_yields 16 halved).bind fun _ halved => ?_
    refine (log2Step_yields 8 halved).bind fun _ halved => ?_
    refine (log2Step_yields 4 halved).bind fun _ halved => ?_
    refine (log2Step_yields 2 halved).bind fun _ halved => ?_
    exact .pure halved
  refine steps.bind ?_
  rintro ⟨v, r⟩ ⟨whole, some_left, small, room⟩
  simp only at whole some_left small room ⊢
  split
  · have counted : r + 1 < wordSize :=
      Nat.lt_of_le_of_lt (by omega) (by decide : 256 < wordSize)
    rw [uadd, if_pos counted]
    refine .pure ⟨?_, by omega⟩
    rw [Nat.pow_succ, ← Nat.div_div_eq_div_mul, whole]
    omega
  · refine .pure ⟨?_, by omega⟩
    rw [whole]
    omega

/-- The argument with its leading bit at place 96. -/
def mantissas : NonemptyInterval ℤ := ⟨(2 ^ 96, 2 ^ 97 - 1), by decide⟩

theorem mantissa_yields {log : Nat} (leading : x / 2 ^ log = 1) (room : log ≤ 255) :
    Yields (Strict.shl x (255 - log)) fun shifted =>
      Yields (toInt256 (shr shifted 159)) (· ∈ mantissas) := by
  have split : 2 ^ log * 2 ^ (255 - log) = 2 ^ 255 := by
    rw [← Nat.pow_add]
    congr 1
    omega
  have least : 2 ^ log ≤ x := by
    have whole := Nat.div_mul_le_self x (2 ^ log)
    rwa [leading, Nat.one_mul] at whole
  have most : x < 2 * 2 ^ log := Nat.lt_mul_of_div_lt (by omega) (Nat.two_pow_pos log)
  have least' : 2 ^ 255 ≤ x * 2 ^ (255 - log) := split ▸ Nat.mul_le_mul_right _ least
  have most' : x * 2 ^ (255 - log) < wordSize := by
    calc x * 2 ^ (255 - log) < 2 * 2 ^ log * 2 ^ (255 - log) :=
          Nat.mul_lt_mul_of_pos_right most (Nat.two_pow_pos _)
      _ = wordSize := by rw [Nat.mul_assoc, split, wordSize, ← Nat.pow_succ']
  rw [Strict.shl, umul, if_pos most']
  have low : 2 ^ 96 ≤ shr (x * 2 ^ (255 - log)) 159 := by
    unfold shr
    omega
  have high : shr (x * 2 ^ (255 - log)) 159 ≤ 2 ^ 97 - 1 := by
    unfold shr
    unfold wordSize at most'
    omega
  have narrow : shr (x * 2 ^ (255 - log)) 159 < halfWord := Nat.lt_of_le_of_lt high (by decide)
  refine .pure ⟨_, toInt256_ok.2 ⟨narrow, rfl⟩, ?_⟩
  constructor
  · change (2 : Int) ^ 96 ≤ (shr (x * 2 ^ (255 - log)) 159 : Nat)
    omega
  · change ((shr (x * 2 ^ (255 - log)) 159 : Nat) : Int) ≤ 2 ^ 97 - 1
    omega

/-- The numerator of the logarithm, before the last subtraction. -/
def lnNumeratorRange : Option (NonemptyInterval ℤ) :=
  (chain96 mantissas lnNumeratorRest
    (mantissas + NonemptyInterval.pure 3273285459638523848632254066296)).map fun P =>
      times P mantissas -
        (NonemptyInterval.pure 795164235651350426258249787498).map (scaleHom (2 ^ 96))

def lnDenominatorRange : Option (NonemptyInterval ℤ) :=
  chain96 mantissas lnDenominatorRest
    (mantissas + NonemptyInterval.pure 5573035233440673466300451813936)

theorem lnNumerator_yields (inside : t ∈ mantissas) {P : NonemptyInterval ℤ}
    (range : lnNumeratorRange = some P) (room : fits P = true) :
    Yields (Strict.lnNumerator t) (· ∈ P) := by
  rw [lnNumeratorRange, Option.map_eq_some_iff] at range
  obtain ⟨Q, chain, rfl⟩ := range
  have wide : fits (times Q mantissas) = true := by
    have only : some (fits (times Q mantissas)) = some true := by
      have all : (chain96 mantissas lnNumeratorRest
          (mantissas + NonemptyInterval.pure 3273285459638523848632254066296)).map
            (fun Q => fits (times Q mantissas)) = some true := by decide +kernel
      rw [chain] at all
      exact all
    exact Option.some.inj only
  refine (iadd_yields inside (mem_pure_self _) (by decide +kernel)).bind fun _ first => ?_
  refine (chain96_yields inside _ first chain).bind fun _ second => ?_
  refine (imul_yields second inside wide).bind fun _ product => ?_
  refine (shlInt_yields (mem_pure_self _) 96 (by decide +kernel)).bind fun _ last => ?_
  exact isub_yields product last.2 room

theorem lnDenominator_yields (inside : t ∈ mantissas) {Q : NonemptyInterval ℤ}
    (range : lnDenominatorRange = some Q) : Yields (Strict.lnDenominator t) (· ∈ Q) := by
  refine (iadd_yields inside (mem_pure_self _) (by decide +kernel)).bind fun _ first => ?_
  exact chain96_yields inside _ first range

/-- Places of the leading bit, from 96 down. -/
def logTurns : NonemptyInterval ℤ := ⟨(-96, 159), by decide⟩

/-- Quotients of the numerator by the denominator. -/
def lnQuotients : NonemptyInterval ℤ := ⟨(0, 2 ^ 98), by decide⟩

theorem lnWad_yields (positive : 0 < x) (word : x < wordSize) :
    Yields (Strict.lnWad x) fun _ => True := by
  refine Yields.bind (P := fun _ => True) ⟨(), require_ok.2 positive, trivial⟩ fun _ _ => ?_
  refine (log2_yields positive word).bind ?_
  rintro log ⟨leading, room⟩
  have small : log < halfWord := Nat.lt_of_le_of_lt room (by decide)
  refine Yields.bind (P := fun l => l = (log : Int)) ⟨_, toInt256_ok.2 ⟨small, rfl⟩, rfl⟩ ?_
  rintro _ rfl
  have log_mem : (log : Int) ∈ (⟨(0, 255), by decide⟩ : NonemptyInterval ℤ) := by
    constructor
    · exact Int.natCast_nonneg log
    · change (log : Int) ≤ 255
      omega
  refine (isub_yields log_mem (mem_pure_self 96) (by decide +kernel)).exactly.bind fun k first => ?_
  have k_mem : k ∈ logTurns := mem_of_le first.2 (by decide +kernel)
  refine (isub_yields (mem_pure_self 159) k_mem (by decide +kernel)).exactly.bind
    fun places second => ?_
  have counted : places = ((255 - log : Nat) : Int) := by
    rw [second.1, first.1]
    omega
  refine Yields.bind (P := fun n => n = 255 - log)
    ⟨_, toUint256_ok.2 ⟨counted ▸ Int.natCast_nonneg _, rfl⟩, by rw [counted]; rfl⟩ ?_
  rintro _ rfl
  refine (mantissa_yields leading room).bind fun shifted mantissa => ?_
  refine mantissa.bind fun t t_mem => ?_
  obtain ⟨P, above, nonneg, some_room, P_room⟩ : ∃ P, lnNumeratorRange = some P ∧ 0 ≤ P.fst ∧
      fits P = true ∧ P.snd < 2 ^ 207 := by
    refine ⟨lnNumeratorRange.get (by decide +kernel), ?_⟩
    decide +kernel
  obtain ⟨Q, below, least⟩ : ∃ Q, lnDenominatorRange = some Q ∧ 2 ^ 109 ≤ Q.fst := by
    refine ⟨lnDenominatorRange.get (by decide +kernel), ?_⟩
    decide +kernel
  refine (lnNumerator_yields t_mem above some_room).bind fun p p_mem => ?_
  refine (lnDenominator_yields t_mem below).bind fun q q_mem => ?_
  have Q_pos : 0 < Q.fst := lt_of_lt_of_le (by decide) least
  refine (quotient_yields p_mem q_mem nonneg Q_pos
    (P_room.trans (by decide +kernel))).bind fun r bounds => ?_
  have r_mem : r ∈ lnQuotients := by
    refine ⟨bounds.1, bounds.2.trans ?_⟩
    change P.snd / Q.fst ≤ 2 ^ 98
    apply Int.ediv_le_of_le_mul Q_pos
    omega
  refine (imul_yields r_mem (mem_pure_self _) (by decide +kernel)).bind fun _ scaled => ?_
  refine (imul_yields (mem_pure_self _) k_mem (by decide +kernel)).bind fun _ turned => ?_
  refine (iadd_yields scaled turned (by decide +kernel)).bind fun _ summed => ?_
  refine (iadd_yields summed (mem_pure_self _) (by decide +kernel)).bind fun _ _ => ?_
  exact .pure trivial

end Logarithm

/-! ### The tail of the normal distribution -/

section Tail

variable {a n N c : Nat}

/-- The loops of `mulAddWad` on upper bounds, while they fit. -/
def chainWad (A : Nat) : List Nat → Nat → Option Nat
  | [], N => some N
  | c :: cs, N =>
      if N * A < wordSize ∧ N * A / wad + c < wordSize then chainWad A cs (N * A / wad + c)
      else none

theorem mulAddWad_yields {A : Nat} (argument : a ≤ A) (top : n ≤ N) (product : N * A < wordSize)
    (sum : N * A / wad + c < wordSize) :
    Yields (Strict.mulAddWad n a c) (· ≤ N * A / wad + c) := by
  have below : n * a ≤ N * A := Nat.mul_le_mul top argument
  have quotient : n * a / wad + c ≤ N * A / wad + c :=
    Nat.add_le_add_right (Nat.div_le_div_right below) c
  refine Yields.bind ⟨_, umul_ok.2 ⟨below.trans_lt product, rfl⟩, rfl⟩ ?_
  rintro _ rfl
  refine Yields.bind ⟨_, udiv_ok.2 ⟨by decide, rfl⟩, rfl⟩ ?_
  rintro _ rfl
  exact ⟨_, uadd_ok.2 ⟨quotient.trans_lt sum, rfl⟩, quotient⟩

theorem chainWad_yields {A : Nat} (argument : a ≤ A) : ∀ (cs : List Nat) {n N M : Nat},
    n ≤ N → chainWad A cs N = some M →
      Yields (cs.foldlM (fun n c => Strict.mulAddWad n a c) n) (· ≤ M) := by
  intro cs
  induction cs with
  | nil =>
      intro n N M top last
      rw [chainWad, Option.some.injEq] at last
      exact .pure (last ▸ top)
  | cons c cs ih =>
      intro n N M top last
      rw [chainWad] at last
      split at last
      · next room =>
          rw [List.foldlM_cons]
          exact (mulAddWad_yields argument top room.1 room.2).bind fun n' top' => ih top' last
      · cases last

theorem negated_yields {h : Nat} (small : h < halfWord) :
    Yields (isub 0 (h : Int)) (· ≤ 0) := by
  have inside : InInt256 (0 - (h : Int)) := by
    unfold InInt256
    omega
  exact ⟨_, isub_ok.2 ⟨inside, rfl⟩, by omega⟩

theorem tail_yields (small : a ≤ uMax) : Yields (Strict.tail a) fun _ => True := by
  have square : a * a ≤ uMax * uMax := Nat.mul_le_mul small small
  have half : a * a / (2 * wad) < halfWord :=
    Nat.lt_of_le_of_lt (Nat.div_le_div_right square) (by decide)
  refine Yields.bind ⟨_, umul_ok.2 ⟨square.trans_lt (by decide), rfl⟩, rfl⟩ ?_
  rintro _ rfl
  refine Yields.bind ⟨_, udiv_ok.2 ⟨by decide, rfl⟩, rfl⟩ ?_
  rintro _ rfl
  refine Yields.bind ⟨_, toInt256_ok.2 ⟨half, rfl⟩, rfl⟩ ?_
  rintro _ rfl
  refine (negated_yields half).bind fun exponent negative => ?_
  refine (expWad_yields (negative.trans_lt (by decide))).bind fun e _ => ?_
  obtain ⟨N, numerator⟩ := Option.isSome_iff_exists.1
    (by decide +kernel : (chainWad uMax numeratorRest numeratorLead).isSome)
  obtain ⟨D, denominator⟩ := Option.isSome_iff_exists.1
    (by decide +kernel : (chainWad uMax denominatorRest denominatorLead).isSome)
  refine (chainWad_yields small _ (Nat.le_refl _) numerator).bind fun n _ => ?_
  refine (chainWad_yields small _ (Nat.le_refl _) denominator).bind fun d _ => ?_
  exact .pure trivial

end Tail

/-- Below the overflow bound `exp_wad`, on every positive word `ln_wad` and up to `U_MAX` `_tail`
give a result with every operation checked, and the unchecked code gives the same result. -/
theorem unchecked_never_wraps :
    (∀ x : Int, x < 135305999368893231589 → ∃ e, Strict.expWad x = .ok e ∧ expWad x = .ok e) ∧
    (∀ x : Nat, 0 < x → x < wordSize → ∃ l, Strict.lnWad x = .ok l ∧ lnWad x = .ok l) ∧
    (∀ a : Nat, a ≤ uMax → ∃ t, Strict.tail a = .ok t ∧ tail a = .ok t) := by
  refine ⟨?_, ?_, ?_⟩
  · intro x below
    obtain ⟨e, done, -⟩ := expWad_yields below
    exact ⟨e, done, expWad_of_strict done⟩
  · intro x positive word
    obtain ⟨l, done, -⟩ := lnWad_yields positive word
    exact ⟨l, done, lnWad_of_strict done⟩
  · intro a small
    obtain ⟨t, done, -⟩ := tail_yields small
    exact ⟨t, done, tail_of_strict done⟩

/-- At the ends of the three domains. -/
theorem unchecked_never_wraps_at_the_ends :
    (∃ e, Strict.expWad 135305999368893231588 = .ok e ∧ expWad 135305999368893231588 = .ok e) ∧
    (∃ l, Strict.lnWad 1 = .ok l ∧ lnWad 1 = .ok l) ∧
    (∃ t, Strict.tail uMax = .ok t ∧ tail uMax = .ok t) :=
  ⟨unchecked_never_wraps.1 _ (by decide), unchecked_never_wraps.2.1 1 (by decide) (by decide),
    unchecked_never_wraps.2.2 _ (Nat.le_refl _)⟩

end OverUnder.Contracts.NormalMath
