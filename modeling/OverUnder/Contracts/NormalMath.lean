/-
Module: OverUnder.Contracts.NormalMath
Purpose: The fixed-point exponential, logarithm, normal tail, curve function and
  solver of `contracts/src/lib/NormalMath.vy`. Loops over a constant range
  recurse on the iterations left.
Trusted boundary: human-reviewed spec
Main exports: expWad, lnWad, tail, gCdf, solveG
-/
import OverUnder.Vyper.Checked

namespace OverUnder.Contracts.NormalMath

open OverUnder.Vyper

/-- `UWAD`. -/
def wad : Nat := 10 ^ 18

/-- `INV_SQRT2PI`, the density of the standard normal at zero, rounded down. -/
def invSqrt2Pi : Nat := 398942280401432678

/-- `U_MAX`, the largest magnitude of a coordinate. -/
def uMax : Nat := 6 * 10 ^ 18

/-- `A6`. -/
def numeratorLead : Nat := 35262496599891100

/-- `A5` down to `A0`. -/
def numeratorRest : List Nat :=
  [700383064443688000, 6373962203531650000, 33912866078383000000,
    112079291497871000000, 221213596169931000000, 220206867912376000000]

/-- `B7`. -/
def denominatorLead : Nat := 88388347648318400

/-- `B6` down to `B0`. -/
def denominatorRest : List Nat :=
  [1755667163182640000, 16064177579207000000, 86780732202946100000,
    296564248779674000000, 637333633378831000000, 793826512519948000000,
    440413735824752000000]

def solverIters : Nat := 10

def solverTol : Int := 10 ^ 9

/-! ### Exponential -/

/-- `ln 2` with 96 fractional bits. -/
def ln2 : Int := 54916777467707473351141471128

/-- `(unsafe_mul(p, t) >> 96) + c`. -/
def mulAdd96 (p t c : Int) : Call Int := iadd (sarInt (unsafeMulInt p t) 96) c

/-- The first lines of `exp_wad`: the exponent `k` and the rest `t`, with 96
fractional bits. -/
def expReduce (x : Int) : Call (Int × Int) := do
  let t := unsafeDivInt (shlInt x 78) 3814697265625
  let rounded ← iadd (unsafeDivInt (shlInt t 96) ln2) (2 ^ 95)
  let k := sarInt rounded 96
  let whole ← imul k ln2
  let t ← isub t whole
  return (k, t)

/-- The numerator `p` of `exp_wad`. -/
def expNumerator (t : Int) : Call Int := do
  let y ← iadd t 1346386616545796478920950773328
  let y ← mulAdd96 y t 57155421227552351082224309758442
  let p ← iadd y t
  let p ← isub p 94201549194550492254356042504812
  let p ← mulAdd96 p y 28719021644029726153956944680412240
  iadd (unsafeMulInt p t) (shlInt 4385272521454847904659076985693276 96)

/-- The coefficients of the denominator `q` of `exp_wad` after the leading one. -/
def expDenominatorRest : List Int :=
  [50020603652535783019961831881945, -533845033583426703283633433725380,
    3604857256930695427073651918091429, -14423608567350463180887372962807573,
    26449188498355588339934803723976023]

def expDenominator (t : Int) : Call Int := do
  let q ← isub t 2855989394907223263936484059900
  expDenominatorRest.foldlM (fun q c => mulAdd96 q t c) q

/-- `unsafe_mul(convert(r, uint256), ...) >> convert(195 - k, uint256)`. -/
def expScale (r k : Int) : Call Nat := do
  let r ← toUint256 r
  let places ← isub 195 k
  let places ← toUint256 places
  return shr (unsafeMul r 3822833074963236453042738258902158003155416615667) places

def expWad (x : Int) : Call Nat :=
  if x ≤ -41446531673892822313 then
    return 0
  else do
    require (x < 135305999368893231589) (.reason "exp overflow")
    let (k, t) ← expReduce x
    let p ← expNumerator t
    let q ← expDenominator t
    expScale (unsafeDivInt p q) k

/-! ### Logarithm -/

/-- One `if v >= 1 << bits` of `_log2`. -/
def log2Step (vr : Nat × Nat) (bits : Nat) : Nat × Nat :=
  if vr.1 ≥ 2 ^ bits then (shr vr.1 bits, vr.2 + bits) else vr

def log2 (x : Nat) : Nat :=
  let (v, r) := [128, 64, 32, 16, 8, 4, 2].foldl log2Step (x, 0)
  if v ≥ 2 then r + 1 else r

/-- The coefficients of the numerator of `ln_wad` after the leading one. -/
def lnNumeratorRest : List Int :=
  [24828157081833163892658089445524, 43456485725739037958740375743393,
    -11111509109440967052023855526967, -45023709667254063763336534515857,
    -14706773417378608786704636184526]

/-- The coefficients of the denominator of `ln_wad` after the leading one. -/
def lnDenominatorRest : List Int :=
  [71694874799317883764090561454958, 283447036172924575727196451306956,
    401686690394027663651624208769553, 204048457590392012362485061816622,
    31853899698501571402653359427138, 909429971244387300277376558375]

def lnNumerator (t : Int) : Call Int := do
  let p ← iadd t 3273285459638523848632254066296
  let p ← lnNumeratorRest.foldlM (fun p c => mulAdd96 p t c) p
  isub (unsafeMulInt p t) (shlInt 795164235651350426258249787498 96)

def lnDenominator (t : Int) : Call Int := do
  let q ← iadd t 5573035233440673466300451813936
  lnDenominatorRest.foldlM (fun q c => mulAdd96 q t c) q

def lnWad (x : Nat) : Call Int := do
  require (x > 0) (.reason "ln undefined")
  let k ← isub (log2 x) 96
  let places ← isub 159 k
  let places ← toUint256 places
  let t ← toInt256 (shr (shl x places) 159)
  let p ← lnNumerator t
  let q ← lnDenominator t
  let r := unsafeMulInt (unsafeDivInt p q) 1677202110996718588342820967067443963516166
  let r := unsafeAddInt r (unsafeMulInt
    16597577552685614221487285958193947469193820559219878177908093499208371 k)
  let r := unsafeAddInt r
    600920179829731861736702779321621459595472258049074101567377883020018308
  return sarInt r 174

/-! ### Normal tail and curve -/

/-- `unsafe_div(unsafe_mul(n, a), UWAD) + c`. -/
def mulAddWad (n a c : Nat) : Call Nat := uadd (unsafeDiv (unsafeMul n a) wad) c

/-- `_tail`: the triple `(e, N, D)`. -/
def tail (a : Nat) : Call (Nat × Nat × Nat) := do
  let square ← toInt256 (unsafeDiv (unsafeMul a a) (2 * wad))
  let square ← isub 0 square
  let e ← expWad square
  let n ← numeratorRest.foldlM (fun n c => mulAddWad n a c) numeratorLead
  let d ← denominatorRest.foldlM (fun d c => mulAddWad d a c) denominatorLead
  return (e, n, d)

/-- `abs(w)` as a `uint256`. -/
def magnitude (w : Int) : Call Nat := do
  let a ← int256 |w|
  toUint256 a

/-- `e * n // d`, the upper tail probability. -/
def tailProbability (e n d : Nat) : Call Nat := do
  let en ← umul e n
  udiv en d

/-- `g(-a)` from the triple of `_tail`. -/
def gNegative (a e n d : Nat) : Call Nat := do
  let product ← umul a n
  let an ← udiv product d
  let diff := if invSqrt2Pi > an then invSqrt2Pi - an else 0
  let scaled ← umul e diff
  udiv scaled wad

/-- `g_cdf`: the pair `(g(w), Phi(w))`. -/
def gCdf (w : Int) : Call (Nat × Nat) := do
  let a ← magnitude w
  require (a ≤ uMax) (.reason "u bound")
  let (e, n, d) ← tail a
  let probability ← tailProbability e n d
  let gneg ← gNegative a e n d
  if w ≥ 0 then do
    let g ← uadd a gneg
    let p ← usub wad probability
    return (g, p)
  else
    return (gneg, probability)

/-! ### Solver -/

/-- The loop of `solve_g` for a root below zero: Newton on `ln g` from the left. -/
def solveLeft (c : Nat) (lc : Int) : Nat → Int → Nat → Nat → Call Int
  | 0, w, _, _ => return w
  | left + 1, w, gw, pw => do
      let lg ← lnWad (max gw 1)
      let gap ← isub lc lg
      let gi ← toInt256 gw
      let scaled ← imul gap gi
      let slope ← toInt256 (max pw 1)
      let st ← idiv scaled slope
      if st ≤ solverTol then return w
      else do
        let nw ← iadd w st
        let (ng, np) ← gCdf nw
        if ng > c then return w else solveLeft c lc left nw ng np

/-- The last loop of `solve_g`, over the remaining values of `j`. -/
def widen (c : Nat) : List Nat → Int → Call Int
  | [], _ => .error (.reason "solver")
  | j :: js, w => do
      let (gw, _) ← gCdf w
      if gw ≤ c then return w
      else do
        let w ← isub w (10 ^ 9 * 10 ^ (3 * j))
        widen c js w

/-- What `solve_g` does once Newton has stopped above the root. -/
def pullLeft (c : Nat) (w : Int) : Call Int := do
  let w ← isub w (10 ^ 6)
  widen c [0, 1, 2] w

/-- The loop of `solve_g` for a root at or above zero: Newton on `g` from the
right. -/
def solveRight (c : Nat) : Nat → Int → Call Int
  | 0, w => pullLeft c w
  | left + 1, w => do
      let (gw, pw) ← gCdf w
      if gw ≤ c then return w
      else do
        let excess ← usub gw c
        let scaled ← umul excess wad
        let step ← udiv scaled (max pw 1)
        let step ← toInt256 step
        let w ← isub w step
        if step ≤ solverTol then pullLeft c w else solveRight c left w

/-- Where Newton starts on the right: the smaller of `c` and the tangent at `w0`. -/
def solveStart (c : Nat) (w0 : Int) (g0 p0 : Nat) : Call Int := do
  let w ← toInt256 c
  if p0 > 0 then do
    let rise ← usub c g0
    let scaled ← umul rise wad
    let run ← udiv scaled p0
    let run ← toInt256 run
    let t ← iadd w0 run
    return if t < w then t else w
  else
    return w

def solveG (c : Nat) (w0 : Int) (g0 p0 : Nat) : Call Int := do
  require (c < uMax) (.reason "price bound")
  if c < invSqrt2Pi then do
    let lc ← lnWad c
    solveLeft c lc solverIters w0 g0 p0
  else do
    let w ← solveStart c w0 g0 p0
    solveRight c solverIters w

end OverUnder.Contracts.NormalMath
