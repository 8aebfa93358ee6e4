/-
Module: OverUnder.Contracts.MarketAMM
Purpose: The pool contract of `contracts/src/MarketAMM.vy` over the outcome
  tokens and the collateral it holds. Events and view getters are left out. What
  the factory and its oracle answer to a static call is a parameter of the call.
Trusted boundary: human-reviewed spec
Main exports: Pool, MarketAMM, Market, buyQuote, sellQuote, buyWithUSDC,
  sellToUSDC, addLiquidity, removeLiquidity, MarketAMM.Tx, MarketAMM.exec,
  Market.Action, Market.perform, Market.Step
-/
import OverUnder.Contracts.ConditionalTokens
import OverUnder.Contracts.NormalMath

namespace OverUnder.Contracts

open OverUnder.Vyper
open NormalMath (wad)

structure Pool where
  yesReserve : Nat
  noReserve : Nat
  lpSupply : Nat
  «exists» : Bool
  liquidity : Nat
  lpFees : Nat
  closeTime : Nat

/-- `empty(Pool)`. -/
def Pool.empty : Pool where
  yesReserve := 0
  noReserve := 0
  lpSupply := 0
  «exists» := false
  liquidity := 0
  lpFees := 0
  closeTime := 0

/-- Storage of MarketAMM.vy. `lpBalance` and `seedLocked` are keyed by condition
and account. -/
structure MarketAMM where
  feeVault : Address
  operator : Address
  factory : Address
  pools : Bytes32 → Pool
  lpBalance : Bytes32 × Address → Nat
  closeGate : Bool
  seedLocked : Bytes32 × Address → Nat

/-- The pools and the tokens they hold. -/
structure Market where
  tokens : Tokens
  amm : MarketAMM

/-- Where the pool contract and its outcome-token contract live. -/
structure AmmSite where
  self : Address
  ctf : CtfSite
  apart : self ≠ ctf.self

/-- The caller and the block of a call, and what other contracts answer in it. -/
structure Msg where
  sender : Address
  timestamp : Nat
  /-- `IFactoryView(factory).oracle()`. -/
  factoryOracle : Address → Call Address
  /-- `IOracleView(oracle).closeTime(conditionId)`. -/
  oracleCloseTime : Address → Bytes32 → Call Nat

namespace MarketAMM

def vaultFeeBps : Nat := 50
def lpFeeBps : Nat := 50
def bpsDenom : Nat := 10000
/-- `PHI0`, the density of the standard normal at zero. -/
def phi0 : Nat := 398942280401432678
def uTradeMax : Int := 3719016485455709000
def gTradeMax : Nat := 3719040431773923363
def minLp : Nat := 10 ^ 4

/-! ### Arithmetic shared by the entry points -/

def fee (amount bps : Nat) : Call Nat := do
  let scaled ← umul amount bps
  let raised ← uadd scaled bpsDenom
  let raised ← usub raised 1
  udiv raised bpsDenom

/-- `(a * b + d - 1) // d`. -/
def mulDivUp (a b d : Nat) : Call Nat := do
  let product ← umul a b
  let raised ← uadd product d
  let raised ← usub raised 1
  udiv raised d

/-- `a * b // d`. -/
def mulDiv (a b d : Nat) : Call Nat := do
  let product ← umul a b
  udiv product d

/-- `convert(a, int256) - convert(b, int256)`. -/
def signedGap (a b : Nat) : Call Int := do
  let a ← toInt256 a
  let b ← toInt256 b
  isub a b

/-- `gap * IWAD // convert(L, int256)`. -/
def coordinate (gap : Int) (L : Nat) : Call Int := do
  let scaled ← imul gap wad
  let L ← toInt256 L
  idiv scaled L

/-- `r - min(r, (L * g + WAD - 1) // WAD)`, the part of a reserve above the curve. -/
def surplus (L r g : Nat) : Call Nat := do
  let onCurve ← mulDivUp L g wad
  usub r (min r onCurve)

/-! ### Trades -/

/-- What `_buy` returns. -/
structure BuyQuote where
  tokensOut : Nat
  newYes : Nat
  newNo : Nat
  vaultFee : Nat
  lpFee : Nat

/-- What `_sell` returns. -/
structure SellQuote where
  usdcOut : Nat
  newYes : Nat
  newNo : Nat
  merged : Nat
  vaultFee : Nat
  lpFee : Nat

/-- `r_in_new - L*w` with the product rounded toward the pool. -/
def reserveAt (L rInNew : Nat) (w : Int) : Call Nat := do
  if w ≥ 0 then do
    let w ← toUint256 w
    let shift ← mulDiv L w wad
    usub rInNew shift
  else do
    let w ← isub 0 w
    let w ← toUint256 w
    let shift ← mulDivUp L w wad
    uadd rInNew shift

/-- The part of `_buy` after the orientation: the new reserves `r_in_new` and
`r_out_new`. -/
def buyReserves (L rIn rOut trade : Nat) : Call (Nat × Nat) := do
  let rInNew ← uadd rIn trade
  let gap ← signedGap rIn rOut
  let w0 ← coordinate gap L
  let (g0, p0) ← NormalMath.gCdf w0
  let sp ← surplus L rIn g0
  let priced ← usub rInNew sp
  let c ← mulDiv priced wad L
  require (c ≤ gTradeMax) (.reason "price bound")
  if g0 < c then do
    let w ← NormalMath.solveG c w0 g0 p0
    let rOutNew ← reserveAt L rInNew w
    return (rInNew, min rOutNew rOut)
  else
    return (rInNew, rOut)

/-- `_buy`. -/
def buyQuote (p : Pool) (buyYes : Bool) (usdcIn : Nat) : Call BuyQuote := do
  require (p.exists ∧ p.liquidity > 0) (.reason "no pool")
  let vaultFee ← fee usdcIn vaultFeeBps
  let lpFee ← fee usdcIn lpFeeBps
  let fees ← uadd vaultFee lpFee
  require (usdcIn > fees) (.reason "dust")
  let net ← usub usdcIn vaultFee
  let trade ← usub net lpFee
  let rIn := if buyYes then p.noReserve else p.yesReserve
  let rOut := if buyYes then p.yesReserve else p.noReserve
  let (rInNew, rOutNew) ← buyReserves p.liquidity rIn rOut trade
  require (rOutNew > 0) (.reason "price bound")
  let bought ← usub rOut rOutNew
  let tokensOut ← uadd trade bought
  if buyYes then
    return { tokensOut, newYes := rOutNew, newNo := rInNew, vaultFee, lpFee }
  else
    return { tokensOut, newYes := rInNew, newNo := rOutNew, vaultFee, lpFee }

/-- The part of `_sell` after the orientation: the new reserves `r_same_new` and
`r_other_new` and the merged sets `m`. -/
def sellReserves (L rSame rOther s : Nat) : Call (Nat × Nat × Nat) := do
  let gap ← signedGap rOther rSame
  let wo ← coordinate gap L
  let (go, _) ← NormalMath.gCdf wo
  let sp ← surplus L rOther go
  let sold ← toInt256 s
  let gapNew ← isub gap sold
  let wn ← coordinate gapNew L
  let wn ← iadd wn 1
  require (wn ≥ -uTradeMax) (.reason "price bound")
  let (gw, _) ← NormalMath.gCdf wn
  let onCurve ← mulDivUp L gw wad
  let raised ← uadd onCurve 1
  let rOtherNew ← uadd raised sp
  require (rOtherNew < rOther) (.reason "dust")
  let m ← usub rOther rOtherNew
  if m > s then do
    let rOtherNew ← usub rOther s
    let rSameNew ← uadd rSame s
    let rSameNew ← usub rSameNew s
    return (rSameNew, rOtherNew, s)
  else do
    let rSameNew ← uadd rSame s
    let rSameNew ← usub rSameNew m
    return (rSameNew, rOtherNew, m)

/-- `_sell`. -/
def sellQuote (p : Pool) (sellYes : Bool) (s : Nat) : Call SellQuote := do
  require (p.exists ∧ p.liquidity > 0) (.reason "no pool")
  let rSame := if sellYes then p.yesReserve else p.noReserve
  let rOther := if sellYes then p.noReserve else p.yesReserve
  let (rSameNew, rOtherNew, merged) ← sellReserves p.liquidity rSame rOther s
  let vaultFee ← fee merged vaultFeeBps
  let lpFee ← fee merged lpFeeBps
  let fees ← uadd vaultFee lpFee
  require (merged > fees) (.reason "dust")
  let net ← usub merged vaultFee
  let usdcOut ← usub net lpFee
  if sellYes then
    return { usdcOut, newYes := rSameNew, newNo := rOtherNew, merged, vaultFee, lpFee }
  else
    return { usdcOut, newYes := rOtherNew, newNo := rSameNew, merged, vaultFee, lpFee }

/-! ### Entry points -/

section EntryPoints

variable (site : AmmSite)

/-- `_pid`. -/
def pid (conditionId : Bytes32) (yes : Bool) : Nat :=
  ConditionalTokens.pid site.ctf conditionId (if yes then 0 else 1)

/-- `_assert_open`. -/
def assertOpen (amm : MarketAMM) (timestamp closeTime : Nat) : Call Unit :=
  if amm.closeGate ∧ closeTime ≠ 0 then
    require (timestamp < closeTime) (.reason "market closed")
  else
    return ()

/-- `self.pools[conditionId] = p`. -/
def setPool (amm : MarketAMM) (conditionId : Bytes32) (p : Pool) : MarketAMM :=
  { amm with pools := Function.update amm.pools conditionId p }

/-- The approval made by the constructor, in the state before it. -/
def deploy (tokens : Tokens) (feeVault operator : Address) : Call Market := do
  require (site.ctf.self ≠ zeroAddress)
  let usdc := tokens.usdc.approve site.self site.ctf.self MockUSDC.maxAllowance
  return {
    tokens := { tokens with usdc }
    amm := {
      feeVault, operator
      factory := zeroAddress
      pools := fun _ => Pool.empty
      lpBalance := fun _ => 0
      closeGate := true
      seedLocked := fun _ => 0 } }

def setFactory (amm : MarketAMM) (sender factory : Address) : Call MarketAMM := do
  require (sender = amm.operator)
  return { amm with factory }

def setCloseGate (amm : MarketAMM) (sender : Address) (enabled : Bool) :
    Call MarketAMM := do
  require (sender = amm.operator) (.reason "not operator")
  return { amm with closeGate := enabled }

/-- `extcall IERC20(self.usdc).transferFrom(msg.sender, self, amount)`. -/
def pullUsdc (tokens : Tokens) (owner : Address) (amount : Nat) : Call Tokens := do
  let usdc ← tokens.usdc.transferFrom site.self owner site.self amount
  return { tokens with usdc }

/-- `extcall IERC20(self.usdc).transfer(recipient, amount)`. -/
def sendUsdc (tokens : Tokens) (recipient : Address) (amount : Nat) : Call Tokens := do
  let usdc ← tokens.usdc.transfer site.self recipient amount
  return { tokens with usdc }

/-- `safeTransferFrom(self, recipient, self._pid(conditionId, yes), amount)`. -/
def sendTokens (tokens : Tokens) (recipient : Address) (conditionId : Bytes32)
    (yes : Bool) (amount : Nat) : Call Tokens := do
  let ctf ← ConditionalTokens.safeTransferFrom tokens.ctf site.self site.self recipient
    (pid site conditionId yes) amount
  return { tokens with ctf }

/-- `safeTransferFrom(msg.sender, self, self._pid(conditionId, yes), amount)`. -/
def pullTokens (tokens : Tokens) (owner : Address) (conditionId : Bytes32)
    (yes : Bool) (amount : Nat) : Call Tokens := do
  let ctf ← ConditionalTokens.safeTransferFrom tokens.ctf site.self owner site.self
    (pid site conditionId yes) amount
  return { tokens with ctf }

def splitPosition (tokens : Tokens) (conditionId : Bytes32) (amount : Nat) : Call Tokens :=
  ConditionalTokens.splitPosition site.ctf tokens site.self conditionId amount

def mergePositions (tokens : Tokens) (conditionId : Bytes32) (amount : Nat) :
    Call Tokens :=
  ConditionalTokens.mergePositions site.ctf tokens site.self conditionId amount

/-- An external call made only under a guard. -/
def callWhen (guard : Prop) [Decidable guard] (tokens : Tokens)
    (call : Tokens → Call Tokens) : Call Tokens :=
  if guard then call tokens else return tokens

/-- `_seed`. -/
def seed (m : Market) (msg : Msg) (conditionId : Bytes32) (usdcAmount : Nat)
    (provider : Address) : Call Market := do
  require (msg.sender = m.amm.factory ∨ msg.sender = m.amm.operator)
    (.reason "not authorized")
  require (usdcAmount ≥ minLp) (.reason "seed below min lp")
  require (provider ≠ zeroAddress) (.reason "zero provider")
  require (¬(m.amm.pools conditionId).exists) (.reason "pool exists")
  require (m.amm.factory ≠ zeroAddress) (.reason "not registered")
  let oracle ← msg.factoryOracle m.amm.factory
  let close ← msg.oracleCloseTime oracle conditionId
  require (close > 0) (.reason "not registered")
  let tokens ← pullUsdc site m.tokens msg.sender usdcAmount
  let tokens ← splitPosition site tokens conditionId usdcAmount
  let liquidity ← mulDiv usdcAmount wad phi0
  let amm := m.amm.setPool conditionId {
    yesReserve := usdcAmount
    noReserve := usdcAmount
    lpSupply := usdcAmount
    «exists» := true
    liquidity
    lpFees := 0
    closeTime := close }
  return {
    tokens
    amm := { amm with
      lpBalance := Function.update amm.lpBalance (conditionId, provider) usdcAmount
      seedLocked := Function.update amm.seedLocked (conditionId, provider) usdcAmount } }

def seedPool (m : Market) (msg : Msg) (conditionId : Bytes32) (usdcAmount : Nat) :
    Call Market :=
  seed site m msg conditionId usdcAmount msg.sender

def seedPoolFor (m : Market) (msg : Msg) (conditionId : Bytes32) (usdcAmount : Nat)
    (provider : Address) : Call Market :=
  seed site m msg conditionId usdcAmount provider

def buyWithUSDC (m : Market) (msg : Msg) (conditionId : Bytes32) (buyYes : Bool)
    (usdcIn minOut : Nat) : Call (Nat × Market) := do
  require (usdcIn > 0)
  require (¬m.tokens.ctf.isResolved conditionId)
  let p := m.amm.pools conditionId
  assertOpen m.amm msg.timestamp p.closeTime
  let q ← buyQuote p buyYes usdcIn
  require (q.tokensOut ≥ minOut) (.reason "slippage")
  let lpFees ← uadd p.lpFees q.lpFee
  let amm := m.amm.setPool conditionId
    { p with yesReserve := q.newYes, noReserve := q.newNo, lpFees }
  let net ← usub usdcIn q.vaultFee
  let trade ← usub net q.lpFee
  let tokens ← pullUsdc site m.tokens msg.sender usdcIn
  let tokens ← sendUsdc site tokens amm.feeVault q.vaultFee
  let tokens ← splitPosition site tokens conditionId trade
  let tokens ← sendTokens site tokens msg.sender conditionId buyYes q.tokensOut
  return (q.tokensOut, { tokens, amm })

def sellToUSDC (m : Market) (msg : Msg) (conditionId : Bytes32) (sellYes : Bool)
    (tokenAmount minUsdc : Nat) : Call (Nat × Market) := do
  require (tokenAmount > 0)
  require (¬m.tokens.ctf.isResolved conditionId)
  let p := m.amm.pools conditionId
  assertOpen m.amm msg.timestamp p.closeTime
  let q ← sellQuote p sellYes tokenAmount
  require (q.usdcOut ≥ minUsdc) (.reason "slippage")
  let lpFees ← uadd p.lpFees q.lpFee
  let amm := m.amm.setPool conditionId
    { p with yesReserve := q.newYes, noReserve := q.newNo, lpFees }
  let tokens ← pullTokens site m.tokens msg.sender conditionId sellYes tokenAmount
  let tokens ← mergePositions site tokens conditionId q.merged
  let tokens ← sendUsdc site tokens amm.feeVault q.vaultFee
  let tokens ← sendUsdc site tokens msg.sender q.usdcOut
  return (q.usdcOut, { tokens, amm })

/-- The changes of a deposit to the pool: the sets to split, the reserve legs and
the pool after it. -/
structure Deposit where
  sets : Nat
  dx : Nat
  dy : Nat
  minted : Nat
  pool : Pool

/-- The arithmetic of `addLiquidity`. -/
def deposit (p : Pool) (usdcAmount minLpOut : Nat) : Call Deposit := do
  let mx := max p.yesReserve p.noReserve
  let denom ← uadd mx p.lpFees
  let sets ← mulDivUp usdcAmount mx denom
  let dx ← mulDivUp p.yesReserve usdcAmount denom
  let dy ← mulDivUp p.noReserve usdcAmount denom
  let minted ← mulDiv p.lpSupply usdcAmount denom
  require (minted > 0) (.reason "dust")
  require (minted ≥ minLpOut) (.reason "slippage")
  let yesReserve ← uadd p.yesReserve dx
  let noReserve ← uadd p.noReserve dy
  let grown ← mulDiv p.liquidity usdcAmount denom
  let liquidity ← uadd p.liquidity grown
  let left ← usub usdcAmount sets
  let lpFees ← uadd p.lpFees left
  let lpSupply ← uadd p.lpSupply minted
  return {
    sets, dx, dy, minted
    pool := { p with yesReserve, noReserve, lpSupply, liquidity, lpFees } }

def addLiquidity (m : Market) (msg : Msg) (conditionId : Bytes32)
    (usdcAmount minLpOut : Nat) : Call (Nat × Market) := do
  let p := m.amm.pools conditionId
  require (p.exists ∧ p.liquidity > 0) (.reason "no pool")
  require (usdcAmount > 0)
  require (¬m.tokens.ctf.isResolved conditionId)
  assertOpen m.amm msg.timestamp p.closeTime
  let d ← deposit p usdcAmount minLpOut
  let amm := m.amm.setPool conditionId d.pool
  let lpBalance ← credit amm.lpBalance (conditionId, msg.sender) d.minted
  let tokens ← pullUsdc site m.tokens msg.sender usdcAmount
  let tokens ← splitPosition site tokens conditionId d.sets
  let tokens ← callWhen (d.sets > d.dx) tokens fun tokens =>
    sendTokens site tokens msg.sender conditionId true (d.sets - d.dx)
  let tokens ← callWhen (d.sets > d.dy) tokens fun tokens =>
    sendTokens site tokens msg.sender conditionId false (d.sets - d.dy)
  return (d.minted, { tokens, amm := { amm with lpBalance } })

/-- `_lp_locked`. -/
def lpLocked (m : Market) (conditionId : Bytes32) (account : Address)
    (timestamp closeTime : Nat) : Nat :=
  let locked := m.amm.seedLocked (conditionId, account)
  if locked = 0 then 0
  else if timestamp < closeTime ∧ ¬m.tokens.ctf.isResolved conditionId then locked
  else min locked minLp

/-- The shares of a withdrawal and the pool after it. -/
structure Withdrawal where
  dx : Nat
  dy : Nat
  df : Nat
  pool : Pool

/-- The arithmetic of `removeLiquidity`. -/
def withdrawal (p : Pool) (lpAmount : Nat) : Call Withdrawal := do
  let dx ← mulDiv p.yesReserve lpAmount p.lpSupply
  let dy ← mulDiv p.noReserve lpAmount p.lpSupply
  let df ← mulDiv p.lpFees lpAmount p.lpSupply
  let share ← mulDivUp p.liquidity lpAmount p.lpSupply
  let dl := min share p.liquidity
  let yesReserve ← usub p.yesReserve dx
  let noReserve ← usub p.noReserve dy
  let lpFees ← usub p.lpFees df
  let liquidity ← usub p.liquidity dl
  let lpSupply ← usub p.lpSupply lpAmount
  return { dx, dy, df, pool := { p with yesReserve, noReserve, lpSupply, liquidity, lpFees } }

def removeLiquidity (m : Market) (msg : Msg) (conditionId : Bytes32) (lpAmount : Nat) :
    Call (Nat × Market) := do
  let p := m.amm.pools conditionId
  require p.exists (.reason "no pool")
  let bal := m.amm.lpBalance (conditionId, msg.sender)
  require (lpAmount > 0 ∧ lpAmount ≤ bal) (.reason "lp balance")
  let kept ← usub bal lpAmount
  require (kept ≥ lpLocked m conditionId msg.sender msg.timestamp p.closeTime)
    (.reason "seed locked")
  let supplyLeft ← usub p.lpSupply lpAmount
  require (supplyLeft ≥ minLp) (.reason "min liquidity")
  let d ← withdrawal p lpAmount
  let amm := m.amm.setPool conditionId d.pool
  let lpBalance ← debit amm.lpBalance (conditionId, msg.sender) lpAmount
  -- before resolution the complete sets among the payout are merged
  let sets := if m.tokens.ctf.isResolved conditionId then 0 else min d.dx d.dy
  let tokens ← callWhen (sets > 0) m.tokens fun tokens =>
    mergePositions site tokens conditionId sets
  let usdcOut ← uadd d.df sets
  let yesOut ← usub d.dx sets
  let noOut ← usub d.dy sets
  let tokens ← callWhen (yesOut > 0) tokens fun tokens =>
    sendTokens site tokens msg.sender conditionId true yesOut
  let tokens ← callWhen (noOut > 0) tokens fun tokens =>
    sendTokens site tokens msg.sender conditionId false noOut
  let tokens ← callWhen (usdcOut > 0) tokens fun tokens =>
    sendUsdc site tokens msg.sender usdcOut
  return (usdcOut, { tokens, amm := { amm with lpBalance } })

/-- The state-changing entry points of the contract. -/
inductive Tx where
  | setFactory (factory : Address)
  | setCloseGate (enabled : Bool)
  | seedPool (conditionId : Bytes32) (usdcAmount : Nat)
  | seedPoolFor (conditionId : Bytes32) (usdcAmount : Nat) (provider : Address)
  | buyWithUSDC (conditionId : Bytes32) (buyYes : Bool) (usdcIn minOut : Nat)
  | sellToUSDC (conditionId : Bytes32) (sellYes : Bool) (tokenAmount minUsdc : Nat)
  | addLiquidity (conditionId : Bytes32) (usdcAmount minLpOut : Nat)
  | removeLiquidity (conditionId : Bytes32) (lpAmount : Nat)

/-- Run one entry point. -/
def exec (m : Market) (msg : Msg) : Tx → Call Market
  | .setFactory factory => do
      let amm ← setFactory m.amm msg.sender factory
      return { m with amm }
  | .setCloseGate enabled => do
      let amm ← setCloseGate m.amm msg.sender enabled
      return { m with amm }
  | .seedPool conditionId usdcAmount => seedPool site m msg conditionId usdcAmount
  | .seedPoolFor conditionId usdcAmount provider =>
      seedPoolFor site m msg conditionId usdcAmount provider
  | .buyWithUSDC conditionId buyYes usdcIn minOut => do
      let (_, m) ← buyWithUSDC site m msg conditionId buyYes usdcIn minOut
      return m
  | .sellToUSDC conditionId sellYes tokenAmount minUsdc => do
      let (_, m) ← sellToUSDC site m msg conditionId sellYes tokenAmount minUsdc
      return m
  | .addLiquidity conditionId usdcAmount minLpOut => do
      let (_, m) ← addLiquidity site m msg conditionId usdcAmount minLpOut
      return m
  | .removeLiquidity conditionId lpAmount => do
      let (_, m) ← removeLiquidity site m msg conditionId lpAmount
      return m

end EntryPoints

end MarketAMM

/-! ### Runs of the pool contract among other callers -/

/-- A call to the pool contract or to one of the token contracts. -/
inductive Market.Action where
  | amm (msg : Msg) (tx : MarketAMM.Tx)
  | tokens (sender : Address) (tx : Tokens.Tx)

def Market.Action.sender : Market.Action → Address
  | .amm msg _ => msg.sender
  | .tokens sender _ => sender

/-- Run one call. -/
def Market.perform (site : AmmSite) (m : Market) : Market.Action → Call Market
  | .amm msg tx => MarketAMM.exec site m msg tx
  | .tokens sender tx => do
      let tokens ← Tokens.exec site.ctf m.tokens sender tx
      return { m with tokens }

/-- Neither the pool contract nor the outcome-token contract originates a call. -/
def Market.Action.External (site : AmmSite) (action : Market.Action) : Prop :=
  action.sender ≠ site.self ∧ action.sender ≠ site.ctf.self

instance Market.Action.decidableExternal (site : AmmSite) (action : Market.Action) :
    Decidable (action.External site) :=
  inferInstanceAs (Decidable (_ ∧ _))

/-- One call that did not revert. -/
inductive Market.Step (site : AmmSite) : Market → Market → Prop where
  | call {m after : Market} (action : Market.Action) (outsider : action.External site)
      (done : Market.perform site m action = .ok after) : Step site m after

end OverUnder.Contracts
