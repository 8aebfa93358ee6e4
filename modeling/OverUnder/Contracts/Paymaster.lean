/-
Module: OverUnder.Contracts.Paymaster
Purpose: What `contracts/src/OverUnderPaymaster.vy` checks of a user operation before it
  sponsors it, and the call that `execute` of `contracts/src/SimpleAccount.vy` then makes.
  The digest the operator signs, `ecrecover` and the answers of USDC and the entry point are
  parameters. Deposits, settings, events and `postOp` are left out.
Trusted boundary: human-reviewed spec
Main exports: Bytes8192, UserOp, Paymaster, PaymasterSite, validateCall, innerCall,
  validateCallData, isPaymasterApprove, chargeCap, checkOperatorSig, validatePaymasterUserOp,
  RawCall, execute
-/
import Mathlib
import OverUnder.Vyper.Abi

namespace OverUnder.Contracts

open OverUnder.Vyper

/-- A `Bytes[8192]`. -/
structure Bytes8192 where
  bytes : List Byte
  bounded : bytes.length ≤ 8192

/-- `PackedUserOperation`. -/
structure UserOp where
  sender : Address
  nonce : Nat
  initCode : Bytes8192
  callData : Bytes8192
  accountGasLimits : Bytes32
  preVerificationGas : Nat
  gasFees : Bytes32
  paymasterAndData : Bytes8192
  signature : Bytes8192

structure DailySpend where
  windowStart : Nat
  spent : Nat

/-- Storage of OverUnderPaymaster.vy. -/
structure Paymaster where
  entryPoint : Address
  operator : Address
  allowedFactories : Address → Bool
  allowedSenders : Address → Bool
  usdc : Address
  ctf : Address
  amm : Address
  exchange : Address
  oracle : Address
  feeVault : Address
  weiPerUsdc : Nat
  dailyCapUsdc : Nat
  dailySpend : Address → DailySpend

/-- Where the paymaster lives, what the operator signs for an operation valid in a window, and
what other contracts answer. -/
structure PaymasterSite where
  self : Address
  ecrecover : Ecrecover
  operatorDigest : UserOp → Nat → Nat → Nat
  usdcBalanceOf : Address → Nat
  usdcAllowance : Address × Address → Nat
  /-- `getDepositInfo(self)[0]`. -/
  deposit : Nat

namespace Paymaster

def window : Nat := 86400

def selectorApprove : Nat := 0x095ea7b3
def selectorSplit : Nat := 0xa3d7da1d
def selectorSetApproval : Nat := 0xa22cb465
def selectorBuyUsdc : Nat := 0xa9c98025
def selectorSellUsdc : Nat := 0xd4bd65f0
def selectorAddLiq : Nat := 0x3b57e2bc
def selectorCastVote : Nat := 0xb4b0713e
def selectorCancelOrder : Nat := 0xdd707492
def selectorIncNonce : Nat := 0x627cdcb9
def selectorRequestRedeem : Nat := 0xaa2f892d
def selectorClaim : Nat := 0x4e71d92d
def selectorMatchOrders : Nat := 0xe9f2cd3e
def selectorExecute : Nat := 0xb61d27f6
def selectorExecuteBatch : Nat := 0x47e1da2a

/-- `_extractSelector`. -/
def extractSelector (callData : List Byte) : Call Nat := do
  require (callData.length ≥ 4) (.reason "calldata too short")
  let selector ← sliceBytes callData 0 4
  return bytesToNat selector

/-- `_extractAddress`: the low 160 bits of a word. -/
def extractAddress (callData : List Byte) (offset : Nat) : Call Address := do
  let last ← uadd offset 32
  require (callData.length ≥ last) (.reason "calldata too short for address")
  let word ← sliceBytes callData offset 32
  return BitVec.ofNat 160 (bytesToNat word)

/-- `_extractUint`. -/
def extractUint (callData : List Byte) (offset : Nat) : Call Nat := do
  let last ← uadd offset 32
  require (callData.length ≥ last) (.reason "calldata too short for uint")
  let word ← sliceBytes callData offset 32
  return bytesToNat word

variable (site : PaymasterSite) (p : Paymaster)

/-- `_validateCall`. -/
def validateCall (recipient : Address) (callData : List Byte) : Call Bool :=
  if callData.length < 4 then return false
  else do
    let selector ← extractSelector callData
    if selector = selectorMatchOrders then return false
    else if recipient = p.usdc ∧ selector = selectorApprove then
      if callData.length < 36 then return false
      else do
        let spender ← extractAddress callData 4
        return decide (spender ∈ [p.ctf, p.exchange, p.amm, p.feeVault, site.self])
    else if recipient = p.ctf ∧ selector = selectorSplit then return true
    else if recipient = p.ctf ∧ selector = selectorSetApproval then
      if callData.length < 68 then return false
      else do
        let operator ← extractAddress callData 4
        return decide (operator ∈ [p.amm, p.exchange, p.feeVault])
    else if recipient = p.amm ∧ selector ∈ [selectorBuyUsdc, selectorSellUsdc, selectorAddLiq] then
      return true
    else if recipient = p.oracle ∧ selector = selectorCastVote then return true
    else if recipient = p.exchange ∧ selector ∈ [selectorCancelOrder, selectorIncNonce] then
      return true
    else if recipient = p.feeVault ∧ selector ∈ [selectorRequestRedeem, selectorClaim] then
      return true
    else return false

/-- `_innerCall`; no call is the `False` of the source. -/
def innerCall (callData : List Byte) : Call (Option (Address × Nat × List Byte)) :=
  if callData.length < 4 then return none
  else do
    let selector ← extractSelector callData
    if selector = selectorExecuteBatch then return none
    else if selector ≠ selectorExecute then return none
    else if callData.length < 100 then return none
    else do
      let target ← extractAddress callData 4
      let amount ← extractUint callData 36
      let dataOffsetBytes ← sliceBytes callData 68 32
      let dataOffset := bytesToNat dataOffsetBytes
      let absoluteDataOffset ← uadd 4 dataOffset
      let innerDataStart ← uadd absoluteDataOffset 32
      if dataOffset < 96 ∨ innerDataStart > callData.length then return none
      else do
        let dataLenBytes ← sliceBytes callData absoluteDataOffset 32
        let dataLen := bytesToNat dataLenBytes
        let innerDataEnd ← uadd innerDataStart dataLen
        if dataLen < 4 ∨ innerDataEnd > callData.length then return none
        else do
          let innerData ← sliceBytes callData innerDataStart dataLen
          return some (target, amount, innerData)

/-- `_validateCallData`. -/
def validateCallData (callData : List Byte) : Call Bool := do
  let inner ← innerCall callData
  match inner with
  | none => return false
  | some (target, amount, data) =>
      if amount ≠ 0 then return false else validateCall site p target data

/-- `_isPaymasterApprove`. -/
def isPaymasterApprove (callData : List Byte) (fee : Nat) : Call Bool := do
  let inner ← innerCall callData
  match inner with
  | none => return false
  | some (target, _, data) =>
      if target ≠ p.usdc then return false
      else if data.length < 68 then return false
      else do
        let selector ← extractSelector data
        if selector ≠ selectorApprove then return false
        else do
          let spender ← extractAddress data 4
          let approved ← extractUint data 36
          return decide (spender = site.self ∧ approved ≥ fee)

/-- `_chargeCap`. -/
def chargeCap (timestamp : Nat) (sender : Address) (fee : Nat) : Call Paymaster := do
  let before := p.dailySpend sender
  let windowEnd ← uadd before.windowStart window
  let current : DailySpend :=
    if before.windowStart = 0 ∨ timestamp ≥ windowEnd then ⟨timestamp, 0⟩ else before
  let spent ← uadd current.spent fee
  require (spent ≤ p.dailyCapUsdc) (.reason "paymaster: daily cap")
  return { p with dailySpend := Function.update p.dailySpend sender { current with spent } }

/-- The value of a slice, as `_addr20` and `_u48` convert it. -/
def sliceValue (data : List Byte) (offset length : Nat) : Call Nat := do
  let part ← sliceBytes data offset length
  return bytesToNat part

/-- `_checkOperatorSig`. -/
def checkOperatorSig (op : UserOp) : Call (Nat × Nat) := do
  let data := op.paymasterAndData.bytes
  require (data.length ≥ 129) (.reason "paymaster: paymasterAndData")
  let pm ← sliceValue data 0 20
  require (BitVec.ofNat 160 pm = site.self) (.reason "paymaster: prefix")
  let validUntil ← sliceValue data 52 6
  let validAfter ← sliceValue data 58 6
  let sig : Signature := ⟨(data.drop 64).take 65, List.length_take_le _ _⟩
  let signer ← recoverSigner site.ecrecover (site.operatorDigest op validUntil validAfter) sig
  require (signer = p.operator) (.reason "paymaster: bad operator sig")
  return (validUntil, validAfter)

/-- The senders after the check of `initCode`. -/
def admitSender (op : UserOp) : Call Paymaster := do
  let initCode := op.initCode.bytes
  if initCode.length > 0 then do
    require (initCode.length ≥ 20) (.reason "paymaster: initCode")
    let factory ← sliceValue initCode 0 20
    require (p.allowedFactories (BitVec.ofNat 160 factory) = true)
      (.reason "paymaster: factory not allowed")
    return { p with allowedSenders := Function.update p.allowedSenders op.sender true }
  else do
    require (p.allowedSenders op.sender = true)
      (.reason "paymaster: sender not from allowed factory")
    return p

/-- `validatePaymasterUserOp`, with the context and the validation data it returns. -/
def validatePaymasterUserOp (sender : Address) (timestamp : Nat) (op : UserOp) (maxCost : Nat) :
    Call (Paymaster × (Address × Nat) × Nat) := do
  require (sender = p.entryPoint) (.reason "entrypoint only")
  require (p.weiPerUsdc ≠ 0) (.reason "paymaster: weiPerUsdc")
  let p ← p.admitSender op
  let (validUntil, validAfter) ← checkOperatorSig site p op
  let allowed ← validateCallData site p op.callData.bytes
  require (allowed = true) (.reason "paymaster: operation not allowed")
  let scaled ← umul maxCost (10 ^ 6)
  let raised ← uadd scaled p.weiPerUsdc
  let usdcFee ← udiv (raised - 1) p.weiPerUsdc
  require (site.usdcBalanceOf op.sender ≥ usdcFee) (.reason "paymaster: USDC balance")
  let approves ← isPaymasterApprove site p op.callData.bytes usdcFee
  require (approves = true ∨ site.usdcAllowance (op.sender, site.self) ≥ usdcFee)
    (.reason "paymaster: USDC allowance")
  let p ← p.chargeCap timestamp op.sender usdcFee
  require (site.deposit ≥ maxCost) (.reason "paymaster: insufficient deposit")
  return (p, (op.sender, usdcFee), validUntil * 2 ^ 160 + validAfter * 2 ^ 208)

end Paymaster

namespace SimpleAccount

/-- A call an account makes. -/
structure RawCall where
  target : Address
  amount : Nat
  data : List Byte
deriving DecidableEq

/-- `execute` as the entry point runs it on the calldata of an operation; no call where the
calldata does not decode. -/
def execute (callData : List Byte) : Option RawCall :=
  match decodeCall Paymaster.selectorExecute [.address, .uint256, .bytes 8192] callData with
  | some [.address target, .uint256 amount, .bytes data] => some ⟨target, amount, data⟩
  | _ => none

end SimpleAccount

end OverUnder.Contracts
