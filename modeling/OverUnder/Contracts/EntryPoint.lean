/-
Module: OverUnder.Contracts.EntryPoint
Purpose: How `handleOps` of `contracts/src/MockEntryPoint.vy` drives
  `contracts/src/OverUnderPaymaster.vy`: the settings of the paymaster, `postOp`, the deposits
  and nonces of the entry point, and the loop body of `handleOps` cut at the calls it makes to
  accounts and factories, where other contracts may run anything. A factory call to the paymaster
  itself is made as the entry point. Hashes and the answers of accounts, of USDC and of other
  paymasters are inputs. Events are left out.
Trusted boundary: human-reviewed spec
Main exports: PaymasterStore, Setting, PaymasterStore.deploy, PaymasterStore.configure, postOp,
  maxCost, factoryOf, Frame, EntryPointCall, Sponsorship, Sponsorship.Action, Sponsorship.perform
-/
import OverUnder.Contracts.Paymaster

namespace OverUnder.Contracts

open OverUnder.Vyper

/-- Storage of OverUnderPaymaster.vy with the recipient of its fees. -/
structure PaymasterStore where
  paymaster : Paymaster
  feeRecipient : Address

/-- A function of the paymaster that only its operator may call. -/
inductive Setting where
  | addFactory (factory : Address)
  | removeFactory (factory : Address)
  | addSender (sender : Address)
  | removeSender (sender : Address)
  | setWeiPerUsdc (weiPerUsdc : Nat)
  | setFeeRecipient (recipient : Address)
  | setDailyCapUsdc (cap : Nat)

/-- The USDC that `postOp` takes. -/
structure FeeTransfer where
  owner : Address
  recipient : Address
  amount : Nat
deriving DecidableEq

namespace PaymasterStore

def defaultWeiPerUsdc : Nat := 10 ^ 15

def defaultDailyCap : Nat := 50 * 10 ^ 6

/-- `__init__`. -/
def deploy (entryPoint operator usdc ctf amm exchange oracle feeVault : Address) :
    Call PaymasterStore := do
  require (entryPoint ≠ zeroAddress) (.reason "entrypoint required")
  require (operator ≠ zeroAddress) (.reason "operator required")
  return {
    paymaster := {
      entryPoint, operator, usdc, ctf, amm, exchange, oracle, feeVault
      allowedFactories := fun _ => false
      allowedSenders := fun _ => false
      weiPerUsdc := defaultWeiPerUsdc
      dailyCapUsdc := defaultDailyCap
      dailySpend := fun _ => ⟨0, 0⟩ }
    feeRecipient := operator }

/-- `addFactory`, `removeFactory`, `addSender`, `removeSender`, `setWeiPerUsdc`,
`setFeeRecipient` and `setDailyCapUsdc`. -/
def configure (store : PaymasterStore) (sender : Address) (setting : Setting) :
    Call PaymasterStore := do
  let p := store.paymaster
  require (sender = p.operator) (.reason "operator only")
  match setting with
  | .addFactory factory =>
      let allowedFactories := Function.update p.allowedFactories factory true
      return { store with paymaster := { p with allowedFactories } }
  | .removeFactory factory =>
      let allowedFactories := Function.update p.allowedFactories factory false
      return { store with paymaster := { p with allowedFactories } }
  | .addSender account =>
      let allowedSenders := Function.update p.allowedSenders account true
      return { store with paymaster := { p with allowedSenders } }
  | .removeSender account =>
      let allowedSenders := Function.update p.allowedSenders account false
      return { store with paymaster := { p with allowedSenders } }
  | .setWeiPerUsdc weiPerUsdc => do
      require (weiPerUsdc ≠ 0) (.reason "weiPerUsdc")
      return { store with paymaster := { p with weiPerUsdc } }
  | .setFeeRecipient recipient => do
      require (recipient ≠ zeroAddress) (.reason "recipient required")
      return { store with feeRecipient := recipient }
  | .setDailyCapUsdc cap =>
      return { store with paymaster := { p with dailyCapUsdc := cap } }

/-- The context that `validatePaymasterUserOp` hands over to `postOp`:
`concat(convert(userOp.sender, bytes20), convert(usdcFee, bytes32))`. -/
def encodeContext (sender : Address) (usdcFee : Nat) : List Byte :=
  natToBytes 20 sender.toNat ++ natToBytes 32 usdcFee

/-- `postOp`, with the transfer it makes. -/
def postOp (store : PaymasterStore) (sender : Address) (context : List Byte)
    (actualGasCost : Nat) : Call (Option FeeTransfer) := do
  require (sender = store.paymaster.entryPoint) (.reason "entrypoint only")
  require (store.paymaster.weiPerUsdc ≠ 0) (.reason "paymaster: weiPerUsdc")
  require (context.length ≥ 52) (.reason "paymaster: context")
  let owner ← Paymaster.sliceValue context 0 20
  let capped ← Paymaster.sliceValue context 20 32
  let scaled ← umul actualGasCost (10 ^ 6)
  let raised ← uadd scaled store.paymaster.weiPerUsdc
  let lowered ← usub raised 1
  let uncapped ← udiv lowered store.paymaster.weiPerUsdc
  let fee := if uncapped > capped then capped else uncapped
  if fee > 0 then return some ⟨BitVec.ofNat 160 owner, store.feeRecipient, fee⟩
  else return none

end PaymasterStore

/-! ### The entry point -/

namespace EntryPoint

/-- `_maxCost`. -/
def maxCost (op : UserOp) : Call Nat := do
  let limits := op.accountGasLimits.toNat
  let fees := op.gasFees.toNat
  let callGas := limits % 2 ^ 128
  let verifGas := limits / 2 ^ 128
  let maxFee := fees % 2 ^ 128
  let data := op.paymasterAndData.bytes
  let pmVerif ← if data.length ≥ 52 then Paymaster.sliceValue data 20 16 else pure 0
  let pmPost ← if data.length ≥ 52 then Paymaster.sliceValue data 36 16 else pure 0
  let gas ← uadd verifGas callGas
  let gas ← uadd gas op.preVerificationGas
  let gas ← uadd gas pmVerif
  let gas ← uadd gas pmPost
  let cost ← umul gas maxFee
  if cost = 0 then return 1 else return cost

/-- The paymaster an operation names. -/
def paymasterOf (op : UserOp) : Call Address := do
  require (op.paymasterAndData.bytes.length ≥ 20) (.reason "paymaster required")
  let pm ← Paymaster.sliceValue op.paymasterAndData.bytes 0 20
  return BitVec.ofNat 160 pm

/-- `self._addr20(op.initCode, 0)`. -/
def factoryOf (op : UserOp) : Call Address := do
  require (op.initCode.bytes.length ≥ 20) (.reason "bad initCode")
  let factory ← Paymaster.sliceValue op.initCode.bytes 0 20
  return BitVec.ofNat 160 factory

end EntryPoint

/-- A function of the paymaster that only the entry point may call, with the answers of USDC. -/
inductive EntryPointCall where
  | validatePaymasterUserOp (op : UserOp) (maxCost : Nat) (usdcBalanceOf : Address → Nat)
      (usdcAllowance : Address × Address → Nat)
  | postOp (context : List Byte) (actualGasCost : Nat) (accepted : Bool)

/-- An operation that `handleOps` is in the middle of: with its nonce checked, while its account
validates it, or validated by a paymaster, while it runs. -/
inductive Frame where
  | checked (op : UserOp)
  | sponsored (op : UserOp) (pm : Address) (maxCost : Nat) (context : List Byte)

/-- What a paymaster took of an account, and when. -/
structure Fee where
  sender : Address
  timestamp : Nat
  amount : Nat
deriving DecidableEq

/-- The paymaster and the entry point, the operations under way with the innermost call first,
the time, and, latest first, what `_chargeCap` counted and what `postOp` took. -/
structure Sponsorship where
  store : PaymasterStore
  deposits : Address → Nat
  nonces : Address → Nat
  frames : List Frame
  timestamp : Nat
  charges : List Fee
  transfers : List Fee

namespace Sponsorship

inductive Action where
  /-- A setting of the paymaster. -/
  | configure (sender : Address) (setting : Setting)
  /-- `depositTo` of the entry point. -/
  | depositTo (account : Address) (amount : Nat)
  /-- `deposit` of the paymaster. -/
  | deposit (sender : Address) (amount : Nat)
  /-- The `raw_call` of an operation that names the paymaster as its factory. -/
  | factoryCall (op : UserOp) (call : EntryPointCall)
  /-- An operation of `handleOps` up to the call of its account. -/
  | check (op : UserOp)
  /-- From the answer of the account to the validation by the paymaster. Where that is another
  one, the action carries its answer. -/
  | sponsor (vd : Nat) (usdcBalanceOf : Address → Nat) (usdcAllowance : Address × Address → Nat)
      (elsewhere : List Byte × Nat)
  /-- From the end of the operation to the end of the loop body, with the answer of USDC. -/
  | settle (accepted : Bool)
  /-- A later block. -/
  | wait (seconds : Nat)

variable (site : PaymasterSite) (entryPoint : Address)

/-- The assertions on an operation before its account is called. -/
def check (s : Sponsorship) (op : UserOp) : Call Sponsorship := do
  require (op.initCode.bytes.length = 0 ∨ op.initCode.bytes.length ≥ 20) (.reason "bad initCode")
  require (op.nonce = s.nonces op.sender) (.reason "bad nonce")
  return { s with frames := .checked op :: s.frames }

/-- `validatePaymasterUserOp` as the entry point calls it, with the context it returns. -/
def validate (s : Sponsorship) (op : UserOp) (cost : Nat) (usdcBalanceOf : Address → Nat)
    (usdcAllowance : Address × Address → Nat) : Call (Sponsorship × List Byte × Nat) := do
  let site := { site with usdcBalanceOf, usdcAllowance, deposit := s.deposits site.self }
  let (paymaster, (sender, usdcFee), pvd) ←
    Paymaster.validatePaymasterUserOp site s.store.paymaster entryPoint s.timestamp op cost
  let s := { s with
    store := { s.store with paymaster }
    charges := ⟨sender, s.timestamp, usdcFee⟩ :: s.charges }
  return (s, PaymasterStore.encodeContext sender usdcFee, pvd)

/-- `postOp` as the entry point calls it, with the answer of USDC. -/
def collect (s : Sponsorship) (context : List Byte) (actual : Nat) (accepted : Bool) :
    Call Sponsorship := do
  let transfer ← s.store.postOp entryPoint context actual
  require (transfer = none ∨ accepted = true) (.reason "paymaster: fee")
  match transfer with
  | none => return s
  | some t => return { s with transfers := ⟨t.owner, s.timestamp, t.amount⟩ :: s.transfers }

/-- The factory call of an operation whose factory is the paymaster. -/
def factoryCall (s : Sponsorship) (op : UserOp) (call : EntryPointCall) : Call Sponsorship := do
  let factory ← EntryPoint.factoryOf op
  require (factory = site.self)
  match call with
  | .validatePaymasterUserOp userOp maxCost usdcBalanceOf usdcAllowance => do
      let (s, _) ← s.validate site entryPoint userOp maxCost usdcBalanceOf usdcAllowance
      return s
  | .postOp context actualGasCost accepted => s.collect entryPoint context actualGasCost accepted

/-- From the answer of the account to the call of the account's operation. -/
def sponsor (s : Sponsorship) (vd : Nat) (usdcBalanceOf : Address → Nat)
    (usdcAllowance : Address × Address → Nat) (elsewhere : List Byte × Nat) :
    Call Sponsorship :=
  match s.frames with
  | .checked op :: frames => do
      require (vd = 0) (.reason "account validation")
      let pm ← EntryPoint.paymasterOf op
      let cost ← EntryPoint.maxCost op
      if pm = site.self then do
        let (s, context, pvd) ← s.validate site entryPoint op cost usdcBalanceOf usdcAllowance
        require (pvd % 2 = 0) (.reason "paymaster validation")
        return { s with frames := .sponsored op pm cost context :: frames }
      else do
        require (elsewhere.2 % 2 = 0) (.reason "paymaster validation")
        return { s with frames := .sponsored op pm cost elsewhere.1 :: frames }
  | _ => .error .assertion

/-- The end of the loop body, from `postOp` on. -/
def settle (s : Sponsorship) (accepted : Bool) : Call Sponsorship :=
  match s.frames with
  | .sponsored op pm cost context :: frames => do
      let s ← if pm = site.self then s.collect entryPoint context cost accepted else pure s
      let deposits ← debit s.deposits pm cost
      let nonces ← credit s.nonces op.sender 1
      return { s with deposits, nonces, frames }
  | _ => .error .assertion

def perform (s : Sponsorship) : Action → Call Sponsorship
  | .configure sender setting => do
      let store ← s.store.configure sender setting
      return { s with store }
  | .depositTo account amount => do
      let deposits ← credit s.deposits account amount
      return { s with deposits }
  | .deposit sender amount => do
      require (sender = s.store.paymaster.operator) (.reason "operator only")
      let deposits ← credit s.deposits site.self amount
      return { s with deposits }
  | .factoryCall op call => s.factoryCall site entryPoint op call
  | .check op => s.check op
  | .sponsor vd usdcBalanceOf usdcAllowance elsewhere =>
      s.sponsor site entryPoint vd usdcBalanceOf usdcAllowance elsewhere
  | .settle accepted => s.settle site entryPoint accepted
  | .wait seconds => do
      require (s.frames.isEmpty = true)
      return { s with timestamp := s.timestamp + seconds }

/-- Right after the deployment of the paymaster, at some time. -/
def deployed (store : PaymasterStore) (deposits nonces : Address → Nat) (timestamp : Nat) :
    Sponsorship :=
  ⟨store, deposits, nonces, [], timestamp, [], []⟩

end Sponsorship

end OverUnder.Contracts
