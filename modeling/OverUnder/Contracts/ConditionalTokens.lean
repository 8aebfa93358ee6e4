/-
Module: OverUnder.Contracts.ConditionalTokens
Purpose: The binary outcome-token contract of
  `contracts/src/ConditionalTokens.vy` over its collateral token. Events are
  left out. The two hashes the contract computes are parameters; position ids
  do not collide.
Trusted boundary: human-reviewed spec
Main exports: Hashes, CtfSite, ConditionalTokens, Tokens, splitPosition,
  mergePositions, redeemPositions, reportPayouts, safeTransferFrom, Tokens.Tx,
  Tokens.exec, Tokens.Step
-/
import Mathlib
import OverUnder.Contracts.MockUSDC

namespace OverUnder.Contracts

open OverUnder.Vyper

/-- The hashes of the contract. Ids are natural numbers so that a collision-free
`positionId` exists at all. -/
structure Hashes where
  /-- `keccak256(abi_encode(oracle, questionId))`. -/
  conditionId : Address → Bytes32 → Bytes32
  /-- `convert(keccak256(abi_encode(conditionId, outcome)), uint256)`. -/
  positionId : Bytes32 → Nat → Nat
  positionId_injective : ∀ {c c' : Bytes32} {o o' : Nat},
    positionId c o = positionId c' o' → c = c' ∧ o = o'

/-- Ids by pairing, with the question as its own condition id. -/
def Hashes.paired : Hashes where
  conditionId _ questionId := questionId
  positionId c outcome := Nat.pair c.toNat outcome
  positionId_injective same := by
    obtain ⟨sameCondition, sameOutcome⟩ := Nat.pair_eq_pair.mp same
    exact ⟨BitVec.eq_of_toNat_eq sameCondition, sameOutcome⟩

/-- Storage of ConditionalTokens.vy. `balanceOf` is keyed by owner and id,
`isApprovedForAll` by owner and operator. -/
structure ConditionalTokens where
  balanceOf : Address × Nat → Nat
  isApprovedForAll : Address × Address → Bool
  oracles : Bytes32 → Address
  outcomeSlots : Bytes32 → Nat
  payoutNumerators : Bytes32 → Nat × Nat
  payoutDenominator : Bytes32 → Nat

/-- The contract right after deployment. -/
def ConditionalTokens.deployed : ConditionalTokens where
  balanceOf := fun _ => 0
  isApprovedForAll := fun _ => false
  oracles := fun _ => zeroAddress
  outcomeSlots := fun _ => 0
  payoutNumerators := fun _ => (0, 0)
  payoutDenominator := fun _ => 0

/-- `payouts[outcome]` of a `uint256[2]`. -/
def slot (payouts : Nat × Nat) (outcome : Nat) : Nat :=
  if outcome = 0 then payouts.1 else payouts.2

/-- The outcome tokens and the collateral they are backed by. -/
structure Tokens where
  usdc : MockUSDC
  ctf : ConditionalTokens

/-- Where the outcome-token contract lives and how it hashes. -/
structure CtfSite where
  self : Address
  hashes : Hashes

namespace ConditionalTokens

variable (site : CtfSite)

/-- `_pid`. -/
def pid (conditionId : Bytes32) (outcome : Nat) : Nat :=
  site.hashes.positionId conditionId outcome

def isResolved (ctf : ConditionalTokens) (conditionId : Bytes32) : Bool :=
  decide (ctf.payoutDenominator conditionId > 0)

def prepareCondition (w : Tokens) (oracle : Address) (questionId : Bytes32) :
    Call (Bytes32 × Tokens) := do
  require (oracle ≠ zeroAddress)
  let cid := site.hashes.conditionId oracle questionId
  require (w.ctf.outcomeSlots cid = 0) (.reason "already prepared")
  let ctf := { w.ctf with
    outcomeSlots := Function.update w.ctf.outcomeSlots cid 2
    oracles := Function.update w.ctf.oracles cid oracle }
  return (cid, { w with ctf })

def splitPosition (w : Tokens) (sender : Address) (conditionId : Bytes32)
    (amount : Nat) : Call Tokens := do
  require (w.ctf.outcomeSlots conditionId = 2) (.reason "unknown condition")
  require (w.ctf.payoutDenominator conditionId = 0) (.reason "resolved")
  let usdc ← w.usdc.transferFrom site.self sender site.self amount
  let balanceOf ← credit w.ctf.balanceOf (sender, pid site conditionId 0) amount
  let balanceOf ← credit balanceOf (sender, pid site conditionId 1) amount
  return { usdc, ctf := { w.ctf with balanceOf } }

def mergePositions (w : Tokens) (sender : Address) (conditionId : Bytes32)
    (amount : Nat) : Call Tokens := do
  require (w.ctf.payoutDenominator conditionId = 0) (.reason "resolved")
  let balanceOf ← debit w.ctf.balanceOf (sender, pid site conditionId 0) amount
  let balanceOf ← debit balanceOf (sender, pid site conditionId 1) amount
  let usdc ← w.usdc.transfer site.self sender amount
  return { usdc, ctf := { w.ctf with balanceOf } }

/-- `assert extcall IERC20(self.collateral).transfer(...)` when `payout > 0`. -/
def payOut (usdc : MockUSDC) (recipient : Address) (payout : Nat) : Call MockUSDC :=
  if payout > 0 then usdc.transfer site.self recipient payout else return usdc

def redeemPositions (w : Tokens) (sender : Address) (conditionId : Bytes32)
    (outcome amount : Nat) : Call Tokens := do
  let denom := w.ctf.payoutDenominator conditionId
  require (denom > 0) (.reason "not resolved")
  require (outcome < 2)
  let balanceOf ← debit w.ctf.balanceOf (sender, pid site conditionId outcome) amount
  let weighted ← umul amount (slot (w.ctf.payoutNumerators conditionId) outcome)
  let payout ← udiv weighted denom
  let usdc ← payOut site w.usdc sender payout
  return { usdc, ctf := { w.ctf with balanceOf } }

def reportPayouts (ctf : ConditionalTokens) (sender : Address) (conditionId : Bytes32)
    (payouts : Nat × Nat) : Call ConditionalTokens := do
  require (sender = ctf.oracles conditionId) (.reason "not oracle")
  require (ctf.payoutDenominator conditionId = 0) (.reason "already resolved")
  let denom ← uadd payouts.1 payouts.2
  require (denom > 0) (.reason "zero payouts")
  return { ctf with
    payoutNumerators := Function.update ctf.payoutNumerators conditionId payouts
    payoutDenominator := Function.update ctf.payoutDenominator conditionId denom }

def setApprovalForAll (ctf : ConditionalTokens) (sender operator : Address)
    (approved : Bool) : ConditionalTokens :=
  { ctf with
    isApprovedForAll := Function.update ctf.isApprovedForAll (sender, operator) approved }

def safeTransferFrom (ctf : ConditionalTokens) (caller sender receiver : Address)
    (id amount : Nat) : Call ConditionalTokens := do
  require (receiver ≠ zeroAddress)
  require (caller = sender ∨ ctf.isApprovedForAll (sender, caller) = true)
    (.reason "not approved")
  let balanceOf ← debit ctf.balanceOf (sender, id) amount
  let balanceOf ← credit balanceOf (receiver, id) amount
  return { ctf with balanceOf }

/-- The state-changing entry points of the contract. -/
inductive Tx where
  | prepareCondition (oracle : Address) (questionId : Bytes32)
  | splitPosition (conditionId : Bytes32) (amount : Nat)
  | mergePositions (conditionId : Bytes32) (amount : Nat)
  | redeemPositions (conditionId : Bytes32) (outcome amount : Nat)
  | reportPayouts (conditionId : Bytes32) (payouts : Nat × Nat)
  | setApprovalForAll (operator : Address) (approved : Bool)
  | safeTransferFrom (sender receiver : Address) (id amount : Nat)

/-- Run one entry point as `sender`. -/
def exec (w : Tokens) (sender : Address) : Tx → Call Tokens
  | .prepareCondition oracle questionId => do
      let (_, w) ← prepareCondition site w oracle questionId
      return w
  | .splitPosition conditionId amount => splitPosition site w sender conditionId amount
  | .mergePositions conditionId amount => mergePositions site w sender conditionId amount
  | .redeemPositions conditionId outcome amount =>
      redeemPositions site w sender conditionId outcome amount
  | .reportPayouts conditionId payouts => do
      let ctf ← reportPayouts w.ctf sender conditionId payouts
      return { w with ctf }
  | .setApprovalForAll operator approved =>
      return { w with ctf := setApprovalForAll w.ctf sender operator approved }
  | .safeTransferFrom owner receiver id amount => do
      let ctf ← safeTransferFrom w.ctf sender owner receiver id amount
      return { w with ctf }

end ConditionalTokens

/-! ### Runs of the two token contracts -/

/-- A call to either token contract. -/
inductive Tokens.Tx where
  | ctf (tx : ConditionalTokens.Tx)
  | usdc (tx : MockUSDC.Tx)

/-- Run one call as `sender`. -/
def Tokens.exec (site : CtfSite) (w : Tokens) (sender : Address) : Tokens.Tx → Call Tokens
  | .ctf tx => ConditionalTokens.exec site w sender tx
  | .usdc tx => do
      let usdc ← w.usdc.exec sender tx
      return { w with usdc }

/-- One call that did not revert. The contracts themselves originate no call, so
the caller is somebody else than the outcome-token contract. -/
inductive Tokens.Step (site : CtfSite) : Tokens → Tokens → Prop where
  | call {w after : Tokens} (sender : Address) (tx : Tokens.Tx)
      (outsider : sender ≠ site.self)
      (done : Tokens.exec site w sender tx = .ok after) : Step site w after

end OverUnder.Contracts
