/-
Module: OverUnder.Contracts.FeeVault
Purpose: The redemption vault of `contracts/src/FeeVault.vy` with the OU token it
  burns, the collateral it pays in and the distributor beside it.
Trusted boundary: human-reviewed spec
Main exports: FeeVault, Revenue, requestRedeem, claim, Revenue.Action,
  Revenue.perform, Revenue.Step
-/
import OverUnder.Contracts.RevenueToken

namespace OverUnder.Contracts

open OverUnder.Vyper

/-- A redemption that waits for its cooldown. -/
structure Request where
  amount : Nat
  availableAt : Nat
deriving DecidableEq

/-- `empty(Request)`. -/
def Request.empty : Request := ⟨0, 0⟩

/-- Storage of FeeVault.vy. -/
structure FeeVault where
  cooldown : Nat
  requests : Address → Request

/-- The contract right after deployment. -/
def FeeVault.deployed (cooldown : Nat) : FeeVault := ⟨cooldown, fun _ => .empty⟩

/-- The vault, the tokens and the distributor. -/
structure Revenue where
  usdc : MockUSDC
  ou : RevenueToken
  vault : FeeVault
  distributor : EmissionsDistributor

namespace FeeVault

variable (self : Address)

def requestRedeem (w : Revenue) (sender : Address) (timestamp ouAmount : Nat) :
    Call Revenue := do
  require (ouAmount > 0)
  require ((w.vault.requests sender).amount = 0) (.reason "pending redeem")
  let ou ← w.ou.transferFrom self sender self ouAmount
  let availableAt ← uadd timestamp w.vault.cooldown
  let requests := Function.update w.vault.requests sender ⟨ouAmount, availableAt⟩
  return { w with ou, vault := { w.vault with requests } }

/-- `claim`, with the collateral it pays. -/
def claim (w : Revenue) (sender : Address) (timestamp : Nat) : Call (Nat × Revenue) := do
  let req := w.vault.requests sender
  require (req.amount > 0) (.reason "no request")
  require (timestamp ≥ req.availableAt) (.reason "cooldown")
  let requests := Function.update w.vault.requests sender .empty
  let scaled ← umul req.amount (w.usdc.balanceOf self)
  let usdcOut ← udiv scaled w.ou.totalSupply
  let ou ← w.ou.burn self req.amount
  if usdcOut > 0 then do
    let usdc ← w.usdc.transfer self sender usdcOut
    return (usdcOut, { w with ou, usdc, vault := { w.vault with requests } })
  else return (usdcOut, { w with ou, vault := { w.vault with requests } })

end FeeVault

/-! ### Runs -/

/-- A call to one of the contracts. -/
inductive Revenue.Action where
  | usdc (sender : Address) (tx : MockUSDC.Tx)
  | ou (sender : Address) (tx : RevenueToken.Tx)
  | distribute (sender : Address) (recipients : List Address) (amounts : List Nat)
  | requestRedeem (sender : Address) (timestamp ouAmount : Nat)
  | claim (sender : Address) (timestamp : Nat)

def Revenue.Action.sender : Revenue.Action → Address
  | .usdc sender _ | .ou sender _ | .distribute sender .. | .requestRedeem sender ..
  | .claim sender _ => sender

/-- Run one call. -/
def Revenue.perform (self : Address) (w : Revenue) : Revenue.Action → Call Revenue
  | .usdc sender tx => do
      let usdc ← w.usdc.exec sender tx
      return { w with usdc }
  | .ou sender tx => do
      let ou ← w.ou.exec sender tx
      return { w with ou }
  | .distribute sender recipients amounts => do
      let ou ← w.distributor.distribute w.ou sender recipients amounts
      return { w with ou }
  | .requestRedeem sender timestamp ouAmount =>
      FeeVault.requestRedeem self w sender timestamp ouAmount
  | .claim sender timestamp => do
      let (_, w) ← FeeVault.claim self w sender timestamp
      return w

/-- One call that did not revert. The vault and the distributor originate none. -/
inductive Revenue.Step (self : Address) : Revenue → Revenue → Prop where
  | call {w after : Revenue} (action : Revenue.Action) (outsider : action.sender ≠ self)
      (done : Revenue.perform self w action = .ok after) : Step self w after

end OverUnder.Contracts
