/-
Module: OverUnder.Contracts.RevenueToken
Purpose: The OU token of `contracts/src/RevenueToken.vy` and the distributor of
  `contracts/src/EmissionsDistributor.vy` that pays out of its treasury. Events and
  the names of the token are left out.
Trusted boundary: human-reviewed spec
Main exports: RevenueToken, RevenueToken.exec, EmissionsDistributor.distribute
-/
import OverUnder.Contracts.MockUSDC

namespace OverUnder.Contracts

open OverUnder.Vyper

/-- Storage of RevenueToken.vy. `transfer`, `approve` and `transferFrom` are the same code
as in MockUSDC.vy. -/
structure RevenueToken extends MockUSDC where
  treasury : Address

namespace RevenueToken

/-- `INITIAL_SUPPLY`. -/
def initialSupply : Nat := 100000000 * 10 ^ 18

/-- The token right after deployment. -/
def deployed (treasury : Address) : RevenueToken where
  treasury
  totalSupply := initialSupply
  balanceOf := Function.update (fun _ => 0) treasury initialSupply
  allowance := fun _ => 0

def transfer (self : RevenueToken) (sender recipient : Address) (amount : Nat) :
    Call RevenueToken := do
  let token ← self.toMockUSDC.transfer sender recipient amount
  return { self with toMockUSDC := token }

def approve (self : RevenueToken) (sender spender : Address) (amount : Nat) : RevenueToken :=
  { self with toMockUSDC := self.toMockUSDC.approve sender spender amount }

def transferFrom (self : RevenueToken) (sender owner recipient : Address) (amount : Nat) :
    Call RevenueToken := do
  let token ← self.toMockUSDC.transferFrom sender owner recipient amount
  return { self with toMockUSDC := token }

def burn (self : RevenueToken) (sender : Address) (amount : Nat) : Call RevenueToken := do
  let balanceOf ← debit self.balanceOf sender amount
  let totalSupply ← usub self.totalSupply amount
  return { self with balanceOf, totalSupply }

/-- The state-changing entry points of the token. -/
inductive Tx where
  | transfer (recipient : Address) (amount : Nat)
  | approve (spender : Address) (amount : Nat)
  | transferFrom (owner recipient : Address) (amount : Nat)
  | burn (amount : Nat)

/-- Run one entry point as `sender`. -/
def exec (self : RevenueToken) (sender : Address) : Tx → Call RevenueToken
  | .transfer recipient amount => self.transfer sender recipient amount
  | .approve spender amount => .ok (self.approve sender spender amount)
  | .transferFrom owner recipient amount => self.transferFrom sender owner recipient amount
  | .burn amount => self.burn sender amount

end RevenueToken

/-- Storage of EmissionsDistributor.vy and its address. -/
structure EmissionsDistributor where
  self : Address
  operator : Address
  treasury : Address

namespace EmissionsDistributor

/-- One turn of the loop of `distribute`. -/
def pay (d : EmissionsDistributor) (ou : RevenueToken) (recipient : Address) (amount : Nat) :
    Call RevenueToken := do
  require (recipient ≠ zeroAddress) (.reason "zero recipient")
  require (amount > 0) (.reason "zero amount")
  ou.transferFrom d.self d.treasury recipient amount

def distribute (d : EmissionsDistributor) (ou : RevenueToken) (sender : Address)
    (recipients : List Address) (amounts : List Nat) : Call RevenueToken := do
  require (sender = d.operator) (.reason "operator only")
  require (recipients.length = amounts.length) (.reason "length mismatch")
  require (recipients.length > 0) (.reason "empty")
  let after ← (recipients.zip amounts).foldlM
    (fun ou (recipient, amount) => pay d ou recipient amount) ou
  require (ou.totalSupply = after.totalSupply) (.reason "supply changed")
  return after

end EmissionsDistributor

end OverUnder.Contracts
