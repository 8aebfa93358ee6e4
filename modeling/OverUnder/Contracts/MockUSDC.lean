/-
Module: OverUnder.Contracts.MockUSDC
Purpose: The collateral token of `contracts/src/MockUSDC.vy`. Every external
  function that returns a `bool` returns `True` on each path that does not
  revert, so a caller's assert on the result never fails and is left out.
Trusted boundary: human-reviewed spec
Main exports: MockUSDC, MockUSDC.transfer, MockUSDC.transferFrom, MockUSDC.Tx,
  MockUSDC.exec
-/
import OverUnder.Vyper.Checked
import OverUnder.Library.Ledger

namespace OverUnder.Contracts

open OverUnder.Vyper
open OverUnder.Library

/-- Storage of MockUSDC.vy. `allowance` is keyed by owner and spender. -/
structure MockUSDC where
  totalSupply : Nat
  balanceOf : Address → Nat
  allowance : Address × Address → Nat

/-- The token right after deployment. -/
def MockUSDC.deployed : MockUSDC where
  totalSupply := 0
  balanceOf := fun _ => 0
  allowance := fun _ => 0

namespace MockUSDC

/-- `max_value(uint256)`, the allowance that is never lowered. -/
def maxAllowance : Nat := wordSize - 1

def mint (self : MockUSDC) (recipient : Address) (amount : Nat) : Call MockUSDC := do
  let totalSupply ← uadd self.totalSupply amount
  let balanceOf ← credit self.balanceOf recipient amount
  return { self with totalSupply, balanceOf }

def faucet (self : MockUSDC) (sender : Address) (amount : Nat) : Call MockUSDC :=
  self.mint sender amount

def transfer (self : MockUSDC) (sender recipient : Address) (amount : Nat) :
    Call MockUSDC := do
  let balanceOf ← debit self.balanceOf sender amount
  let balanceOf ← credit balanceOf recipient amount
  return { self with balanceOf }

def approve (self : MockUSDC) (sender spender : Address) (amount : Nat) : MockUSDC :=
  { self with allowance := Function.update self.allowance (sender, spender) amount }

/-- The allowance map after `spender` draws `amount` from `owner`. -/
def spend (self : MockUSDC) (owner spender : Address) (amount : Nat) :
    Call (Address × Address → Nat) :=
  if self.allowance (owner, spender) ≠ maxAllowance then
    debit self.allowance (owner, spender) amount
  else
    return self.allowance

def transferFrom (self : MockUSDC) (sender owner recipient : Address) (amount : Nat) :
    Call MockUSDC := do
  let allowance ← self.spend owner sender amount
  let balanceOf ← debit self.balanceOf owner amount
  let balanceOf ← credit balanceOf recipient amount
  return { self with allowance, balanceOf }

/-- The state-changing entry points of the token. -/
inductive Tx where
  | faucet (amount : Nat)
  | mint (recipient : Address) (amount : Nat)
  | transfer (recipient : Address) (amount : Nat)
  | approve (spender : Address) (amount : Nat)
  | transferFrom (owner recipient : Address) (amount : Nat)

/-- Run one entry point as `sender`. -/
def exec (self : MockUSDC) (sender : Address) : Tx → Call MockUSDC
  | .faucet amount => self.faucet sender amount
  | .mint recipient amount => self.mint recipient amount
  | .transfer recipient amount => self.transfer sender recipient amount
  | .approve spender amount => .ok (self.approve sender spender amount)
  | .transferFrom owner recipient amount => self.transferFrom sender owner recipient amount

end MockUSDC

end OverUnder.Contracts
