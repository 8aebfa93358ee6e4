/-
Module: OverUnder.Backend.NonceManager
Purpose: The nonce allocation of `backend/app/relayer/nonce.py` and the kinds of
  answers to a broadcast of `backend/app/relayer/chain.py`, shared by every sender
  that signs with the relayer key.
Trusted boundary: human-reviewed spec
Main exports: NonceManager, RpcErrorKind, Answer, Tx
-/
import OverUnder.Library.NonceChain

namespace OverUnder.Backend

/-- `NonceManager`, whose `_next` is `None` until the node was asked. -/
structure NonceManager where
  next : Option Nat

namespace NonceManager

/-- `__init__`, and `invalidate`. -/
def fresh : NonceManager := ⟨none⟩

/-- `reserve`. `pending` is the node's answer to the pending count, `none` when the
read fails, and matters only when there is no cached value. -/
def reserve (nm : NonceManager) (pending floor : Option Nat) : Option (Nat × NonceManager) :=
  match nm.next.or pending with
  | none => none
  | some cached =>
      let n := match floor with
        | some f => if f > cached then f else cached
        | none => cached
      some (n, ⟨some (n + 1)⟩)

/-- `resync`. -/
def resync (pending : Option Nat) : Option NonceManager :=
  pending.map fun n => ⟨some n⟩

/-- `release`. -/
def release (nm : NonceManager) (n : Nat) : NonceManager :=
  match nm.next with
  | some next => if next = n + 1 then ⟨some n⟩ else nm
  | none => nm

end NonceManager

/-- `classify_rpc_error`. -/
inductive RpcErrorKind where
  | nonceLow
  | known
  | underpriced
  | insufficientFunds
  | revert
  | transient
deriving DecidableEq, Repr

/-- The answer to `send_raw`, `none` when it returned. -/
abbrev Answer := Option RpcErrorKind

/-- What a node that gave this answer did with the transaction, `none` when that is
open. A returned call and `known` mean it holds it; a rejection over funds or fees that it
does not; the others say nothing, for a retry below the call may have landed it. -/
def Answer.accepts : Answer → Option Bool
  | none | some .known => some true
  | some .underpriced | some .insufficientFunds => some false
  | some .nonceLow | some .revert | some .transient => none

/-- A signed transaction: its nonce and the rest of its fields. Signing is
deterministic, so the fields stand for the bytes and the hash. -/
structure Tx where
  nonce : Nat
  terms : Nat
deriving DecidableEq, Repr

end OverUnder.Backend
