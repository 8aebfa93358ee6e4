/-
Module: OverUnder.Vyper.Signatures
Purpose: 65-byte signatures and the recovery of their signer, the same lines in
  every contract that checks one. `ecrecover` is a parameter.
Trusted boundary: human-reviewed spec
Main exports: Signature, Ecrecover, recoverSigner
-/
import OverUnder.Vyper.Checked

namespace OverUnder.Vyper

/-- A `Bytes[65]` argument. -/
structure Signature where
  bytes : List (BitVec 8)
  bounded : bytes.length ≤ 65

/-- `ecrecover(digest, v, r, s)`. Digests are natural numbers. -/
abbrev Ecrecover := Nat → Nat → Bytes32 → Bytes32 → Address

/-- Big-endian value of a byte string. -/
def bytesToNat (bytes : List (BitVec 8)) : Nat :=
  bytes.foldl (fun value byte => value * 256 + byte.toNat) 0

/-- `slice(sig, start, length)`, reverting past the end. -/
def slice (sig : Signature) (start length : Nat) : Call (List (BitVec 8)) := do
  require (start + length ≤ sig.bytes.length)
  return (sig.bytes.drop start).take length

/-- `_recover`. -/
def recoverSigner (ecrecover : Ecrecover) (digest : Nat) (sig : Signature) : Call Address := do
  let r ← slice sig 0 32
  let s ← slice sig 32 32
  let v ← slice sig 64 1
  let v := bytesToNat v
  let v := if v < 27 then v + 27 else v
  return ecrecover digest v (BitVec.ofNat 256 (bytesToNat r)) (BitVec.ofNat 256 (bytesToNat s))

/-- The signature with `signer` as the last byte of `r` and zeros elsewhere. -/
def Signature.sample (signer : BitVec 8) : Signature where
  bytes := List.replicate 31 0 ++ [signer] ++ List.replicate 33 0
  bounded := by simp

end OverUnder.Vyper
