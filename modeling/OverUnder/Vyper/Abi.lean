/-
Module: OverUnder.Vyper.Abi
Purpose: Decoding of calldata as the ABI specifies it: a selector, one head word for each
  argument, and for byte strings an offset from the start of the heads to a length and the
  bytes. Offsets may point anywhere.
Trusted boundary: human-reviewed spec
Main exports: Byte, sliceBytes, natToBytes, AbiType, AbiValue, abiWord, decodeArg, decodeArgs,
  decodeCall, bytesToNat_natToBytes
-/
import OverUnder.Vyper.Signatures

namespace OverUnder.Vyper

abbrev Byte := BitVec 8

/-- `slice(bytes, start, length)`, reverting past the end. -/
def sliceBytes (bytes : List Byte) (start length : Nat) : Call (List Byte) := do
  require (start + length ≤ bytes.length)
  return (bytes.drop start).take length

inductive AbiType where
  | address
  | uint256
  | bool
  /-- `Bytes[bound]`. -/
  | bytes (bound : Nat)

inductive AbiValue where
  | address (a : Address)
  | uint256 (n : Nat)
  | bool (b : Bool)
  | bytes (data : List Byte)
deriving DecidableEq

/-- The low bytes of a number, as `convert` to `bytesN` writes them. -/
def natToBytes : Nat → Nat → List Byte
  | 0, _ => []
  | length + 1, n => natToBytes length (n / 256) ++ [BitVec.ofNat 8 n]

/-- The word at a position, if it is there. -/
def abiWord (args : List Byte) (pos : Nat) : Option Nat :=
  if pos + 32 ≤ args.length then some (bytesToNat ((args.drop pos).take 32)) else none

/-- The argument whose head is at a position. -/
def decodeArg (args : List Byte) (pos : Nat) : AbiType → Option AbiValue
  | .address => (abiWord args pos).bind fun n =>
      if n < 2 ^ 160 then some (.address (BitVec.ofNat 160 n)) else none
  | .uint256 => (abiWord args pos).map .uint256
  | .bool => (abiWord args pos).bind fun n =>
      if n < 2 then some (.bool (decide (n = 1))) else none
  | .bytes bound => (abiWord args pos).bind fun offset =>
      (abiWord args offset).bind fun length =>
        if length ≤ bound ∧ offset + 32 + length ≤ args.length then
          some (.bytes ((args.drop (offset + 32)).take length))
        else none

/-- The arguments whose heads start at a position. -/
def decodeArgs (args : List Byte) : Nat → List AbiType → Option (List AbiValue)
  | _, [] => some []
  | pos, type :: types => (decodeArg args pos type).bind fun value =>
      (decodeArgs args (pos + 32) types).map (value :: ·)

/-- A call of the function with the given selector. -/
def decodeCall (selector : Nat) (types : List AbiType) (callData : List Byte) :
    Option (List AbiValue) :=
  if 4 ≤ callData.length ∧ bytesToNat (callData.take 4) = selector then
    decodeArgs (callData.drop 4) 0 types
  else none

variable {bytes args callData part : List Byte} {start length pos selector n : Nat}
variable {type : AbiType} {types : List AbiType} {value : AbiValue} {values : List AbiValue}

@[simp] theorem sliceBytes_ok :
    sliceBytes bytes start length = .ok part ↔
      start + length ≤ bytes.length ∧ part = (bytes.drop start).take length := by
  simp only [sliceBytes, bind_ok, require_ok, pure_ok, exists_const]

theorem bytesToNat_append_single (bytes : List Byte) (last : Byte) :
    bytesToNat (bytes ++ [last]) = bytesToNat bytes * 256 + last.toNat := by
  simp [bytesToNat]

@[simp] theorem natToBytes_length (length n : Nat) : (natToBytes length n).length = length := by
  induction length generalizing n with
  | zero => rfl
  | succ length ih => simp [natToBytes, ih]

/-- Reading back the bytes written. -/
theorem bytesToNat_natToBytes (length n : Nat) :
    bytesToNat (natToBytes length n) = n % 256 ^ length := by
  induction length generalizing n with
  | zero => simp [natToBytes, bytesToNat, Nat.mod_one]
  | succ length ih =>
      rw [natToBytes, bytesToNat_append_single, ih, BitVec.toNat_ofNat, pow_succ' 256 length,
        Nat.mod_mul, Nat.mul_comm, Nat.add_comm]

@[simp] theorem abiWord_eq_some :
    abiWord args pos = some n ↔
      pos + 32 ≤ args.length ∧ bytesToNat ((args.drop pos).take 32) = n := by
  simp [abiWord]

@[simp] theorem decodeArgs_nil : decodeArgs args pos [] = some values ↔ values = [] := by
  simp [decodeArgs, eq_comm]

@[simp] theorem decodeArgs_cons :
    decodeArgs args pos (type :: types) = some values ↔
      ∃ value rest, decodeArg args pos type = some value ∧
        decodeArgs args (pos + 32) types = some rest ∧ values = value :: rest := by
  simp only [decodeArgs, Option.bind_eq_some_iff, Option.map_eq_some_iff]
  constructor
  · rintro ⟨value, first, rest, later, rfl⟩
    exact ⟨value, rest, first, later, rfl⟩
  · rintro ⟨value, rest, first, later, rfl⟩
    exact ⟨value, first, rest, later, rfl⟩

theorem decodeArg_address :
    decodeArg args pos .address = some value ↔
      ∃ n, abiWord args pos = some n ∧ n < 2 ^ 160 ∧ value = .address (BitVec.ofNat 160 n) := by
  simp only [decodeArg, Option.bind_eq_some_iff, Option.ite_none_right_eq_some, Option.some.injEq]
  constructor
  · rintro ⟨n, there, fits, rfl⟩
    exact ⟨n, there, fits, rfl⟩
  · rintro ⟨n, there, fits, rfl⟩
    exact ⟨n, there, fits, rfl⟩

theorem decodeArg_uint256 :
    decodeArg args pos .uint256 = some value ↔
      ∃ n, abiWord args pos = some n ∧ value = .uint256 n := by
  simp only [decodeArg, Option.map_eq_some_iff]
  constructor
  · rintro ⟨n, there, rfl⟩
    exact ⟨n, there, rfl⟩
  · rintro ⟨n, there, rfl⟩
    exact ⟨n, there, rfl⟩

theorem decodeArg_bytes {bound : Nat} :
    decodeArg args pos (.bytes bound) = some value ↔
      ∃ offset length, abiWord args pos = some offset ∧ abiWord args offset = some length ∧
        length ≤ bound ∧ offset + 32 + length ≤ args.length ∧
        value = .bytes ((args.drop (offset + 32)).take length) := by
  simp only [decodeArg, Option.bind_eq_some_iff, Option.ite_none_right_eq_some, Option.some.injEq]
  constructor
  · rintro ⟨offset, head, length, tail, ⟨short, within⟩, rfl⟩
    exact ⟨offset, length, head, tail, short, within, rfl⟩
  · rintro ⟨offset, length, head, tail, short, within, rfl⟩
    exact ⟨offset, head, length, tail, ⟨short, within⟩, rfl⟩

theorem decodeCall_eq_some :
    decodeCall selector types callData = some values ↔
      (4 ≤ callData.length ∧ bytesToNat (callData.take 4) = selector) ∧
        decodeArgs (callData.drop 4) 0 types = some values := by
  simp only [decodeCall, Option.ite_none_right_eq_some]

/-- A word of the arguments is a word of the calldata, four bytes later. -/
theorem word_of_args :
    ((callData.drop 4).drop pos).take length = (callData.drop (4 + pos)).take length := by
  rw [List.drop_drop]

end OverUnder.Vyper
