/-
Module: OverUnder.Proofs.SponsoredCalls
Purpose: The call that an account makes on sponsored calldata is the one the paymaster
  validated: it sends no ether, is on the list, and approves protocol contracts only.
Trusted boundary: none
Main exports: Inner, innerCall_spec, execute_spec, Allowlisted, Vetted, validateCall_vets,
  sponsored_calls_are_vetted
-/
import OverUnder.Contracts.Paymaster

namespace OverUnder.Contracts

open OverUnder.Vyper

namespace Paymaster

variable {site : PaymasterSite} {p : Paymaster} {callData data : List Byte}
variable {target recipient : Address} {amount : Nat}

/-! ### The two decoders -/

theorem extractSelector_ok {selector : Nat} :
    extractSelector callData = .ok selector ↔
      4 ≤ callData.length ∧ selector = bytesToNat (callData.take 4) := by
  simp only [extractSelector, bind_ok, require_ok, sliceBytes_ok, pure_ok, exists_const,
    List.drop_zero]
  constructor
  · rintro ⟨long, _, ⟨-, rfl⟩, rfl⟩
    exact ⟨long, rfl⟩
  · rintro ⟨long, rfl⟩
    exact ⟨long, _, ⟨by omega, rfl⟩, rfl⟩

theorem extractAddress_spec {offset : Nat} {a : Address}
    (done : extractAddress callData offset = .ok a) :
    a = BitVec.ofNat 160 (bytesToNat ((callData.drop offset).take 32)) := by
  simp only [extractAddress, bind_ok, require_ok, sliceBytes_ok, uadd_ok, pure_ok,
    exists_const] at done
  rcases done with ⟨_, -, -, _, ⟨-, rfl⟩, rfl⟩
  rfl

theorem extractUint_spec {offset n : Nat} (done : extractUint callData offset = .ok n) :
    n = bytesToNat ((callData.drop offset).take 32) := by
  simp only [extractUint, bind_ok, require_ok, sliceBytes_ok, uadd_ok, pure_ok,
    exists_const] at done
  rcases done with ⟨_, -, -, _, ⟨-, rfl⟩, rfl⟩
  rfl

/-- Where the paymaster finds the inner call. -/
structure Inner (callData : List Byte) (target : Address) (amount : Nat) (data : List Byte) :
    Prop where
  target : target = BitVec.ofNat 160 (bytesToNat ((callData.drop 4).take 32))
  amount : amount = bytesToNat ((callData.drop 36).take 32)
  data : ∃ offset length, offset = bytesToNat ((callData.drop 68).take 32) ∧
    length = bytesToNat ((callData.drop (4 + offset)).take 32) ∧
    data = (callData.drop (4 + offset + 32)).take length

theorem innerCall_spec (done : innerCall callData = .ok (some (target, amount, data))) :
    Inner callData target amount data := by
  unfold innerCall at done
  split at done
  · cases done
  · simp only [bind_ok] at done
    rcases done with ⟨selector, -, done⟩
    split at done
    · cases done
    · split at done
      · cases done
      · split at done
        · cases done
        · simp only [bind_ok, sliceBytes_ok, uadd_ok] at done
          rcases done with ⟨t, addressed, n, counted, _, ⟨-, rfl⟩, _, ⟨-, rfl⟩, _, ⟨-, rfl⟩, done⟩
          split at done
          · cases done
          · simp only [bind_ok, sliceBytes_ok, uadd_ok] at done
            rcases done with ⟨_, ⟨-, rfl⟩, _, ⟨-, rfl⟩, done⟩
            split at done
            · cases done
            · simp only [bind_ok, sliceBytes_ok, pure_ok, Option.some.injEq, Prod.mk.injEq]
                at done
              rcases done with ⟨_, ⟨-, rfl⟩, rfl, rfl, rfl⟩
              exact ⟨extractAddress_spec addressed, extractUint_spec counted, _, _, rfl, rfl, rfl⟩

/-- Where the account finds the call it makes. -/
theorem execute_spec {call : SimpleAccount.RawCall}
    (done : SimpleAccount.execute callData = some call) :
    Inner callData call.target call.amount call.data := by
  unfold SimpleAccount.execute at done
  split at done
  · next target amount data decoded =>
    cases done
    rw [decodeCall_eq_some] at decoded
    rcases decoded with ⟨-, decoded⟩
    simp only [decodeArgs_cons, decodeArgs_nil, decodeArg_address, decodeArg_uint256,
      decodeArg_bytes, abiWord_eq_some, word_of_args] at decoded
    rcases decoded with ⟨_, _, ⟨_, ⟨-, rfl⟩, -, rfl⟩, ⟨_, _, ⟨_, ⟨-, rfl⟩, rfl⟩,
      ⟨_, _, ⟨offset, length, ⟨-, pointed⟩, ⟨-, counted⟩, -, -, rfl⟩, rfl, rfl⟩, rfl⟩, values⟩
    cases values
    exact ⟨rfl, rfl, offset, length, pointed.symm, counted.symm, rfl⟩
  · cases done

/-- The paymaster and the account find the same call. -/
theorem Inner.unique {call : SimpleAccount.RawCall} (validated : Inner callData target amount data)
    (executed : Inner callData call.target call.amount call.data) :
    target = call.target ∧ amount = call.amount ∧ data = call.data := by
  rcases validated.data with ⟨_, _, rfl, rfl, validatedData⟩
  rcases executed.data with ⟨_, _, rfl, rfl, executedData⟩
  exact ⟨validated.target.trans executed.target.symm,
    validated.amount.trans executed.amount.symm, validatedData.trans executedData.symm⟩

/-! ### What is on the list -/

/-- The pairs of a contract and a function that may be sponsored. -/
inductive Allowlisted (p : Paymaster) : Address → Nat → Prop where
  | approve : Allowlisted p p.usdc selectorApprove
  | split : Allowlisted p p.ctf selectorSplit
  | setApproval : Allowlisted p p.ctf selectorSetApproval
  | pool {selector : Nat} : selector ∈ [selectorBuyUsdc, selectorSellUsdc, selectorAddLiq] →
      Allowlisted p p.amm selector
  | castVote : Allowlisted p p.oracle selectorCastVote
  | exchange {selector : Nat} : selector ∈ [selectorCancelOrder, selectorIncNonce] →
      Allowlisted p p.exchange selector
  | feeVault {selector : Nat} : selector ∈ [selectorRequestRedeem, selectorClaim] →
      Allowlisted p p.feeVault selector

/-- The listed contracts. -/
theorem Allowlisted.target_mem {selector : Nat} (listed : Allowlisted p target selector) :
    target ∈ [p.usdc, p.ctf, p.amm, p.oracle, p.exchange, p.feeVault] := by
  cases listed <;> simp

/-- No contract has `matchOrders` on the list. -/
theorem Allowlisted.ne_matchOrders {selector : Nat} (listed : Allowlisted p target selector) :
    selector ≠ selectorMatchOrders := by
  rintro rfl
  have apart : selectorMatchOrders ∉ [selectorApprove, selectorSplit, selectorSetApproval,
      selectorBuyUsdc, selectorSellUsdc, selectorAddLiq, selectorCastVote, selectorCancelOrder,
      selectorIncNonce, selectorRequestRedeem, selectorClaim] := by decide
  generalize selectorMatchOrders = selector at listed apart
  cases listed <;> simp_all

/-- What a call on an account must satisfy to be sponsored. -/
structure Vetted (site : PaymasterSite) (p : Paymaster) (target : Address)
    (data : List Byte) : Prop where
  selects : 4 ≤ data.length
  listed : Allowlisted p target (bytesToNat (data.take 4))
  approval : target = p.usdc → ∀ {spender n},
    decodeCall selectorApprove [.address, .uint256] data =
        some [.address spender, .uint256 n] →
      spender ∈ [p.ctf, p.exchange, p.amm, p.feeVault, site.self]
  operatorApproval : target = p.ctf → ∀ {operator b},
    decodeCall selectorSetApproval [.address, .bool] data =
        some [.address operator, .bool b] →
      operator ∈ [p.amm, p.exchange, p.feeVault]

/-- A first argument that decodes as an address is the one the paymaster extracts. -/
theorem first_address {selector : Nat} {type : AbiType} {a b : Address} {value : AbiValue}
    (extracted : extractAddress data 4 = .ok a)
    (decoded : decodeCall selector [.address, type] data = some [.address b, value]) : b = a := by
  rw [decodeCall_eq_some] at decoded
  rcases decoded with ⟨-, decoded⟩
  simp only [decodeArgs_cons, decodeArgs_nil, decodeArg_address, abiWord_eq_some,
    word_of_args] at decoded
  rcases decoded with ⟨_, _, ⟨_, ⟨-, rfl⟩, -, rfl⟩, -, values⟩
  cases values
  exact (extractAddress_spec extracted).symm

theorem selector_of_decoded {selector : Nat} {types : List AbiType} {values : List AbiValue}
    (decoded : decodeCall selector types data = some values) :
    bytesToNat (data.take 4) = selector :=
  (decodeCall_eq_some.mp decoded).1.2

/-- What `validateCall` accepts is vetted. -/
theorem validateCall_vets (done : validateCall site p target data = .ok true) :
    Vetted site p target data := by
  unfold validateCall at done
  split at done
  · cases done
  next long =>
  simp only [bind_ok, extractSelector_ok] at done
  rcases done with ⟨selector, ⟨selects, chosen⟩, done⟩
  split at done
  · cases done
  split at done
  · next approving =>
    rcases approving with ⟨rfl, approving⟩
    split at done
    · cases done
    · simp only [bind_ok, pure_ok] at done
      rcases done with ⟨spender, extracted, done⟩
      refine ⟨selects, chosen ▸ approving ▸ .approve, fun _ _ _ decoded => ?_,
        fun _ _ _ decoded => ?_⟩
      · rw [first_address extracted decoded]
        exact of_decide_eq_true done.symm
      · have := selector_of_decoded decoded
        exact absurd (approving.symm.trans (chosen.trans this)) (by decide)
  next notApprove =>
  have noApproval : target = p.usdc → ∀ {spender : Address} {n : Nat},
      decodeCall selectorApprove [.address, .uint256] data =
          some [.address spender, .uint256 n] →
        spender ∈ [p.ctf, p.exchange, p.amm, p.feeVault, site.self] := fun at_usdc _ _ decoded =>
    absurd ⟨at_usdc, chosen.trans (selector_of_decoded decoded)⟩ notApprove
  split at done
  · next splitting =>
    refine ⟨selects, chosen ▸ splitting.1 ▸ splitting.2 ▸ .split, noApproval,
      fun _ _ _ decoded => ?_⟩
    have := selector_of_decoded decoded
    exact absurd (splitting.2.symm.trans (chosen.trans this)) (by decide)
  split at done
  · next approving =>
    rcases approving with ⟨rfl, approving⟩
    split at done
    · cases done
    · simp only [bind_ok, pure_ok] at done
      rcases done with ⟨operator, extracted, done⟩
      refine ⟨selects, chosen ▸ approving ▸ .setApproval, noApproval, fun _ _ _ decoded => ?_⟩
      rw [first_address extracted decoded]
      exact of_decide_eq_true done.symm
  next notSetApproval =>
  have noOperator : target = p.ctf → ∀ {operator : Address} {b : Bool},
      decodeCall selectorSetApproval [.address, .bool] data =
          some [.address operator, .bool b] →
        operator ∈ [p.amm, p.exchange, p.feeVault] := fun at_ctf _ _ decoded =>
    absurd ⟨at_ctf, chosen.trans (selector_of_decoded decoded)⟩ notSetApproval
  subst chosen
  refine ⟨selects, ?_, noApproval, noOperator⟩
  split at done
  · next pooled => exact pooled.1 ▸ .pool pooled.2
  split at done
  · next voting => exact voting.1 ▸ voting.2 ▸ .castVote
  split at done
  · next exchanging => exact exchanging.1 ▸ .exchange exchanging.2
  split at done
  · next vaulting => exact vaulting.1 ▸ .feeVault vaulting.2
  · cases done

theorem validateCallData_ok (done : validateCallData site p callData = .ok true) :
    ∃ target data, innerCall callData = .ok (some (target, 0, data)) ∧
      Vetted site p target data := by
  simp only [validateCallData, bind_ok] at done
  rcases done with ⟨inner, found, done⟩
  cases inner with
  | none => cases done
  | some inner =>
      rcases inner with ⟨target, amount, data⟩
      dsimp only at done
      split at done
      · cases done
      · next noEther =>
        cases not_not.mp noEther
        exact ⟨target, data, found, validateCall_vets done⟩

/-! ### What is sponsored is what runs -/

theorem admitSender_frame {op : UserOp} {p' : Paymaster} (done : p.admitSender op = .ok p') :
    ∃ senders, p' = { p with allowedSenders := senders } := by
  simp only [admitSender] at done
  split at done
  · simp only [bind_ok, require_ok, pure_ok, exists_const] at done
    rcases done with ⟨-, _, -, -, rfl⟩
    exact ⟨_, rfl⟩
  · simp only [bind_ok, require_ok, pure_ok, exists_const] at done
    rcases done with ⟨-, rfl⟩
    exact ⟨_, rfl⟩

/-- An operation that is sponsored had its calldata validated. -/
theorem validatePaymasterUserOp_validates {sender : Address} {timestamp maxCost : Nat}
    {op : UserOp} {result : Paymaster × (Address × Nat) × Nat}
    (done : validatePaymasterUserOp site p sender timestamp op maxCost = .ok result) :
    validateCallData site p op.callData.bytes = .ok true := by
  simp only [validatePaymasterUserOp, bind_ok, require_ok, exists_const] at done
  rcases done with ⟨-, -, p', admitted, _, -, allowed, validated, rfl, -⟩
  rcases admitSender_frame admitted with ⟨senders, rfl⟩
  exact validated

/-- Calldata that the paymaster validates runs as the call it validated: without ether, on a
listed contract and function that is not `matchOrders`, and if it approves, then a contract of
the protocol. So does every operation it sponsors. -/
theorem sponsored_calls_are_vetted (site : PaymasterSite) (p : Paymaster) :
    (∀ callData call, validateCallData site p callData = .ok true →
      SimpleAccount.execute callData = some call →
        innerCall callData = .ok (some (call.target, 0, call.data)) ∧ call.amount = 0 ∧
          bytesToNat (call.data.take 4) ≠ selectorMatchOrders ∧
          call.target ∈ [p.usdc, p.ctf, p.amm, p.oracle, p.exchange, p.feeVault] ∧
          Vetted site p call.target call.data) ∧
    (∀ sender timestamp op maxCost result,
      validatePaymasterUserOp site p sender timestamp op maxCost = .ok result →
        validateCallData site p op.callData.bytes = .ok true) := by
  constructor
  · intro callData call validated executed
    rcases validateCallData_ok validated with ⟨target, data, found, vetted⟩
    rcases (innerCall_spec found).unique (execute_spec executed) with ⟨rfl, noEther, rfl⟩
    exact ⟨found, noEther.symm, vetted.listed.ne_matchOrders, vetted.listed.target_mem, vetted⟩
  · intro sender timestamp op maxCost result sponsored
    exact validatePaymasterUserOp_validates sponsored

/-! ### A sample operation -/

/-- `approve(ctf, 5)`. -/
def sampleApprove : List Byte :=
  natToBytes 4 selectorApprove ++ natToBytes 32 12 ++ natToBytes 32 5

/-- `execute(usdc, 0, approve(ctf, 5))`. -/
def sampleExecute : List Byte :=
  natToBytes 4 selectorExecute ++ natToBytes 32 11 ++ natToBytes 32 0 ++ natToBytes 32 96 ++
    natToBytes 32 sampleApprove.length ++ sampleApprove

def sampleSite : PaymasterSite where
  self := 17
  ecrecover := fun _ _ _ _ => 9
  operatorDigest := fun _ _ _ => 0
  usdcBalanceOf := fun _ => 10 ^ 9
  usdcAllowance := fun _ => 10 ^ 9
  deposit := 10 ^ 18

def samplePaymaster : Paymaster where
  entryPoint := 2
  operator := 9
  allowedFactories := fun _ => true
  allowedSenders := fun _ => true
  usdc := 11
  ctf := 12
  amm := 13
  exchange := 14
  oracle := 15
  feeVault := 16
  weiPerUsdc := 1000
  dailyCapUsdc := 10 ^ 7
  dailySpend := fun _ => ⟨0, 0⟩

def sampleOp : UserOp where
  sender := 33
  nonce := 0
  initCode := ⟨[], by decide⟩
  callData := ⟨sampleExecute, by decide +kernel⟩
  accountGasLimits := 0
  preVerificationGas := 0
  gasFees := 0
  paymasterAndData := ⟨natToBytes 20 17 ++ natToBytes 44 0 ++ natToBytes 65 27, by decide +kernel⟩
  signature := ⟨[], by decide⟩

theorem sponsored_calls_are_vetted_sample :
    (innerCall sampleExecute = .ok (some (11, 0, sampleApprove)) ∧
      Vetted sampleSite samplePaymaster 11 sampleApprove) ∧
    validateCallData sampleSite samplePaymaster sampleOp.callData.bytes = .ok true := by
  have vetted := sponsored_calls_are_vetted sampleSite samplePaymaster
  have sponsored := ok_of_isOk
    (x := validatePaymasterUserOp sampleSite samplePaymaster 2 100 sampleOp 1000)
    (by decide +kernel)
  rcases sponsored with ⟨result, sponsored⟩
  have runs := vetted.1 sampleExecute ⟨11, 0, sampleApprove⟩ (by decide +kernel)
    (by decide +kernel)
  exact ⟨⟨runs.1, runs.2.2.2.2⟩, vetted.2 2 100 sampleOp 1000 result sponsored⟩

end Paymaster

end OverUnder.Contracts
