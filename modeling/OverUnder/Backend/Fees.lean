/-
Module: OverUnder.Backend.Fees
Purpose: The fees of the relayer's transactions: `backend/app/relayer/gas.py`, the columns of a job
  that keep them, and the order in which `backend/app/relayer/worker.py` signs transactions for a
  job: one under a fresh nonce, replacements under the same one, and again from the start once
  the job is back to pending. Amounts are in wei; prices are any answers of the node.
Trusted boundary: human-reviewed spec
Main exports: Settings, FeeQuote, ceilBps, quoteFees, bumpFees, gasLimit, StoredFees, storedQuote,
  storeQuote, Attempt, JobFees, Event, step
-/
import Mathlib

namespace OverUnder.Backend.Fees

/-- The settings that `gas.py` reads. -/
structure Settings where
  relayerMaxFeePerGasWei : Nat
  relayerPriorityFeeWei : Nat
  relayerFeeBumpBps : Nat
  relayerGasLimitCap : Nat
  relayerGasBufferBps : Nat

structure FeeQuote where
  maxFee : Nat
  tip : Nat
  legacyGasPrice : Option Nat := none
deriving DecidableEq

def bps : Nat := 10000

/-- `_ceil_bps`. -/
def ceilBps (x b : Nat) : Nat := (x * b + bps - 1) / bps

variable (s : Settings)

/-- `quote_fees`. -/
def quoteFees (baseFee suggestedTip gasPrice : Option Nat) : Option FeeQuote :=
  let cap := s.relayerMaxFeePerGasWei
  match baseFee with
  | none =>
      match gasPrice with
      | none => none
      | some gasPrice =>
          if gasPrice = 0 ∨ cap < gasPrice then none
          else some { maxFee := gasPrice, tip := gasPrice, legacyGasPrice := some gasPrice }
  | some baseFee =>
      let tip := max (suggestedTip.getD 0) s.relayerPriorityFeeWei
      if cap < baseFee + tip then none
      else some { maxFee := min (2 * baseFee + tip) cap, tip := tip }

/-- The factor of `bump_fees`. -/
def bumpFactor : Nat := bps + max s.relayerFeeBumpBps 1000

/-- `bump_fees`. -/
def bumpFees (q : FeeQuote) (baseFee : Option Nat) : Option FeeQuote :=
  let cap := s.relayerMaxFeePerGasWei
  match q.legacyGasPrice with
  | some gasPrice =>
      let gp := ceilBps gasPrice (bumpFactor s)
      if cap < gp then none else some { maxFee := gp, tip := gp, legacyGasPrice := some gp }
  | none =>
      let minTip := ceilBps q.tip (bumpFactor s)
      let minMax := ceilBps q.maxFee (bumpFactor s)
      let wanted := (baseFee.map fun baseFee => max minMax (2 * baseFee + minTip)).getD minMax
      let maxFee := min wanted cap
      if maxFee < minMax ∨ maxFee < minTip then none else some { maxFee := maxFee, tip := minTip }

/-- `gas_limit`. -/
def gasLimit (estimate : Nat) : Option Nat :=
  let cap := s.relayerGasLimitCap
  if estimate = 0 ∨ cap < estimate then none
  else some (min (ceilBps estimate (bps + s.relayerGasBufferBps)) cap)

/-! ### The columns of a job -/

/-- `max_fee_per_gas` and `max_priority_fee_per_gas`. -/
structure StoredFees where
  maxFeePerGas : Option Nat := none
  maxPriorityFeePerGas : Option Nat := none
deriving DecidableEq

/-- `_stored_quote`. -/
def storedQuote (stored : StoredFees) : FeeQuote :=
  match stored.maxPriorityFeePerGas with
  | none =>
      let gp := stored.maxFeePerGas.getD 0
      { maxFee := gp, tip := gp, legacyGasPrice := some gp }
  | some tip => { maxFee := stored.maxFeePerGas.getD 0, tip := tip }

/-- `_store_quote`. -/
def storeQuote (q : FeeQuote) : StoredFees where
  maxFeePerGas := some q.maxFee
  maxPriorityFeePerGas := if q.legacyGasPrice.isSome then none else some q.tip

/-! ### The transactions of a job -/

/-- What was signed for a job under one nonce: the gas and the fees, the first ones first. -/
structure Attempt where
  nonce : Nat
  gas : Nat
  quotes : List FeeQuote
deriving DecidableEq

/-- What the columns of a job hold, the attempt they belong to, and the earlier ones. -/
structure JobFees where
  nonce : Option Nat := none
  gas : Nat := 0
  stored : StoredFees := {}
  quotes : List FeeQuote := []
  past : List Attempt := []
deriving DecidableEq

/-- The attempts of a job so far. -/
def JobFees.attempts (job : JobFees) : List Attempt :=
  match job.nonce with
  | none => job.past
  | some nonce => job.past ++ [⟨nonce, job.gas, job.quotes⟩]

/-- What the worker does with a job, with the answers of the node. -/
inductive Event where
  /-- `_send` with a reserved nonce. -/
  | send (nonce estimate : Nat) (baseFee suggestedTip gasPrice : Option Nat)
  /-- `_bump` with the base fee of the latest block. -/
  | bump (baseFee : Option Nat)
  /-- `_back_to_pending`. -/
  | backToPending

/-- What an event makes of a job; where the worker signs nothing, there is no step. -/
def step (job : JobFees) : Event → Option JobFees
  | .send nonce estimate baseFee suggestedTip gasPrice =>
      if job.nonce.isSome then none
      else
        (gasLimit s estimate).bind fun gas =>
          (quoteFees s baseFee suggestedTip gasPrice).map fun q =>
            { job with nonce := some nonce, gas := gas, stored := storeQuote q, quotes := [q] }
  | .bump baseFee =>
      if job.nonce = none ∨ job.gas = 0 then none
      else (bumpFees s (storedQuote job.stored) baseFee).map fun q =>
        { job with stored := storeQuote q, quotes := job.quotes ++ [q] }
  | .backToPending => some { job with nonce := none, past := job.attempts, quotes := [] }

end OverUnder.Backend.Fees
