/-
Module: OverUnder.Proofs.Solvency
Purpose: The pool contract holds what its pools account for. Each external call
  of an entry point shifts its holdings; an entry point keeps the books when
  the shifts add up to the change of the pool.
Trusted boundary: none
Main exports: Custody, Shift, Solvent, Solvent.step, Market.Initial,
  market_solvent
-/
import OverUnder.Library.Reachable
import OverUnder.Proofs.OutcomeTokens
import OverUnder.Proofs.PoolQuotes

namespace OverUnder.Contracts

open OverUnder.Vyper
open OverUnder.Library

namespace MarketAMM

variable (site : AmmSite)

/-- Positions of one outcome held by the pool contract. -/
def held (tokens : Tokens) (c : Bytes32) (yes : Bool) : Nat :=
  tokens.ctf.balanceOf (site.self, pid site c yes)

/-- Collateral held by the pool contract. -/
def cash (tokens : Tokens) : Nat := tokens.usdc.balanceOf site.self

/-- The pool contract approved nobody but the outcome-token contract, and that
approval is not used up. -/
structure Custody (tokens : Tokens) : Prop where
  unlimited : tokens.usdc.allowance (site.self, site.ctf.self) = MockUSDC.maxAllowance
  barred : ∀ s, s ≠ site.ctf.self → tokens.usdc.allowance (site.self, s) = 0
  unapproved : ∀ op, tokens.ctf.isApprovedForAll (site.self, op) = false

/-- The holdings change by at least `usdc`, and by at least `yes` and `no` for
condition `c`. -/
structure Shift (c : Bytes32) (before after : Tokens) (usdc yes no : Int) : Prop where
  custody : Custody site before → Custody site after
  cash_le : (cash site before : Int) + usdc ≤ cash site after
  yes_le : (held site before c true : Int) + yes ≤ held site after c true
  no_le : (held site before c false : Int) + no ≤ held site after c false
  others : ∀ c', c' ≠ c → ∀ y, held site before c' y ≤ held site after c' y

/-- What every reachable state satisfies. -/
structure Solvent (m : Market) : Prop where
  custody : Custody site m.tokens
  reserves : ∀ c yes, (m.amm.pools c).reserve yes ≤ held site m.tokens c yes
  fees : total (fun c => (m.amm.pools c).lpFees) ≤ cash site m.tokens

variable {site} {tokens after : Tokens} {c : Bytes32} {amount : Nat} {account : Address}

theorem pid_eq_iff {c c' : Bytes32} {y y' : Bool} :
    pid site c y = pid site c' y' ↔ c = c' ∧ y = y' := by
  unfold pid
  rw [ConditionalTokens.pid_eq_iff]
  cases y <;> cases y' <;> simp

/-! ### The shifts of the external calls -/

theorem Shift.refl (c : Bytes32) (tokens : Tokens) : Shift site c tokens tokens 0 0 0 :=
  ⟨id, by omega, by omega, by omega, fun _ _ _ => Nat.le_refl _⟩

theorem Shift.trans {first second third : Tokens} {u y n u' y' n' : Int}
    (left : Shift site c first second u y n) (right : Shift site c second third u' y' n') :
    Shift site c first third (u + u') (y + y') (n + n') where
  custody held := right.custody (left.custody held)
  cash_le := by have := left.cash_le; have := right.cash_le; omega
  yes_le := by have := left.yes_le; have := right.yes_le; omega
  no_le := by have := left.no_le; have := right.no_le; omega
  others c' other y := (left.others c' other y).trans (right.others c' other y)

/-- A call under a guard, when the guard is off exactly when there is nothing to
shift. -/
theorem callWhen_shift {guard : Prop} [Decidable guard] {call : Tokens → Call Tokens}
    {u y n : Int} (done : callWhen guard tokens call = .ok after)
    (on : call tokens = .ok after → Shift site c tokens after u y n)
    (off : ¬guard → u = 0 ∧ y = 0 ∧ n = 0) : Shift site c tokens after u y n := by
  unfold callWhen at done
  split at done
  · exact on done
  · next idle =>
    obtain ⟨rfl, rfl, rfl⟩ := off idle
    rw [pure_ok] at done
    subst done
    exact .refl c _

/-- Collateral taken from somebody else. -/
theorem pullUsdc_shift (outsider : account ≠ site.self)
    (done : pullUsdc site tokens account amount = .ok after) :
    Shift site c tokens after amount 0 0 := by
  simp only [pullUsdc, bind_ok, pure_ok] at done
  obtain ⟨usdc, paid, rfl⟩ := done
  obtain ⟨moved, -, allowances, -⟩ := MockUSDC.transferFrom_spec paid
  have mine : ∀ s, usdc.allowance (site.self, s) = tokens.usdc.allowance (site.self, s) :=
    fun s => allowances _ fun pair => outsider (congrArg Prod.fst pair).symm
  have entry := moved.entry site.self
  rw [if_neg outsider.symm, if_pos rfl] at entry
  refine ⟨fun custody => ⟨(mine _).trans custody.unlimited,
    fun s other => (mine s).trans (custody.barred s other), custody.unapproved⟩, ?_, ?_, ?_,
    fun _ _ _ => Nat.le_refl _⟩
  · simp only [cash]
    omega
  · simp [held]
  · simp [held]

theorem sendUsdc_shift (done : sendUsdc site tokens account amount = .ok after) :
    Shift site c tokens after (-amount) 0 0 := by
  simp only [sendUsdc, bind_ok, pure_ok] at done
  obtain ⟨usdc, paid, rfl⟩ := done
  obtain ⟨moved, -, allowances⟩ := MockUSDC.transfer_spec paid
  have entry := moved.entry site.self
  rw [if_pos rfl] at entry
  refine ⟨fun custody => ⟨by rw [allowances]; exact custody.unlimited,
    fun s other => by rw [allowances]; exact custody.barred s other, custody.unapproved⟩,
    ?_, ?_, ?_, fun _ _ _ => Nat.le_refl _⟩
  · simp only [cash]
    omega
  · simp [held]
  · simp [held]

/-- Positions sent from or received by the pool contract touch one outcome only. -/
private theorem transfer_custody {ctf : ConditionalTokens} {owner receiver : Address}
    {id : Nat}
    (done : ConditionalTokens.safeTransferFrom tokens.ctf site.self owner receiver id amount =
      .ok ctf) (custody : Custody site tokens) : Custody site { tokens with ctf } := by
  obtain ⟨-, -, same⟩ := ConditionalTokens.safeTransferFrom_spec done
  refine ⟨custody.unlimited, custody.barred, fun op => ?_⟩
  rw [same]
  exact custody.unapproved op

theorem sendTokens_shift {yes : Bool}
    (done : sendTokens site tokens account c yes amount = .ok after) :
    Shift site c tokens after 0 (if yes then -amount else 0)
      (if yes then 0 else -amount) := by
  simp only [sendTokens, bind_ok, pure_ok] at done
  obtain ⟨ctf, sent, rfl⟩ := done
  obtain ⟨-, moved, -⟩ := ConditionalTokens.safeTransferFrom_spec sent
  have entry : ∀ c' y, tokens.ctf.balanceOf (site.self, pid site c' y) ≤
      ctf.balanceOf (site.self, pid site c' y) +
        if c' = c ∧ y = yes then amount else 0 := fun c' y => by
    have posted := moved.entry (site.self, pid site c' y)
    simp only [Prod.mk.injEq, true_and, pid_eq_iff] at posted
    omega
  have here := entry c
  simp only [true_and] at here
  refine ⟨transfer_custody sent, by simp [cash], ?_, ?_, fun c' other y => ?_⟩
  · have := here true
    cases yes <;> simp [held] at this ⊢ <;> omega
  · have := here false
    cases yes <;> simp [held] at this ⊢ <;> omega
  · simpa [held, other] using entry c' y

theorem pullTokens_shift {yes : Bool} (outsider : account ≠ site.self)
    (done : pullTokens site tokens account c yes amount = .ok after) :
    Shift site c tokens after 0 (if yes then amount else 0)
      (if yes then 0 else amount) := by
  simp only [pullTokens, bind_ok, pure_ok] at done
  obtain ⟨ctf, sent, rfl⟩ := done
  obtain ⟨-, moved, -⟩ := ConditionalTokens.safeTransferFrom_spec sent
  have entry : ∀ c' y, ctf.balanceOf (site.self, pid site c' y) =
      tokens.ctf.balanceOf (site.self, pid site c' y) +
        if c' = c ∧ y = yes then amount else 0 := fun c' y => by
    have posted := moved.entry (site.self, pid site c' y)
    rw [if_neg fun pair => outsider (congrArg Prod.fst pair).symm] at posted
    simp only [Prod.mk.injEq, true_and, pid_eq_iff] at posted
    omega
  have here := entry c
  simp only [true_and] at here
  refine ⟨transfer_custody sent, by simp [cash], ?_, ?_, fun c' other y => ?_⟩
  · have := here true
    cases yes <;> simp [held] at this ⊢ <;> omega
  · have := here false
    cases yes <;> simp [held] at this ⊢ <;> omega
  · simpa [held, other] using (entry c' y).ge

/-- Splitting locks collateral of the pool contract for both outcomes. Its approval
of the outcome-token contract is unlimited, so no draw lowers it. -/
theorem splitPosition_shift (custody : Custody site tokens)
    (done : splitPosition site tokens c amount = .ok after) :
    Shift site c tokens after (-amount) amount amount := by
  obtain ⟨-, -, paid, ⟨middle, yes, no⟩, same⟩ :=
    ConditionalTokens.splitPosition_spec done
  obtain ⟨moved, -, -, drawn⟩ := MockUSDC.transferFrom_spec paid
  rw [MockUSDC.spend_unlimited custody.unlimited, Except.ok.injEq] at drawn
  have entry := moved.entry site.self
  rw [if_pos rfl, if_neg site.apart] at entry
  have issued : ∀ c' y, held site after c' y =
      held site tokens c' y + if c' = c then amount else 0 := fun c' y => by
    have second := no (site.self, pid site c' y)
    have first := yes (site.self, pid site c' y)
    unfold pid at first second
    simp only [Prod.mk.injEq, true_and, ConditionalTokens.pid_eq_iff] at first second
    simp only [held, pid]
    cases y <;> by_cases here : c' = c <;> simp [here] at first second ⊢ <;> omega
  refine ⟨fun _ => ⟨by rw [← drawn]; exact custody.unlimited,
    fun s other => by rw [← drawn]; exact custody.barred s other,
    fun op => by rw [same]; exact custody.unapproved op⟩, ?_, ?_, ?_, fun c' other y => ?_⟩
  · simp only [cash]
    omega
  · rw [issued]
    simp
  · rw [issued]
    simp
  · rw [issued, if_neg other]
    exact Nat.le_add_right _ _

theorem mergePositions_shift (done : mergePositions site tokens c amount = .ok after) :
    Shift site c tokens after amount (-amount) (-amount) := by
  obtain ⟨-, paid, ⟨middle, yes, no⟩, same⟩ := ConditionalTokens.mergePositions_spec done
  obtain ⟨moved, -, allowances⟩ := MockUSDC.transfer_spec paid
  have entry := moved.entry site.self
  rw [if_neg site.apart, if_pos rfl] at entry
  have burned : ∀ c' y, held site after c' y + (if c' = c then amount else 0) =
      held site tokens c' y := fun c' y => by
    have second := no (site.self, pid site c' y)
    have first := yes (site.self, pid site c' y)
    unfold pid at first second
    simp only [Prod.mk.injEq, true_and, ConditionalTokens.pid_eq_iff] at first second
    simp only [held, pid]
    cases y <;> by_cases here : c' = c <;> simp [here] at first second ⊢ <;> omega
  refine ⟨fun custody => ⟨by rw [allowances]; exact custody.unlimited,
    fun s other => by rw [allowances]; exact custody.barred s other,
    fun op => by rw [same]; exact custody.unapproved op⟩, ?_, ?_, ?_, fun c' other y => ?_⟩
  · simp only [cash]
    omega
  · have := burned c true
    rw [if_pos rfl] at this
    omega
  · have := burned c false
    rw [if_pos rfl] at this
    omega
  · have := burned c' y
    rw [if_neg other] at this
    omega

/-! ### Books that follow a shift -/

variable {m : Market} {next : Market} {msg : Msg}

/-- Solvency survives when one pool grows by no more than its holdings do. -/
theorem Solvent.update (inv : Solvent site m) {p : Pool} {u y n : Int}
    (moved : Shift site c m.tokens next.tokens u y n)
    (pools : next.amm.pools = Function.update m.amm.pools c p)
    (yes : (p.yesReserve : Int) ≤ (m.amm.pools c).yesReserve + y)
    (no : (p.noReserve : Int) ≤ (m.amm.pools c).noReserve + n)
    (fees : (p.lpFees : Int) ≤ (m.amm.pools c).lpFees + u) : Solvent site next := by
  have here : next.amm.pools c = p := by rw [pools, Function.update_self]
  have elsewhere : ∀ c', c' ≠ c → next.amm.pools c' = m.amm.pools c' :=
    fun c' other => by rw [pools, Function.update_of_ne other]
  refine ⟨moved.custody inv.custody, fun c' side => ?_, ?_⟩
  · by_cases same : c' = c
    · subst same
      rw [here]
      cases side with
      | true =>
          have old := inv.reserves c' true
          have new := moved.yes_le
          simp only [Pool.reserve, if_true] at old ⊢
          omega
      | false =>
          have old := inv.reserves c' false
          have new := moved.no_le
          simp only [Pool.reserve, Bool.false_eq_true, if_false] at old ⊢
          omega
    · rw [elsewhere c' same]
      exact (inv.reserves c' side).trans (moved.others c' same side)
  · have unchanged : ∀ c', c' ≠ c → (next.amm.pools c').lpFees = (m.amm.pools c').lpFees :=
      fun c' other => by rw [elsewhere c' other]
    have totals := total_le_of_change c unchanged (v := u) (by rw [here]; exact fees)
    have old := inv.fees
    have new := moved.cash_le
    omega

/-- Storage other than the pools does not matter. -/
theorem Solvent.same_pools (inv : Solvent site m) {amm : MarketAMM}
    (pools : amm.pools = m.amm.pools) : Solvent site { m with amm } :=
  ⟨inv.custody, by rw [pools]; exact inv.reserves, by rw [pools]; exact inv.fees⟩

/-! ### The entry points -/

theorem Solvent.seed {provider : Address} (inv : Solvent site m)
    (outsider : msg.sender ≠ site.self)
    (done : seed site m msg c amount provider = .ok next) : Solvent site next := by
  simp only [MarketAMM.seed, bind_ok, require_ok, mulDiv_ok, pure_ok, exists_const] at done
  obtain ⟨-, -, -, -, -, oracle, -, close, -, -, paid, pulled, split, locked, liquidity, -,
    rfl⟩ := done
  have received := pullUsdc_shift (c := c) outsider pulled
  have issued := splitPosition_shift (received.custody inv.custody) locked
  refine inv.update (received.trans issued) rfl ?_ ?_ ?_ <;> simp only <;> omega

/-- A buy leaves the trade as complete sets, gives up what it pays out and keeps the
fee of the providers. -/
theorem Solvent.buyWithUSDC {buyYes : Bool} {usdcIn minOut out : Nat}
    (inv : Solvent site m) (outsider : msg.sender ≠ site.self)
    (done : buyWithUSDC site m msg c buyYes usdcIn minOut = .ok (out, next)) :
    Solvent site next := by
  simp only [MarketAMM.buyWithUSDC, bind_ok, require_ok, uadd_ok, usub_ok, pure_ok,
    Prod.mk.injEq, exists_const] at done
  obtain ⟨-, -, _, -, q, quoted, -, _, ⟨-, rfl⟩, _, ⟨-, rfl⟩, _, ⟨-, rfl⟩, t1, pulled, t2,
    vaulted, t3, split, t4, paid, rfl, rfl⟩ := done
  obtain ⟨-, -, -, dust, moved, -, paidOut⟩ := buyQuote_spec quoted
  have lower := buyReserves_le moved
  obtain ⟨-, upper, -⟩ := buyReserves_spec moved
  have received := pullUsdc_shift (c := c) outsider pulled
  have vault := received.trans (sendUsdc_shift vaulted)
  have sets := vault.trans (splitPosition_shift (vault.custody inv.custody) split)
  refine inv.update (sets.trans (sendTokens_shift paid)) rfl ?_ ?_ ?_
  · cases buyYes <;> simp [Pool.reserve, BuyQuote.reserve] at lower upper paidOut ⊢ <;> omega
  · cases buyYes <;> simp [Pool.reserve, BuyQuote.reserve] at lower upper paidOut ⊢ <;> omega
  · simp only
    omega

/-- A sell takes in the tokens, merges its sets out of both reserves and keeps the fee
of the providers. -/
theorem Solvent.sellToUSDC {sellYes : Bool} {tokenAmount minUsdc out : Nat}
    (inv : Solvent site m) (outsider : msg.sender ≠ site.self)
    (done : sellToUSDC site m msg c sellYes tokenAmount minUsdc = .ok (out, next)) :
    Solvent site next := by
  simp only [MarketAMM.sellToUSDC, bind_ok, require_ok, uadd_ok, pure_ok,
    Prod.mk.injEq, exists_const] at done
  obtain ⟨-, -, _, -, q, quoted, -, _, ⟨-, rfl⟩, t1, pulled, t2, merged, t3, vaulted, t4,
    paid, rfl, rfl⟩ := done
  obtain ⟨-, moved, -, -, dust, paidOut⟩ := sellQuote_spec quoted
  obtain ⟨-, _, _, _, sp, _, gw, _, -, -, -, -, -, -, room, sets, other, same⟩ :=
    sellReserves_spec moved
  have tokens := (pullTokens_shift outsider pulled).trans (mergePositions_shift merged)
  have cashed := (tokens.trans (sendUsdc_shift vaulted)).trans (sendUsdc_shift paid)
  refine inv.update cashed rfl ?_ ?_ ?_
  · cases sellYes <;> simp [Pool.reserve, SellQuote.reserve] at room sets other same ⊢ <;>
      omega
  · cases sellYes <;> simp [Pool.reserve, SellQuote.reserve] at room sets other same ⊢ <;>
      omega
  · simp only
    omega

/-- A deposit keeps its share of both outcomes; the sets it splits cover both legs
because each reserve is at most the longer one. -/
theorem Solvent.addLiquidity {usdcAmount minLpOut minted : Nat} (inv : Solvent site m)
    (outsider : msg.sender ≠ site.self)
    (done : addLiquidity site m msg c usdcAmount minLpOut = .ok (minted, next)) :
    Solvent site next := by
  simp only [MarketAMM.addLiquidity, bind_ok, require_ok, credit_ok, pure_ok,
    Prod.mk.injEq, exists_const] at done
  obtain ⟨-, -, -, _, -, d, planned, _, ⟨-, rfl⟩, t1, pulled, t2, split, t3, long, t4, short,
    rfl, rfl⟩ := done
  obtain ⟨denom, -, -, -, -, -, -, -, -, whole, pool⟩ := deposit_spec planned
  obtain ⟨longCovered, shortCovered⟩ := deposit_covers planned
  have received := pullUsdc_shift (c := c) outsider pulled
  have issued := received.trans (splitPosition_shift (received.custody inv.custody) split)
  have refundedYes : Shift site c t2 t3 0 (-((d.sets - d.dx : Nat) : Int)) 0 :=
    callWhen_shift long (fun sent => by simpa using sendTokens_shift sent) (by omega)
  have refundedNo : Shift site c t3 t4 0 0 (-((d.sets - d.dy : Nat) : Int)) :=
    callWhen_shift short (fun sent => by simpa using sendTokens_shift sent) (by omega)
  refine inv.update ((issued.trans refundedYes).trans refundedNo) rfl ?_ ?_ ?_ <;>
    simp only [pool] <;> omega

/-- A withdrawal pays out what it takes from the pool, as sets before resolution and as
tokens after it. -/
theorem Solvent.removeLiquidity {lpAmount out : Nat} (inv : Solvent site m)
    (done : removeLiquidity site m msg c lpAmount = .ok (out, next)) : Solvent site next := by
  simp only [MarketAMM.removeLiquidity, bind_ok, require_ok, uadd_ok, usub_ok, debit_ok,
    pure_ok, Prod.mk.injEq, exists_const] at done
  obtain ⟨-, -, _, ⟨-, rfl⟩, -, _, ⟨-, rfl⟩, -, d, planned, _, ⟨-, rfl⟩, t1, merged, _,
    ⟨-, rfl⟩, _, ⟨yesPart, rfl⟩, _, ⟨noPart, rfl⟩, t2, long, t3, short, t4, cashed, rfl,
    rfl⟩ := done
  obtain ⟨-, -, -, -, -, yes, no, fees, pool⟩ := withdrawal_spec planned
  generalize (if m.tokens.ctf.isResolved c = true then 0 else min d.dx d.dy) = sets at *
  have sets' : Shift site c m.tokens t1 sets (-sets) (-sets) :=
    callWhen_shift merged mergePositions_shift (by omega)
  have paidYes : Shift site c t1 t2 0 (-((d.dx - sets : Nat) : Int)) 0 :=
    callWhen_shift long (fun sent => by simpa using sendTokens_shift sent) (by omega)
  have paidNo : Shift site c t2 t3 0 0 (-((d.dy - sets : Nat) : Int)) :=
    callWhen_shift short (fun sent => by simpa using sendTokens_shift sent) (by omega)
  have paid : Shift site c t3 t4 (-((d.df + sets : Nat) : Int)) 0 0 :=
    callWhen_shift cashed sendUsdc_shift (by omega)
  refine inv.update (((sets'.trans paidYes).trans paidNo).trans paid) rfl ?_ ?_ ?_ <;>
    simp only [pool] <;> omega

/-- Every entry point of the pool contract keeps it solvent. -/
theorem Solvent.exec {tx : Tx} (inv : Solvent site m) (outsider : msg.sender ≠ site.self)
    (done : exec site m msg tx = .ok next) : Solvent site next := by
  cases tx with
  | setFactory factory =>
      simp only [MarketAMM.exec, MarketAMM.setFactory, bind_ok, require_ok, pure_ok,
        exists_const] at done
      obtain ⟨amm, ⟨-, rfl⟩, rfl⟩ := done
      exact inv.same_pools rfl
  | setCloseGate enabled =>
      simp only [MarketAMM.exec, MarketAMM.setCloseGate, bind_ok, require_ok, pure_ok,
        exists_const] at done
      obtain ⟨amm, ⟨-, rfl⟩, rfl⟩ := done
      exact inv.same_pools rfl
  | seedPool c usdcAmount => exact inv.seed outsider done
  | seedPoolFor c usdcAmount provider => exact inv.seed outsider done
  | buyWithUSDC c buyYes usdcIn minOut =>
      simp only [MarketAMM.exec, bind_ok, pure_ok] at done
      obtain ⟨⟨out, m'⟩, done, rfl⟩ := done
      exact inv.buyWithUSDC outsider done
  | sellToUSDC c sellYes tokenAmount minUsdc =>
      simp only [MarketAMM.exec, bind_ok, pure_ok] at done
      obtain ⟨⟨out, m'⟩, done, rfl⟩ := done
      exact inv.sellToUSDC outsider done
  | addLiquidity c usdcAmount minLpOut =>
      simp only [MarketAMM.exec, bind_ok, pure_ok] at done
      obtain ⟨⟨minted, m'⟩, done, rfl⟩ := done
      exact inv.addLiquidity outsider done
  | removeLiquidity c lpAmount =>
      simp only [MarketAMM.exec, bind_ok, pure_ok] at done
      obtain ⟨⟨out, m'⟩, done, rfl⟩ := done
      exact inv.removeLiquidity done

/-- Nobody else can take what the pool contract holds. -/
theorem Solvent.tokens_step {tx : Tokens.Tx} {sender : Address} (inv : Solvent site m)
    (outsider : sender ≠ site.self) (notCtf : sender ≠ site.ctf.self)
    (done : Tokens.exec site.ctf m.tokens sender tx = .ok after) :
    Solvent site { m with tokens := after } := by
  cases tx with
  | ctf tx =>
      obtain ⟨positions, approvals, balance, allowances⟩ :=
        ConditionalTokens.exec_keeps_holder outsider site.apart.symm
          (inv.custody.unapproved sender) done
      exact ⟨⟨(allowances _).trans inv.custody.unlimited,
        fun s other => (allowances s).trans (inv.custody.barred s other),
        fun op => (approvals op).trans (inv.custody.unapproved op)⟩,
        fun c yes => (inv.reserves c yes).trans (positions _), inv.fees.trans balance⟩
  | usdc tx =>
      simp only [Tokens.exec, bind_ok, pure_ok] at done
      obtain ⟨usdc, done, rfl⟩ := done
      obtain ⟨balance, allowances⟩ := MockUSDC.exec_keeps_balance outsider
        (inv.custody.barred sender notCtf) done
      exact ⟨⟨(allowances _).trans inv.custody.unlimited,
        fun s other => (allowances s).trans (inv.custody.barred s other),
        inv.custody.unapproved⟩, inv.reserves, inv.fees.trans balance⟩

end MarketAMM

open MarketAMM

variable {site : AmmSite} {m next : Market}

/-- The pool contract was just deployed at an address that had approved nobody. -/
structure Market.Initial (site : AmmSite) (m : Market) : Prop where
  deployed : ∃ tokens feeVault operator,
    (∀ s, tokens.usdc.allowance (site.self, s) = 0) ∧
      (∀ op, tokens.ctf.isApprovedForAll (site.self, op) = false) ∧
      MarketAMM.deploy site tokens feeVault operator = .ok m

theorem initially_solvent (initial : Market.Initial site m) : Solvent site m := by
  obtain ⟨tokens, feeVault, operator, barred, unapproved, done⟩ := initial.deployed
  simp only [deploy, bind_ok, require_ok, pure_ok, exists_const] at done
  obtain ⟨-, rfl⟩ := done
  refine ⟨⟨Function.update_self _ _ _, fun s other => ?_, unapproved⟩, fun c yes => ?_, ?_⟩
  · have apart : (site.self, s) ≠ (site.self, site.ctf.self) :=
      fun same => other (congrArg Prod.snd same)
    exact (Function.update_of_ne apart _ _).trans (barred s)
  · cases yes <;> exact Nat.zero_le _
  · exact (total_zero fun _ => rfl).trans_le (Nat.zero_le _)

theorem MarketAMM.Solvent.step (inv : Solvent site m) (taken : Market.Step site m next) :
    Solvent site next := by
  obtain ⟨action, ⟨outsider, notCtf⟩, done⟩ := taken
  cases action with
  | amm msg tx => exact inv.exec outsider done
  | tokens sender tx =>
      simp only [Market.perform, bind_ok, pure_ok] at done
      obtain ⟨tokens, done, rfl⟩ := done
      exact inv.tokens_step outsider notCtf done

theorem reachable_solvent
    (reached : Reachable (Market.Initial site) (Market.Step site) m) : Solvent site m :=
  reached.invariant (fun _ => initially_solvent) (fun _ _ inv => inv.step)

/-- In every reachable state the pool contract holds the reserves of every pool and the
fees of all pools together. -/
theorem market_solvent (reached : Reachable (Market.Initial site) (Market.Step site) m) :
    (∀ c, (m.amm.pools c).yesReserve ≤ m.tokens.ctf.balanceOf (site.self, pid site c true) ∧
      (m.amm.pools c).noReserve ≤ m.tokens.ctf.balanceOf (site.self, pid site c false)) ∧
    total (fun c => (m.amm.pools c).lpFees) ≤ m.tokens.usdc.balanceOf site.self := by
  have inv := reachable_solvent reached
  exact ⟨fun c => ⟨inv.reserves c true, inv.reserves c false⟩, inv.fees⟩

/-- A site for concrete runs. -/
def AmmSite.sample : AmmSite := ⟨8, ⟨9, .paired⟩, by decide⟩

/-- A call whose factory and oracle know every condition. -/
def Msg.sample (sender : Address) : Msg := ⟨sender, 5, fun _ => .ok 6, fun _ _ => .ok 100⟩

/-- The pool contract over fresh token contracts, operated by account 5. -/
def Market.sample : Market where
  tokens := {
    usdc := MockUSDC.deployed.approve 8 9 MockUSDC.maxAllowance
    ctf := .deployed }
  amm := {
    feeVault := 4
    operator := 5
    factory := zeroAddress
    pools := fun _ => Pool.empty
    lpBalance := fun _ => 0
    closeGate := true
    seedLocked := fun _ => 0 }

theorem Market.sample_initial : Market.Initial .sample .sample :=
  ⟨⟨.deployed, .deployed⟩, 4, 5, fun _ => rfl, fun _ => rfl, rfl⟩

/-- Listing condition 7 with a seed of the operator. -/
def Market.sampleListing (seed : Nat) : List Market.Action :=
  [.tokens 5 (.usdc (.faucet (2 * seed))), .tokens 5 (.usdc (.approve 8 (2 * seed))),
    .tokens 5 (.ctf (.prepareCondition 5 7)), .amm (.sample 5) (.setFactory 3),
    .amm (.sample 5) (.seedPool 7 seed)]

/-- A list of calls that all succeed leads to a reachable state. -/
theorem Market.sample_reachable {actions : List Market.Action}
    (external : ∀ action ∈ actions, action.External .sample)
    (done : actions.foldlM (Market.perform .sample) .sample = .ok m) :
    Reachable (Market.Initial .sample) (Market.Step .sample) m :=
  Reachable.execute (fun _ action _ => Market.Step.call action) external
    (.start sample_initial) done

/-- The theorem after a seed and a purchase on a market that is still open. -/
theorem market_solvent_after_buy :
    ∃ m : Market,
      ((m.amm.pools 7).yesReserve ≤ m.tokens.ctf.balanceOf (8, pid .sample 7 true) ∧
        (m.amm.pools 7).noReserve ≤ m.tokens.ctf.balanceOf (8, pid .sample 7 false)) ∧
      total (fun c => (m.amm.pools c).lpFees) ≤ m.tokens.usdc.balanceOf 8 := by
  let actions := Market.sampleListing 20000 ++
    [.amm (.sample 5) (.buyWithUSDC 7 true 1000 0)]
  obtain ⟨m, done⟩ : ∃ m, actions.foldlM (Market.perform .sample) .sample = .ok m :=
    ok_of_isOk (by decide +kernel)
  have books := market_solvent (Market.sample_reachable (by decide) done)
  exact ⟨m, books.1 7, books.2⟩

end OverUnder.Contracts
