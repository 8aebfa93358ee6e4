/-
Module: OverUnder.Proofs.Migration
Purpose: The migration to the second version fails safely: whichever read gets no answer and
  whichever transaction is not mined, nothing is sent before the checks have passed, the
  progress names what landed, the oracle is on the legacy factory or on a new one that is
  ready, a migration that switched it is not repeated, and one that ends has copied the rows.
Trusted boundary: none
Main exports: Ends, Quiet, RawCid.value, normalizeCids_value, describe, Passed, Switched, Rows,
  Outcome, migration_cuts_over
-/
import OverUnder.Library.Endings
import OverUnder.Proofs.FactoryRows
import OverUnder.Proofs.MarketCreation
import OverUnder.Scripts.DeployV2

namespace OverUnder.Scripts.DeployV2

open OverUnder.Vyper OverUnder.Contracts OverUnder.Library
open OverUnder.Oracles.Winner (strip)

/-! ### Runs of the script -/

section Runs

variable {site : PlatformSite} {operator : Address} {α β : Type} {s t : Chain}
  {p : Script α} {f : α → Script β} {post Q : Except Exc α → Chain → Prop}

/-- However the chain answers, the script ends with the condition. -/
def Ends (site : PlatformSite) (operator : Address) (p : Script α) (s : Chain)
    (post : Except Exc α → Chain → Prop) : Prop :=
  Safe (operatorOnly site operator) (fun _ _ => True) p post s

theorem later_eq (later : (operatorOnly site operator).Later s t) : t = s := by
  induction later with
  | refl => rfl
  | tail _ moved _ => exact moved.elim

namespace Ends

theorem pure {a : α} (holds : post (.ok a) s) : Ends site operator (Pure.pure a) s post :=
  Safe.pure fun _ later _ => later_eq later ▸ holds

theorem raise {e : Exc} (holds : post (.error e) s) :
    Ends site operator (Program.raise e) s post :=
  Safe.raise fun _ later _ => later_eq later ▸ holds

theorem bind {post : Except Exc β → Chain → Prop} (first : Ends site operator p s Q)
    (good : ∀ a t, Q (.ok a) t → Ends site operator (f a) t post)
    (bad : ∀ e t, Q (.error e) t → post (.error e) t) :
    Ends site operator (p >>= f) s post := by
  refine Safe.bind (Safe.mono first fun r t holds => ?_)
  cases r with
  | ok a => exact good a t holds
  | error e => exact fun u later _ => later_eq later ▸ bad e t holds

theorem perform {op : Op} {post : Except Exc (Answer op) → Chain → Prop}
    (holds : ∀ r t, (operatorOnly site operator).answers op s r t → post r t) :
    Ends site operator (Program.perform op) s post := by
  refine Safe.perform (fun _ _ _ => trivial) ?_
  intro t r u v before _ answered after _
  rw [later_eq after]
  exact holds r u (later_eq before ▸ answered)

theorem mono (ends : Ends site operator p s Q) (weaker : ∀ r t, Q r t → post r t) :
    Ends site operator p s post := Safe.mono ends weaker

end Ends

/-! ### Code that sends nothing -/

/-- The code leaves the chain and the progress alone and fails at most for a check. -/
def Quiet (site : PlatformSite) (operator : Address) (s : Chain) (p : Script α)
    (P : α → Prop) : Prop :=
  Ends site operator p s fun r t =>
    t = s ∧ (∀ e, r = .error e → e ≠ .unsent) ∧ ∀ a, r = .ok a → P a

namespace Quiet

variable {P : α → Prop} {R : β → Prop}

theorem pure {a : α} (holds : P a) : Quiet site operator s (Pure.pure a) P :=
  Ends.pure ⟨rfl, nofun, fun _ same => Except.ok.inj same ▸ holds⟩

theorem bind (first : Quiet site operator s p P)
    (rest : ∀ a, P a → Quiet site operator s (f a) R) : Quiet site operator s (p >>= f) R := by
  refine Ends.bind first ?_ ?_
  · rintro a t ⟨rfl, -, holds⟩
    exact rest a (holds a rfl)
  · rintro e t ⟨rfl, check, -⟩
    exact ⟨rfl, fun e' same => Except.error.inj same ▸ check e rfl, nofun⟩

theorem raiseIf {condition : Prop} [Decidable condition] {e : Exc} (check : e ≠ .unsent) :
    Quiet site operator s (raiseIf condition e) fun _ => ¬condition := by
  unfold DeployV2.raiseIf
  split
  · exact Ends.raise ⟨rfl, fun e' same => Except.error.inj same ▸ check, nofun⟩
  · next fine => exact pure fine

theorem lift {value : Except Exc α} (check : ∀ e, value = .error e → e ≠ .unsent) :
    Quiet site operator s (lift value) fun a => value = .ok a := by
  intro t later _
  rw [later_eq later]
  exact ⟨rfl, check, fun a same => same⟩

theorem read (a : Address) (getter : Getter) :
    Quiet site operator s (read a getter) fun v =>
      ∃ c, s.contracts a = some c ∧ answer c getter = some v := by
  refine Ends.perform ?_
  rintro r t ⟨rfl, rfl | ⟨c, v, here, answers, rfl⟩⟩
  · exact ⟨rfl, fun e same => Except.error.inj same ▸ nofun, nofun⟩
  · exact ⟨rfl, nofun, fun v' same => Except.ok.inj same ▸ ⟨c, here, answers⟩⟩

theorem probe (a : Address) : Quiet site operator s (probe a) fun v2 =>
    v2 = ((s.contracts a).map answersV2).getD false := by
  refine Ends.perform ?_
  rintro r t ⟨rfl, rfl | rfl⟩
  · exact ⟨rfl, fun e same => Except.error.inj same ▸ nofun, nofun⟩
  · exact ⟨rfl, nofun, fun _ same => (Except.ok.inj same).symm⟩

theorem marketExists (a : Address) (id : Bytes32) :
    Quiet site operator s (marketExists a id) fun listed =>
      ∃ f, s.contracts a = some (.factory f) ∧ listed = f.storage.marketExists id := by
  refine Ends.perform ?_
  rintro r t ⟨rfl, rfl | ⟨f, here, rfl⟩⟩
  · exact ⟨rfl, fun e same => Except.error.inj same ▸ nofun, nofun⟩
  · exact ⟨rfl, nofun, fun _ same => ⟨f, here, (Except.ok.inj same).symm⟩⟩

end Quiet

end Runs

/-! ### Condition ids -/

/-- The word that a condition id stands for, in whatever form it is given. -/
def RawCid.value : RawCid → Option Bytes32
  | .bytes b =>
      if b.length = 32 then some (BitVec.ofNat 256 (b.foldl (fun n x => 256 * n + x.toNat) 0))
      else none
  | .text s => if isCid (strip s) then some (fromHex (strip s)) else none

theorem hexDigit_toLower (c : Char) : hexDigit c.toLower = hexDigit c := by
  have ascii : ∀ n : Fin 128, hexDigit (Char.ofNat n).toLower = hexDigit (Char.ofNat n) := by
    decide
  by_cases small : c.toNat < 128
  · have here := ascii ⟨c.toNat, small⟩
    rwa [Char.ofNat_toNat] at here
  · have upper : c.toLower = c := by
      unfold Char.toLower
      refine dif_neg fun letter => small ?_
      have last : c.toNat ≤ 90 := letter.2
      omega
    rw [upper]

theorem fromHex_lower (s : List Char) : fromHex (s.map Char.toLower) = fromHex s := by
  unfold fromHex
  rw [← List.map_drop, List.foldl_map]
  simp only [hexDigit_toLower]

theorem fromHex_hex (b : List (BitVec 8)) :
    fromHex (hex b) = BitVec.ofNat 256 (b.foldl (fun n x => 256 * n + x.toNat) 0) := by
  have digit : ∀ n : Fin 16, (hexDigit (lowerHex.getD n '0')).getD 0 = n := by decide
  have byte : ∀ n (x : BitVec 8), [lowerHex.getD (x.toNat / 16) '0',
      lowerHex.getD (x.toNat % 16) '0'].foldl (fun n d => 16 * n + (hexDigit d).getD 0) n =
        256 * n + x.toNat := by
    intro n x
    have high := digit ⟨x.toNat / 16, by have := x.isLt; omega⟩
    have low := digit ⟨x.toNat % 16, Nat.mod_lt _ (by decide)⟩
    simp only at high low
    rw [List.foldl_cons, List.foldl_cons, List.foldl_nil, high, low]
    omega
  have bytes : ∀ n, (b.flatMap fun x => [lowerHex.getD (x.toNat / 16) '0',
      lowerHex.getD (x.toNat % 16) '0']).foldl (fun n d => 16 * n + (hexDigit d).getD 0) n =
        b.foldl (fun n x => 256 * n + x.toNat) n := by
    induction b with
    | nil => exact fun n => rfl
    | cons x rest ih =>
        intro n
        rw [List.flatMap_cons, List.foldl_append, byte, ih, List.foldl_cons]
  exact congrArg (BitVec.ofNat 256) (bytes 0)

theorem normalizeCid_value {raw : RawCid} {cid : Cid} (done : normalizeCid raw = .ok cid) :
    raw.value = some (fromHex cid) := by
  cases raw with
  | bytes b =>
      simp only [normalizeCid] at done
      split at done
      · next long =>
          cases done
          rw [RawCid.value, if_pos long, fromHex_hex]
      · cases done
  | text s =>
      simp only [normalizeCid] at done
      split at done
      · next form =>
          cases done
          rw [RawCid.value, if_pos form, fromHex_lower]
      · cases done

/-- The normalised ids stand for the words of the given ones. -/
theorem normalizeFrom_value {out cids : List Cid} {raws : List RawCid}
    (done : normalizeFrom out raws = .ok cids) (id : Bytes32) :
    (∃ cid ∈ cids, fromHex cid = id) ↔
      (∃ cid ∈ out, fromHex cid = id) ∨ ∃ raw ∈ raws, raw.value = some id := by
  induction raws generalizing out with
  | nil =>
      cases done
      simp only [List.not_mem_nil, false_and, exists_false, or_false]
  | cons raw rest ih =>
      rw [normalizeFrom] at done
      cases normal : normalizeCid raw with
      | error e =>
          rw [normal] at done
          cases done
      | ok cid =>
          rw [normal] at done
          have value := normalizeCid_value normal
          have first : (∃ c ∈ if out.contains cid then out else out ++ [cid], fromHex c = id) ↔
              (∃ c ∈ out, fromHex c = id) ∨ fromHex cid = id := by
            split
            · next there =>
                exact ⟨.inl, fun either => either.elim (fun one => one) fun same =>
                  ⟨cid, List.contains_iff_mem.1 there, same⟩⟩
            · simp only [List.mem_append, List.mem_singleton, or_and_right, exists_or,
                exists_eq_left]
          rw [ih done, first, or_assoc]
          refine or_congr_right ?_
          simp only [List.mem_cons, or_and_right, exists_or, exists_eq_left, value,
            Option.some.injEq]

theorem normalizeCids_value {cids : List Cid} {raws : List RawCid}
    (done : normalizeCids raws = .ok cids) (id : Bytes32) :
    (∃ cid ∈ cids, fromHex cid = id) ↔ ∃ raw ∈ raws, raw.value = some id := by
  rw [normalizeFrom_value done]
  simp only [List.not_mem_nil, false_and, exists_false, false_or]

/-! ### The checks -/

section Checks

variable {α β : Type}

/-- A failure of the value is not that of a transaction. -/
def Checks (value : Except Exc α) : Prop := ∀ e, value = .error e → e ≠ .unsent

theorem Checks.ok (a : α) : Checks (.ok a) := nofun

theorem Checks.error {e : Exc} (check : e ≠ .unsent) : Checks (.error e : Except Exc α) :=
  fun _ same => Except.error.inj same ▸ check

theorem Checks.bind {value : Except Exc α} {f : α → Except Exc β} (first : Checks value)
    (rest : ∀ a, Checks (f a)) : Checks (value >>= f) := by
  cases value with
  | ok a => exact rest a
  | error e => exact .error (first e rfl)

theorem checks_refuse {condition : Prop} [Decidable condition] {e : Exc} (check : e ≠ .unsent) :
    Checks (refuse condition e) := by
  unfold refuse
  split
  · exact .error check
  · exact .ok ()

theorem checks_listingValue (key : String) (value : Option Int) (default : Nat) :
    Checks (listingValue key value default) := by
  unfold listingValue
  split
  · exact .ok _
  · split
    · exact .error nofun
    · exact .ok _

theorem checks_listingArgs (listing : Listing) (feeVault : Address) :
    Checks (listingArgs listing feeVault) := by
  refine (checks_refuse (by nofun)).bind fun _ => ?_
  refine (checks_listingValue _ _ _).bind fun _ => ?_
  refine (checks_listingValue _ _ _).bind fun _ => ?_
  refine (checks_listingValue _ _ _).bind fun _ => ?_
  refine (checks_listingValue _ _ _).bind fun _ => ?_
  refine (checks_listingValue _ _ _).bind fun _ => ?_
  refine Checks.bind ?_ fun _ => ?_
  · unfold recipient
    split
    · exact .ok _
    · exact .ok _
    · exact .error nofun
  refine (checks_refuse (by nofun)).bind fun _ => ?_
  refine (checks_refuse (by nofun)).bind fun _ => ?_
  refine (checks_refuse (by nofun)).bind fun _ => ?_
  refine (checks_refuse (by nofun)).bind fun _ => ?_
  exact .ok _

theorem checks_normalizeCids (raws : List RawCid) : Checks (normalizeCids raws) := by
  have loop : ∀ out, Checks (normalizeFrom out raws) := by
    induction raws with
    | nil => exact fun out => .ok out
    | cons raw rest ih =>
        intro out
        refine Checks.bind ?_ fun cid => ih _
        cases raw with
        | bytes b =>
            rw [normalizeCid]
            split
            · exact .ok _
            · exact .error nofun
        | text s =>
            rw [normalizeCid]
            split
            · exact .ok _
            · exact .error nofun
  exact loop []

theorem checks_entry (key : String) (value : Option Address) : Checks (entry key value) := by
  cases value with
  | some a => exact .ok a
  | none => exact .error nofun

theorem entry_ok {key : String} {value : Option Address} {a : Address}
    (done : entry key value = .ok a) : value = some a := by
  cases value with
  | some b => exact congrArg some (Except.ok.inj done)
  | none => cases done

end Checks

/-- What is true of the chain when the checks have passed: `f` is the legacy factory with its pool
contract and `x` the oracle. -/
structure Passed (args : Args) (contracts : Contracts) (c : Checked) (f : Factory)
    (x : ConsensusOracle) : Prop where
  deployments : args.deployments.marketFactory = some c.legacyFactory
  deployedAMM : args.deployments.marketAMM = some c.legacyAMM
  unrecorded : args.deployments.marketFactoryLegacy = none ∧ args.deployments.marketAMMLegacy = none
  legacy : contracts c.legacyFactory = some (.factory f)
  ctf : f.ctf = c.ctf
  oracle : f.oracle = c.oracle
  usdc : f.usdc = c.usdc
  generator : f.storage.wildcardGenerator = c.generator
  pool : ∃ y, contracts c.legacyAMM = some (.amm y) ∧ y.storage.feeVault = c.feeVault ∧
    (args.allowV2Source = true ∨ f.isV2 = false ∧ y.isV2 = false)
  factoryOperator : f.storage.operator = args.operator
  matched : f.amm = c.legacyAMM
  court : contracts c.oracle = some (.oracle x)
  operator : x.operator = args.operator
  wired : x.factory = c.legacyFactory
  config : listingArgs args.listing c.feeVault = .ok c.config
  importable : ∃ cids, normalizeCids args.legacyCids = .ok cids ∧
    c.importable = cids.filter fun cid => f.storage.marketExists (fromHex cid)

section Check

variable {site : PlatformSite} {operator : Address} {args : Args} {s : Chain}

theorem known_quiet {a : Address} {f : Factory} (here : s.contracts a = some (.factory f))
    (cids : List Cid) : Quiet site operator s (known a cids) fun found =>
      found = cids.filter fun cid => f.storage.marketExists (fromHex cid) := by
  induction cids with
  | nil => exact .pure rfl
  | cons cid rest ih =>
      refine (Quiet.marketExists a (fromHex cid)).bind ?_
      rintro listed ⟨f', here', rfl⟩
      rw [here, Option.some.injEq, Contract.factory.injEq] at here'
      subst here'
      refine ih.bind ?_
      rintro others rfl
      refine .pure ?_
      rw [List.filter_cons]

/-- A pair of the first version, unless the second is allowed. -/
theorem refuseV2_quiet (a b : Address) :
    Quiet site operator s (refuseV2 args a b) fun _ => args.allowV2Source = true ∨
      ((s.contracts a).map answersV2).getD false = false ∧
        ((s.contracts b).map answersV2).getD false = false := by
  unfold refuseV2
  split
  · next allowed => exact .pure (.inl allowed)
  · refine (Quiet.probe a).bind fun factoryV2 reads => ?_
    refine (Quiet.raiseIf (by nofun)).bind fun _ first => ?_
    refine (Quiet.probe b).bind fun ammV2 reads' => ?_
    refine Ends.mono (Quiet.raiseIf (by nofun)) fun r u holds => ⟨holds.1, holds.2.1, ?_⟩
    intro value ended
    have second := holds.2.2 value ended
    rw [reads, Bool.not_eq_true] at first
    rw [reads', Bool.not_eq_true] at second
    exact .inr ⟨first, second⟩

/-- What a contract answers when it is known which one it is. -/
theorem answer_of_reads {a v : Address} {k : Contract} {getter : Getter}
    (here : s.contracts a = some k)
    (reads : ∃ c, s.contracts a = some c ∧ answer c getter = some v) :
    answer k getter = some v := by
  obtain ⟨c, there, answered⟩ := reads
  rw [here, Option.some.injEq] at there
  exact there ▸ answered

/-- Only a pool contract answers `feeVault()`. -/
theorem amm_of_feeVault {a v : Address}
    (reads : ∃ c, s.contracts a = some c ∧ answer c .feeVault = some v) :
    ∃ y, s.contracts a = some (.amm y) ∧ y.storage.feeVault = v := by
  obtain ⟨k, here, answered⟩ := reads
  cases k with
  | amm y => exact ⟨y, here, Option.some.inj answered⟩
  | _ => cases answered

theorem check_quiet : Quiet site operator s (check args) fun c =>
    ∃ f x, Passed args s.contracts c f x := by
  unfold check
  refine (Quiet.raiseIf (by nofun)).bind fun _ fresh => ?_
  refine (Quiet.lift (checks_entry _ _)).bind fun legacyFactory recorded => ?_
  refine (Quiet.lift (checks_entry _ _)).bind fun legacyAMM recordedAMM => ?_
  refine (Quiet.lift (checks_normalizeCids _)).bind fun cids normal => ?_
  refine (Quiet.read _ _).bind fun ctf reads_ctf => ?_
  refine (Quiet.read _ _).bind fun oracle legacy_oracle => ?_
  refine (Quiet.read _ _).bind fun usdc reads_usdc => ?_
  refine (Quiet.read _ _).bind fun generator reads_generator => ?_
  refine (Quiet.read _ _).bind fun feeVault reads_feeVault => ?_
  refine (refuseV2_quiet _ _).bind fun _ firstVersion => ?_
  refine (Quiet.read _ _).bind fun factoryOperator reads_operator => ?_
  refine (Quiet.raiseIf (by nofun)).bind fun _ same_operator => ?_
  refine (Quiet.read _ _).bind fun oracleOperator owner => ?_
  refine (Quiet.raiseIf (by nofun)).bind fun _ same_owner => ?_
  refine (Quiet.read _ _).bind fun amm reads_amm => ?_
  refine (Quiet.raiseIf (by nofun)).bind fun _ same_amm => ?_
  refine (Quiet.read _ _).bind fun factory wired => ?_
  refine (Quiet.raiseIf (by nofun)).bind fun _ same_factory => ?_
  refine (Quiet.lift (checks_listingArgs _ _)).bind fun config listing => ?_
  obtain ⟨k, legacy, answered⟩ := legacy_oracle
  cases k with
  | factory f =>
      refine (known_quiet legacy cids).bind ?_
      rintro importable rfl
      obtain ⟨k', court, answered'⟩ := wired
      cases k' with
      | oracle x =>
          obtain ⟨y, pool, vault⟩ := amm_of_feeVault reads_feeVault
          rw [legacy, pool] at firstVersion
          rw [not_or, Bool.not_eq_true, Bool.not_eq_true, Option.isSome_eq_false_iff,
            Option.isSome_eq_false_iff, Option.isNone_iff_eq_none, Option.isNone_iff_eq_none]
            at fresh
          exact .pure ⟨f, x, {
            deployments := entry_ok recorded
            deployedAMM := entry_ok recordedAMM
            unrecorded := fresh
            legacy := legacy
            ctf := Option.some.inj (answer_of_reads legacy reads_ctf)
            oracle := Option.some.inj answered
            usdc := Option.some.inj (answer_of_reads legacy reads_usdc)
            generator := Option.some.inj (answer_of_reads legacy reads_generator)
            pool := ⟨y, pool, vault, firstVersion⟩
            factoryOperator := (Option.some.inj (answer_of_reads legacy reads_operator)).trans
              (not_not.1 same_operator)
            matched :=
              (Option.some.inj (answer_of_reads legacy reads_amm)).trans (not_not.1 same_amm)
            court := court
            operator := (Option.some.inj (answer_of_reads court owner)).trans (not_not.1 same_owner)
            wired := (Option.some.inj answered').trans (not_not.1 same_factory)
            config := listing
            importable := ⟨cids, normal, rfl⟩ }⟩
      | _ => cases answered'
  | _ => cases answered

end Check

/-! ### What landed, and the steps that name it -/

/-- The step that names a transaction, when `i` rows have been imported before it. -/
def Tx.step (i : Nat) : Tx → String
  | .deployMarketAMM .. => "deploy MarketAMM"
  | .deployMarketFactory .. => "deploy MarketFactory"
  | .ammSetFactory .. => "amm.setFactory"
  | .ammSetCloseGate .. => "amm.setCloseGate"
  | .setListingConfig .. => "factory.setListingConfig"
  | .setPermissionless .. => "factory.setPermissionless"
  | .oracleSetFactory .. => "oracle.setFactory"
  | .importLegacyMarkets _ _ ids => importStep i ids.length

/-- The rows that a transaction imports. -/
def Tx.rows : Tx → Nat
  | .importLegacyMarkets _ _ ids => ids.length
  | _ => 0

/-- The steps that name the transactions. -/
def describe : Nat → List Tx → List String
  | _, [] => []
  | i, tx :: rest => tx.step i :: describe (i + tx.rows) rest

theorem describe_append (i : Nat) (landed : List Tx) (tx : Tx) :
    describe i (landed ++ [tx]) =
      describe i landed ++ [tx.step (i + (landed.map Tx.rows).sum)] := by
  induction landed generalizing i with
  | nil => rfl
  | cons first rest ih =>
      rw [List.cons_append, describe, ih, describe, List.map_cons, List.sum_cons, Nat.add_assoc]
      rfl

/-- The progress names what landed, `i` rows of the import among it. -/
structure Named (i : Nat) (s : Chain) : Prop where
  steps : s.progress.steps = describe 0 s.landed
  rows : (s.landed.map Tx.rows).sum = i

/-- The chain after a transaction that was mined, and after one that was not. -/
def Chain.mined (s : Chain) (contracts : Contracts) (tx : Tx) : Chain :=
  { s with contracts, sent := s.sent + 1, landed := s.landed ++ [tx] }

def Chain.lost (s : Chain) : Chain := { s with sent := s.sent + 1 }

def Chain.noted (s : Chain) (change : Progress → Progress) : Chain :=
  { s with progress := change s.progress }

theorem Named.after {i : Nat} {s : Chain} (named : Named i s) (contracts : Contracts) (tx : Tx)
    (change : Progress → Progress)
    (step : (change s.progress).steps = s.progress.steps ++ [tx.step i]) :
    Named (i + tx.rows) ((s.mined contracts tx).noted change) := by
  constructor
  · change (change s.progress).steps = describe 0 (s.landed ++ [tx])
    rw [step, describe_append, named.steps, named.rows, Nat.zero_add]
  · change ((s.landed ++ [tx]).map Tx.rows).sum = _
    rw [List.map_append, List.sum_append, named.rows]
    rfl

theorem Named.lost {i : Nat} {s : Chain} (named : Named i s) : Named i s.lost :=
  ⟨named.steps, named.rows⟩

namespace Ends

variable {site : PlatformSite} {operator : Address} {β : Type} {s : Chain}
  {post : Except Exc β → Chain → Prop}

theorem send {tx : Tx} {f : Address → Script β} (lost : post (.error .unsent) s.lost)
    (landed : ∀ created contracts, execute site operator s.contracts created tx = .ok contracts →
      Ends site operator (f created) (s.mined contracts tx) post) :
    Ends site operator (send tx >>= f) s post := by
  refine Ends.bind (Q := fun r t => (r = .error .unsent ∧ t = s.lost) ∨
    ∃ created contracts, execute site operator s.contracts created tx = .ok contracts ∧
      r = .ok created ∧ t = s.mined contracts tx) (Ends.perform fun r t answered => answered) ?_ ?_
  · rintro a t (⟨fail, -⟩ | ⟨created, contracts, done, same, rfl⟩)
    · cases fail
    · cases same
      exact landed a contracts done
  · rintro e t (⟨same, rfl⟩ | ⟨_, _, -, same, -⟩)
    · cases same
      exact lost
    · cases same

theorem record {change : Progress → Progress} {f : Unit → Script β}
    (rest : Ends site operator (f ()) (s.noted change) post) :
    Ends site operator (record change >>= f) s post := by
  refine Ends.bind (Q := fun r t => r = .ok () ∧ t = s.noted change)
    (Ends.perform fun r t answered => answered) ?_ ?_
  · rintro ⟨⟩ t ⟨-, rfl⟩
    exact rest
  · rintro e t ⟨same, -⟩
    cases same

theorem blockNumber {f : Nat → Script β} (rest : ∀ n, Ends site operator (f n) s post) :
    Ends site operator (blockNumber >>= f) s post := by
  refine Ends.bind (Q := fun r t => t = s ∧ ∃ n : Nat, r = .ok n)
    (Ends.perform fun r t answered => answered) ?_ ?_
  · rintro n t ⟨rfl, -⟩
    exact rest n
  · rintro e t ⟨-, n, same⟩
    cases same

theorem transact {tx : Tx} {step : String} {f : Unit → Script β}
    (lost : post (.error .unsent) s.lost)
    (landed : ∀ created contracts, execute site operator s.contracts created tx = .ok contracts →
      Ends site operator (f ()) ((s.mined contracts tx).noted (append step)) post) :
    Ends site operator (transact tx step >>= f) s post := by
  unfold DeployV2.transact
  rw [Program.bind_assoc]
  exact send lost fun created contracts done => record (landed created contracts done)

end Ends

/-! ### The contracts of the migration -/

/-- The legacy factory, the oracle and the new pair; `y` is the oracle's storage. -/
structure Wiring (c : Checked) (f : Factory) (y : ConsensusOracle) (a b : Address)
    (amm : MarketAMM) (fac : MarketFactory) (contracts : Contracts) : Prop where
  legacy : contracts c.legacyFactory = some (.factory f)
  court : contracts c.oracle = some (.oracle y)
  amm : contracts a = some (.amm ⟨true, amm⟩)
  factory : contracts b = some (.factory ⟨true, c.ctf, c.oracle, a, c.usdc, fac⟩)
  apart : b ≠ c.legacyFactory

theorem ne_of_contracts {contracts : Contracts} {a b : Address} {k l : Contract}
    (first : contracts a = some k) (second : contracts b = some l) (differ : k ≠ l) : a ≠ b := by
  rintro rfl
  exact differ (Option.some.inj (first.symm.trans second))

namespace Wiring

variable {c : Checked} {f : Factory} {y : ConsensusOracle} {a b : Address} {amm : MarketAMM}
  {fac : MarketFactory} {contracts contracts' : Contracts}

theorem onAMM (wiring : Wiring c f y a b amm fac contracts)
    {change : MarketAMM → Call MarketAMM} (done : onAMM contracts a change = .ok contracts') :
    ∃ amm', change amm = .ok amm' ∧ Wiring c f y a b amm' fac contracts' := by
  simp only [DeployV2.onAMM, wiring.amm, bind_ok, pure_ok] at done
  obtain ⟨amm', changed, rfl⟩ := done
  refine ⟨amm', changed, ?_, ?_, Function.update_self .., ?_, wiring.apart⟩
  · rw [Function.update_of_ne (ne_of_contracts wiring.legacy wiring.amm (by rintro ⟨⟩))]
    exact wiring.legacy
  · rw [Function.update_of_ne (ne_of_contracts wiring.court wiring.amm (by rintro ⟨⟩))]
    exact wiring.court
  · rw [Function.update_of_ne (ne_of_contracts wiring.factory wiring.amm (by rintro ⟨⟩))]
    exact wiring.factory

theorem onFactory (wiring : Wiring c f y a b amm fac contracts)
    {change : MarketFactory → Call MarketFactory}
    (done : onFactory contracts b change = .ok contracts') :
    ∃ fac', change fac = .ok fac' ∧ Wiring c f y a b amm fac' contracts' := by
  simp only [DeployV2.onFactory, wiring.factory, bind_ok, pure_ok] at done
  obtain ⟨fac', changed, rfl⟩ := done
  refine ⟨fac', changed, ?_, ?_, ?_, Function.update_self .., wiring.apart⟩
  · rw [Function.update_of_ne wiring.apart.symm]
    exact wiring.legacy
  · rw [Function.update_of_ne (ne_of_contracts wiring.court wiring.factory (by rintro ⟨⟩))]
    exact wiring.court
  · rw [Function.update_of_ne (ne_of_contracts wiring.amm wiring.factory (by rintro ⟨⟩))]
    exact wiring.amm

theorem onOracle (wiring : Wiring c f y a b amm fac contracts)
    {change : ConsensusOracle → Call ConsensusOracle}
    (done : onOracle contracts c.oracle change = .ok contracts') :
    ∃ y', change y = .ok y' ∧ Wiring c f y' a b amm fac contracts' := by
  simp only [DeployV2.onOracle, wiring.court, bind_ok, pure_ok] at done
  obtain ⟨y', changed, rfl⟩ := done
  refine ⟨y', changed, ?_, Function.update_self .., ?_, ?_, wiring.apart⟩
  · rw [Function.update_of_ne (ne_of_contracts wiring.legacy wiring.court (by rintro ⟨⟩))]
    exact wiring.legacy
  · rw [Function.update_of_ne (ne_of_contracts wiring.amm wiring.court (by rintro ⟨⟩))]
    exact wiring.amm
  · rw [Function.update_of_ne (ne_of_contracts wiring.factory wiring.court (by rintro ⟨⟩))]
    exact wiring.factory

end Wiring

/-! ### The outcome -/

/-- The listing configuration of a factory. -/
structure Configured (config : Config) (fac : MarketFactory) : Prop where
  minSeedUsdc : fac.minSeedUsdc = config.minSeedUsdc
  listingFeeUsdc : fac.listingFeeUsdc = config.listingFeeUsdc
  feeRecipient : fac.feeRecipient = config.feeRecipient
  minLeadTime : fac.minLeadTime = config.minLeadTime
  maxHorizon : fac.maxHorizon = config.maxHorizon
  listingCooldown : fac.listingCooldown = config.listingCooldown

/-- The oracle is on the new factory at `b`, whose pool contract points back to it and which is
set up as was asked. -/
structure Switched (args : Args) (c : Checked) (f : Factory) (x : ConsensusOracle) (b : Address)
    (fac : MarketFactory) (contracts : Contracts) : Prop where
  wiring : ∃ a amm, Wiring c f { x with factory := b } a b amm fac contracts ∧
    amm.factory = b ∧ amm.closeGate = args.closeGate
  config : Configured c.config fac
  permissionless : fac.permissionless = args.permissionless

/-- A row for each given id that the legacy factory knows, equal to its row, and no other. -/
def Rows (args : Args) (f : Factory) (fac : MarketFactory) : Prop :=
  ∀ id, (fac.marketExists id = true ↔
      (∃ raw ∈ args.legacyCids, raw.value = some id) ∧ f.storage.marketExists id = true) ∧
    (fac.marketExists id = true → fac.markets id = f.storage.markets id)

/-- Every further call with the same deployments is refused and sends nothing, whatever its other
arguments and its progress. -/
def Refuses (site : PlatformSite) (args : Args) (t : Chain) : Prop :=
  ∀ (again : Args) (progress : Progress), again.deployments = args.deployments →
    Ends site again.operator (migrateV2 again) { t with progress } fun r u =>
      u = { t with progress } ∧ ∃ e, r = .error e

/-- How a migration ends whose checks have passed. -/
structure Outcome (site : PlatformSite) (args : Args) (c : Checked) (f : Factory)
    (x : ConsensusOracle) (r : Except Exc Report) (t : Chain) : Prop where
  failed : ∀ e, r = .error e → e = .unsent
  steps : t.progress.steps = describe 0 t.landed
  legacy : t.contracts c.legacyFactory = some (.factory f)
  wired : (∃ e, r = .error e) ∧ t.contracts c.oracle = some (.oracle x) ∨
    ∃ b fac, Switched args c f x b fac t.contracts ∧ Refuses site args t ∧
      ∀ report, r = .ok report → report.marketFactory = b ∧ Rows args f fac

section Migration

variable {site : PlatformSite} {args : Args} {c : Checked} {f : Factory} {x : ConsensusOracle}
  {s t : Chain} {b : Address} {fac : MarketFactory}

/-- After the switch the checks do not pass again. -/
theorem refuses_of_switched (recorded : args.deployments.marketFactory = some c.legacyFactory)
    (oracle : f.oracle = c.oracle) (switched : Switched args c f x b fac t.contracts) :
    Refuses site args t := by
  intro again progress same
  obtain ⟨a, amm, wiring, -, -⟩ := switched.wiring
  unfold migrateV2
  refine Ends.bind check_quiet ?_ ?_
  · rintro c' u ⟨rfl, -, passes⟩
    obtain ⟨f', x', passed⟩ := passes c' rfl
    exfalso
    have place : c'.legacyFactory = c.legacyFactory := by
      have here := passed.deployments
      rw [same, recorded] at here
      exact (Option.some.inj here).symm
    have legacy := passed.legacy
    rw [place] at legacy
    have factory : f' = f :=
      Contract.factory.inj (Option.some.inj (legacy.symm.trans wiring.legacy))
    have court := passed.court
    rw [← passed.oracle, factory, oracle] at court
    have storage := Contract.oracle.inj (Option.some.inj (court.symm.trans wiring.court))
    have wired := passed.wired
    rw [storage, place] at wired
    exact wiring.apart wired
  · rintro e u ⟨rfl, -, -⟩
    exact ⟨rfl, e, rfl⟩

/-! ### The import -/

theorem importRows_frame {legacyFactory : Address} {ids : List Bytes32} {y y' : MarketFactory}
    (done : MarketFactory.importRows site legacyFactory y ids = .ok y') :
    ∃ markets marketExists, y' = { y with markets, marketExists } := by
  induction ids generalizing y with
  | nil =>
      cases done
      exact ⟨_, _, rfl⟩
  | cons id rest ih =>
      unfold MarketFactory.importRows at done
      split at done
      · exact ih done
      · simp only [bind_ok, require_ok, exists_const] at done
        obtain ⟨_, -, -, _, -, done⟩ := done
        obtain ⟨markets, marketExists, rfl⟩ := ih done
        exact ⟨markets, marketExists, rfl⟩

/-- The rows of the new factory are those of the given ids, as the legacy factory has them. -/
def RowsOf (f : Factory) (fac : MarketFactory) (ids : List Bytes32) : Prop :=
  ∀ id, (fac.marketExists id = true ↔ id ∈ ids) ∧
    (fac.marketExists id = true → fac.markets id = f.storage.markets id)

theorem importRows_rowsOf {contracts : Contracts} {fac' : MarketFactory} {given ids : List Bytes32}
    (legacy : contracts c.legacyFactory = some (.factory f)) (rows : RowsOf f fac given)
    (done : MarketFactory.importRows (reading site contracts) c.legacyFactory fac ids =
      .ok fac') : RowsOf f fac' (given ++ ids) := by
  intro id
  obtain ⟨kept, added, all⟩ := MarketFactory.importRows_row done id
  cases before : fac.marketExists id with
  | true =>
      obtain ⟨still, same⟩ := kept before
      refine ⟨⟨fun _ => ?_, fun _ => still⟩, fun _ => same.trans ((rows id).2 before)⟩
      exact List.mem_append_left ids ((rows id).1.1 before)
  | false =>
      refine ⟨⟨fun now => List.mem_append_right given (added before now).1, ?_⟩, fun now => ?_⟩
      · intro here
        rcases List.mem_append.1 here with here | here
        · rw [(rows id).1.2 here] at before
          cases before
        · exact all here
      · have row := (added before now).2.row
        simp only [reading, legacy] at row
        exact (Except.ok.inj row).symm

/-- What holds after the switch, while rows are imported. -/
structure Importing (args : Args) (c : Checked) (f : Factory) (x : ConsensusOracle) (b : Address)
    (given : List Bytes32) (s : Chain) : Prop where
  named : ∃ i, Named i s
  switched : ∃ fac, Switched args c f x b fac s.contracts ∧ RowsOf f fac given

theorem importChunks_ends {ids : List Cid} {i j : Nat} {given : List Bytes32}
    (named : Named j s) (place : ids ≠ [] → j = i)
    (switched : Switched args c f x b fac s.contracts) (rows : RowsOf f fac given) :
    Ends site args.operator (importChunks b c.legacyFactory i ids) s fun r t =>
      (∀ e, r = .error e → e = .unsent) ∧ ∃ all, Importing args c f x b all t ∧
        (r = .ok () → all = given ++ ids.map fromHex) := by
  induction length : ids.length using Nat.strong_induction_on
    generalizing ids i j s fac given with
  | _ n ih =>
      rw [importChunks]
      split
      · next none_left =>
          refine Ends.pure ⟨nofun, given, ⟨⟨j, named⟩, fac, switched, rows⟩, fun _ => ?_⟩
          rw [none_left, List.map_nil, List.append_nil]
      · next some_left =>
          refine Ends.transact ?_ fun created contracts done => ?_
          · exact ⟨fun e same => (Except.error.inj same).symm, given,
              ⟨⟨j, named.lost⟩, fac, switched, rows⟩, nofun⟩
          · obtain ⟨a, amm, wiring, back, gate⟩ := switched.wiring
            simp only [execute] at done
            obtain ⟨fac', imported, wiring'⟩ := wiring.onFactory done
            simp only [bind_ok, require_ok, exists_const] at imported
            obtain ⟨-, -, -, imported⟩ := imported
            have rows' := importRows_rowsOf wiring.legacy rows imported
            obtain ⟨markets, marketExists, rfl⟩ := importRows_frame imported
            have config := switched.config
            have some_ids := List.length_pos_iff.2 some_left
            have shorter : (ids.drop importChunk).length < n := by
              rw [List.length_drop, importChunk]
              omega
            cases place some_left
            -- A chunk is short only when it is the last one.
            have next : ids.drop importChunk ≠ [] →
                i + ((ids.take importChunk).map fromHex).length = i + importChunk := by
              intro more
              have more' := List.length_pos_iff.2 more
              rw [List.length_drop] at more'
              rw [List.length_map, List.length_take, Nat.min_eq_left (by omega)]
            refine Ends.mono (ih _ shorter (named.after contracts _ _ rfl) next
              ⟨⟨a, amm, wiring', back, gate⟩,
                ⟨config.1, config.2, config.3, config.4, config.5, config.6⟩,
                switched.permissionless⟩ rows' rfl) ?_
            rintro r t ⟨failed, all, importing, whole⟩
            refine ⟨failed, all, importing, fun good => ?_⟩
            rw [whole good, List.append_assoc, ← List.map_append, List.take_append_drop]

/-! ### The whole migration -/

/-- Before the switch a transaction that is not mined leaves the oracle on the legacy factory. -/
theorem outcome_before {i : Nat} (named : Named i s)
    (legacy : s.contracts c.legacyFactory = some (.factory f))
    (court : s.contracts c.oracle = some (.oracle x)) :
    Outcome site args c f x (.error .unsent) s.lost :=
  ⟨fun _ same => (Except.error.inj same).symm, named.steps, legacy, .inl ⟨⟨_, rfl⟩, court⟩⟩

theorem rows_of_rowsOf {fac : MarketFactory} (passed : Passed args contracts c f x)
    (rows : RowsOf f fac (c.importable.map fromHex)) : Rows args f fac := by
  obtain ⟨cids, normal, importable⟩ := passed.importable
  intro id
  refine ⟨?_, (rows id).2⟩
  rw [(rows id).1, ← normalizeCids_value normal, importable]
  simp only [List.mem_map, List.mem_filter]
  constructor
  · rintro ⟨cid, ⟨here, listed⟩, rfl⟩
    exact ⟨⟨cid, here, rfl⟩, listed⟩
  · rintro ⟨⟨cid, here, rfl⟩, listed⟩
    exact ⟨cid, ⟨here, listed⟩, rfl⟩

theorem outcome_after (recorded : args.deployments.marketFactory = some c.legacyFactory)
    (oracle : f.oracle = c.oracle) {r : Except Exc Report} {given : List Bytes32}
    (importing : Importing args c f x b given t) (failed : ∀ e, r = .error e → e = .unsent)
    (good : ∀ report, r = .ok report → report.marketFactory = b ∧
      ∀ fac, RowsOf f fac given → Rows args f fac) :
    Outcome site args c f x r t := by
  obtain ⟨⟨i, named⟩, fac, switched, rows⟩ := importing
  obtain ⟨a, amm, wiring, -, -⟩ := switched.wiring
  refine ⟨failed, named.steps, wiring.legacy, .inr ⟨b, fac, switched,
    refuses_of_switched recorded oracle switched, fun report same => ?_⟩⟩
  obtain ⟨place, whole⟩ := good report same
  exact ⟨place, whole fac rows⟩

/-- A contract is created where there is none, so the others stay. -/
theorem kept_of_created {contracts : Contracts} {created a : Address} {k : Contract}
    (new : Option Contract) (fresh : (contracts created).isNone = true)
    (here : contracts a = some k) : Function.update contracts created new a = some k := by
  have apart : a ≠ created := by
    rintro rfl
    rw [here] at fresh
    cases fresh
  exact (Function.update_of_ne apart new contracts).trans here

/-- How a part of the migration before the switch ends. -/
def Before (site : PlatformSite) (args : Args) (c : Checked) (f : Factory) (x : ConsensusOracle)
    {α : Type} (K : α → Contracts → Prop) (r : Except Exc α) (t : Chain) : Prop :=
  (∀ e, r = .error e → Outcome site args c f x (.error e) t) ∧
    ∀ a, r = .ok a → Named 0 t ∧ K a t.contracts

theorem Named.plain {s : Chain} (named : Named 0 s) (contracts : Contracts) (tx : Tx)
    (change : Progress → Progress) (plain : tx.rows = 0)
    (step : (change s.progress).steps = s.progress.steps ++ [tx.step 0]) :
    Named 0 ((s.mined contracts tx).noted change) := by
  have after := named.after contracts tx change step
  rwa [plain] at after

/-- A transaction that imports nothing, before the switch. -/
theorem transact_before {tx : Tx} {K : Unit → Contracts → Prop} (named : Named 0 s)
    (legacy : s.contracts c.legacyFactory = some (.factory f))
    (court : s.contracts c.oracle = some (.oracle x)) (plain : tx.rows = 0)
    (done : ∀ created contracts, execute site args.operator s.contracts created tx = .ok contracts →
      K () contracts) :
    Ends site args.operator (transact tx (tx.step 0)) s (Before site args c f x K) := by
  refine Ends.send ⟨fun e same => ?_, nofun⟩ fun created contracts executed => ?_
  · cases same
    exact outcome_before named legacy court
  · refine Ends.perform ?_
    rintro r t ⟨rfl, rfl⟩
    exact ⟨nofun, fun _ _ =>
      ⟨named.plain contracts tx _ plain rfl, done created contracts executed⟩⟩

theorem Ends.before {α β : Type} {p : Script α} {g : α → Script β} {K : α → Contracts → Prop}
    {R : β → Contracts → Prop} (first : Ends site args.operator p s (Before site args c f x K))
    (rest : ∀ a t, Named 0 t → K a t.contracts →
      Ends site args.operator (g a) t (Before site args c f x R)) :
    Ends site args.operator (p >>= g) s (Before site args c f x R) := by
  refine Ends.bind first (fun a t holds => ?_) fun e t holds => ?_
  · obtain ⟨named, kept⟩ := holds.2 a rfl
    exact rest a t named kept
  · refine ⟨fun e' same => ?_, nofun⟩
    cases same
    exact holds.1 e rfl

theorem deployPair_ends (passed : Passed args s.contracts c f x) (named : Named 0 s) :
    Ends site args.operator (deployPair args c) s (Before site args c f x fun pair contracts =>
      ∃ amm fac, Wiring c f x pair.1 pair.2.2 amm fac contracts ∧
        amm.closeGate = ammCloseGateDefault ∧ RowsOf f fac []) := by
  unfold deployPair
  have lost : ∀ {t : Chain} {K : Address × Nat × Address → Contracts → Prop}, Named 0 t →
      t.contracts c.legacyFactory = some (.factory f) →
      t.contracts c.oracle = some (.oracle x) →
      Before site args c f x K (.error .unsent) t.lost := by
    intro t K named legacy court
    refine ⟨fun e same => ?_, by rintro _ ⟨⟩⟩
    cases same
    exact outcome_before named legacy court
  refine Ends.send (lost named passed.legacy passed.court) fun a contracts done => ?_
  simp only [execute, bind_ok, require_ok, pure_ok, exists_const] at done
  obtain ⟨fresh, -, rfl⟩ := done
  refine Ends.blockNumber fun deployBlock => ?_
  refine Ends.record (Ends.record ?_)
  have named := named.plain (Function.update s.contracts a
    (some (.amm ⟨true, deployedAMM c.feeVault args.operator⟩)))
    (.deployMarketAMM c.ctf c.usdc c.feeVault args.operator)
    (fun p => append "deploy MarketAMM"
      { p with marketAMM := some a, deployBlock := some deployBlock }) rfl rfl
  have legacy := kept_of_created (some (.amm ⟨true, deployedAMM c.feeVault args.operator⟩))
    fresh passed.legacy
  have court := kept_of_created (some (.amm ⟨true, deployedAMM c.feeVault args.operator⟩))
    fresh passed.court
  refine Ends.send (lost named legacy court) fun b contracts done => ?_
  simp only [execute, bind_ok, require_ok, pure_ok, exists_const] at done
  obtain ⟨fresh', -, rfl⟩ := done
  refine Ends.record (Ends.record (Ends.pure ⟨by rintro _ ⟨⟩, ?_⟩))
  rintro _ ⟨⟩
  refine ⟨named.plain _ (.deployMarketFactory c.ctf c.oracle a c.usdc args.operator c.generator)
    (fun p => append "deploy MarketFactory" { p with marketFactory := some b }) rfl rfl, _, _,
    ⟨kept_of_created _ fresh' legacy, kept_of_created _ fresh' court,
      kept_of_created _ fresh' (Function.update_self ..), Function.update_self .., ?_⟩, rfl, ?_⟩
  · rintro rfl
    have taken := legacy.symm.trans (Option.isNone_iff_eq_none.1 fresh')
    cases taken
  · intro id
    exact ⟨⟨fun listed => Bool.noConfusion listed, fun none => by cases none⟩,
      fun listed => Bool.noConfusion listed⟩

/-- The close gate of a new pool contract is the default unless it is set. -/
theorem setCloseGate_ends {a b : Address} {amm : MarketAMM} {fac : MarketFactory}
    (wiring : Wiring c f x a b amm fac s.contracts) (back : amm.factory = b)
    (gate : amm.closeGate = ammCloseGateDefault) (named : Named 0 s) :
    Ends site args.operator (setCloseGate args a) s (Before site args c f x fun _ contracts =>
      ∃ amm, Wiring c f x a b amm fac contracts ∧ amm.factory = b ∧
        amm.closeGate = args.closeGate) := by
  unfold setCloseGate
  split
  · refine transact_before named wiring.legacy wiring.court rfl fun created contracts done => ?_
    simp only [execute] at done
    obtain ⟨amm', changed, wiring'⟩ := wiring.onAMM done
    simp only [MarketAMM.setCloseGate, bind_ok, require_ok, pure_ok, exists_const] at changed
    obtain ⟨-, rfl⟩ := changed
    exact ⟨_, wiring', back, rfl⟩
  · next default =>
      exact Ends.pure ⟨by rintro _ ⟨⟩, fun _ _ =>
        ⟨named, amm, wiring, back, gate.trans (not_not.1 default).symm⟩⟩

theorem configurePair_ends {a b : Address} {amm : MarketAMM} {fac : MarketFactory}
    (wiring : Wiring c f x a b amm fac s.contracts)
    (gate : amm.closeGate = ammCloseGateDefault) (rows : RowsOf f fac []) (named : Named 0 s) :
    Ends site args.operator (configurePair args c a b) s (Before site args c f x
      fun _ contracts => ∃ amm fac, Wiring c f x a b amm fac contracts ∧ amm.factory = b ∧
        amm.closeGate = args.closeGate ∧ Configured c.config fac ∧
        fac.permissionless = args.permissionless ∧ RowsOf f fac []) := by
  unfold configurePair
  refine Ends.before (K := fun _ contracts => ∃ amm, Wiring c f x a b amm fac contracts ∧
    amm.factory = b ∧ amm.closeGate = ammCloseGateDefault)
    (transact_before named wiring.legacy wiring.court rfl fun created contracts done => ?_) ?_
  · simp only [execute] at done
    obtain ⟨amm', changed, wiring'⟩ := wiring.onAMM done
    simp only [MarketAMM.setFactory, bind_ok, require_ok, pure_ok, exists_const] at changed
    obtain ⟨-, rfl⟩ := changed
    exact ⟨_, wiring', rfl, gate⟩
  rintro _ s named ⟨amm, wiring, back, gate⟩
  refine Ends.before (setCloseGate_ends wiring back gate named) ?_
  rintro _ s named ⟨amm, wiring, back, gate⟩
  refine Ends.before (K := fun _ contracts => ∃ fac, Wiring c f x a b amm fac contracts ∧
    Configured c.config fac ∧ RowsOf f fac [])
    (transact_before named wiring.legacy wiring.court rfl fun created contracts done => ?_) ?_
  · simp only [execute] at done
    obtain ⟨fac', changed, wiring'⟩ := wiring.onFactory done
    simp only [MarketFactory.setListingConfig, bind_ok, require_ok, pure_ok, exists_const]
      at changed
    obtain ⟨-, -, -, -, -, -, rfl⟩ := changed
    exact ⟨_, wiring', ⟨rfl, rfl, rfl, rfl, rfl, rfl⟩, rows⟩
  rintro _ s named ⟨fac, wiring, config, rows⟩
  refine transact_before named wiring.legacy wiring.court rfl fun created contracts done => ?_
  simp only [execute] at done
  obtain ⟨fac', changed, wiring'⟩ := wiring.onFactory done
  simp only [MarketFactory.setPermissionless, bind_ok, require_ok, pure_ok, exists_const]
    at changed
  obtain ⟨-, rfl⟩ := changed
  exact ⟨amm, _, wiring', back, gate,
    ⟨config.1, config.2, config.3, config.4, config.5, config.6⟩, rfl, rows⟩

theorem cutOver_ends (passed : Passed args s.contracts c f x) (named : Named 0 s) :
    Ends site args.operator (cutOver args c) s (Outcome site args c f x) := by
  unfold cutOver
  refine Ends.bind (deployPair_ends passed named) ?_ fun e t holds => holds.1 e rfl
  rintro ⟨a, deployBlock, b⟩ s₁ holds
  obtain ⟨named, amm, fac, wiring, gate, rows⟩ := holds.2 _ rfl
  refine Ends.bind (configurePair_ends wiring gate rows named) ?_ fun e t holds => holds.1 e rfl
  rintro ⟨⟩ s₂ holds
  obtain ⟨named, amm, fac, wiring, back, gate, config, permissionless, rows⟩ := holds.2 _ rfl
  refine Ends.transact (outcome_before named wiring.legacy wiring.court)
    fun created contracts done => ?_
  simp only [execute] at done
  obtain ⟨y, changed, wiring'⟩ := wiring.onOracle done
  simp only [ConsensusOracle.setFactory, bind_ok, require_ok, pure_ok, exists_const] at changed
  obtain ⟨-, rfl⟩ := changed
  have switched : Switched args c f x b fac contracts :=
    ⟨⟨a, amm, wiring', back, gate⟩, config, permissionless⟩
  refine Ends.bind (importChunks_ends (named.plain contracts _ _ rfl rfl) (fun _ => rfl)
    switched rows) ?_ ?_
  · rintro ⟨⟩ t ⟨-, all, importing, whole⟩
    refine Ends.pure (outcome_after passed.deployments passed.oracle importing (by rintro _ ⟨⟩) ?_)
    rintro report ⟨⟩
    refine ⟨rfl, fun fac' copied => rows_of_rowsOf passed ?_⟩
    rwa [whole rfl, List.nil_append] at copied
  · rintro e t ⟨failed, all, importing, -⟩
    exact outcome_after passed.deployments passed.oracle importing
      (fun e' same => Except.error.inj same ▸ failed e rfl) (by rintro _ ⟨⟩)

/-- The chain before a migration, with nothing sent and a new progress. -/
def start (contracts : Contracts) : Chain := ⟨contracts, 0, [], ⟨none, none, none, []⟩⟩

/-- On any chain and whatever fails, either a check has failed and nothing was sent, or the checks
have passed and the migration ends as its outcome says. -/
theorem migration_cuts_over (site : PlatformSite) (args : Args) (contracts : Contracts) :
    Ends site args.operator (migrateV2 args) (start contracts) fun r t =>
      (∃ e, r = .error e ∧ e ≠ .unsent ∧ t = start contracts) ∨
      ∃ c f x, Passed args contracts c f x ∧ Outcome site args c f x r t := by
  unfold migrateV2
  refine Ends.bind check_quiet ?_ ?_
  · rintro c t ⟨rfl, -, passes⟩
    obtain ⟨f, x, passed⟩ := passes c rfl
    exact Ends.mono (cutOver_ends passed ⟨rfl, rfl⟩) fun r t outcome =>
      .inr ⟨c, f, x, passed, outcome⟩
  · rintro e t ⟨rfl, check, -⟩
    exact .inl ⟨e, rfl, check e rfl, rfl⟩

end Migration

/-! ### A migration that completes -/

/-- A node that answers every read and mines every transaction that does not revert. -/
def serve (site : PlatformSite) (operator : Address) :
    (op : Op) → Chain → Except Exc (Answer op) × Chain
  | .read a getter, s =>
      (match (s.contracts a).bind fun c => answer c getter with
        | some v => .ok v
        | none => .error .unread, s)
  | .answersV2 a, s => (.ok (((s.contracts a).map answersV2).getD false), s)
  | .marketExists a c, s =>
      (match s.contracts a with
        | some (.factory f) => .ok (f.storage.marketExists c)
        | _ => .error .unread, s)
  | .blockNumber, s => (.ok (100 + s.sent : Nat), s)
  | .send tx, s =>
      let created : Address := BitVec.ofNat 160 (100 + s.sent)
      match execute site operator s.contracts created tx with
      | .ok contracts =>
          (.ok created, { s with contracts, sent := s.sent + 1, landed := s.landed ++ [tx] })
      | .error _ => (.error .unsent, { s with sent := s.sent + 1 })
  | .record change, s => (.ok (), { s with progress := change s.progress })

theorem serve_answers (site : PlatformSite) (operator : Address) (op : Op) (s : Chain) :
    (operatorOnly site operator).answers op s (serve site operator op s).1
      (serve site operator op s).2 := by
  cases op with
  | read a getter =>
      refine ⟨rfl, ?_⟩
      simp only [serve]
      split
      · next v reads =>
        obtain ⟨c, here, answered⟩ := Option.bind_eq_some_iff.mp reads
        exact .inr ⟨c, v, here, answered, rfl⟩
      · exact .inl rfl
  | answersV2 a => exact ⟨rfl, .inr rfl⟩
  | marketExists a c =>
      refine ⟨rfl, ?_⟩
      simp only [serve]
      split
      · next f here => exact .inr ⟨f, here, rfl⟩
      · exact .inl rfl
  | blockNumber => exact ⟨rfl, _, rfl⟩
  | send tx =>
      unfold serve
      dsimp only
      split
      · next contracts executed => exact .inr ⟨_, contracts, executed, rfl, rfl⟩
      · exact .inl ⟨rfl, rfl⟩
  | record change => exact ⟨rfl, rfl⟩

/-- A legacy factory at 1 with one paused market, its pool contract at 2 and the oracle at 3. -/
def sampleLegacy : MarketFactory :=
  { MarketFactory.deployed 9 9 with
    markets := fun _ => ⟨7, 0, 50, 0, true, .empty⟩
    marketExists := fun id => id = 7 }

def sampleOracle : ConsensusOracle :=
  { ConsensusOracle.deployed 9 fun _ => 4 with factory := 1 }

def sampleContracts : Contracts := fun a =>
  if a = 1 then some (.factory ⟨false, 5, 3, 2, 6, sampleLegacy⟩)
  else if a = 2 then some (.amm ⟨false, deployedAMM 8 9⟩)
  else if a = 3 then some (.oracle sampleOracle)
  else none

/-- Two ids are given, one of them unknown to the legacy factory. -/
def Args.sample : Args where
  deployments := ⟨some 1, some 2, none, none⟩
  operator := 9
  legacyCids := [.bytes (List.replicate 31 0 ++ [7]), .bytes (List.replicate 31 0 ++ [8])]
  listing := ⟨[], none, none, .unset, none, none, none⟩
  permissionless := true
  closeGate := false
  allowV2Source := false

def samplePlay : Except Exc Report × Chain :=
  (migrateV2 .sample).play (serve .sample 9) (start sampleContracts)

/-- A migration in which nothing fails: one of the two ids is imported. -/
theorem migration_cuts_over_sample :
    ∃ (c : Checked) (f : Factory) (x : ConsensusOracle) (report : Report) (t : Chain),
      Passed .sample sampleContracts c f x ∧ Outcome .sample .sample c f x (.ok report) t ∧
      t.progress.steps = ["deploy MarketAMM", "deploy MarketFactory", "amm.setFactory",
        "amm.setCloseGate", "factory.setListingConfig", "factory.setPermissionless",
        "oracle.setFactory", "importLegacyMarkets[0:1]"] := by
  have ends := migration_cuts_over .sample .sample sampleContracts
  have ran := World.play_run (serve_answers .sample 9) (migrateV2 .sample) (start sampleContracts)
  have ended := (Safe.sound ends trivial ran).2 _ .refl trivial
  have landed : samplePlay.1.isOk = true := by decide +kernel
  have steps : samplePlay.2.progress.steps = ["deploy MarketAMM", "deploy MarketFactory",
      "amm.setFactory", "amm.setCloseGate", "factory.setListingConfig",
      "factory.setPermissionless", "oracle.setFactory", "importLegacyMarkets[0:1]"] := by
    decide +kernel
  change (∃ e, samplePlay.1 = .error e ∧ e ≠ .unsent ∧ samplePlay.2 = start sampleContracts) ∨
    ∃ c f x, Passed .sample sampleContracts c f x ∧
      Outcome .sample .sample c f x samplePlay.1 samplePlay.2 at ended
  rcases ended with ⟨e, failed, -⟩ | ⟨c, f, x, passed, outcome⟩
  · rw [failed] at landed
    cases landed
  · cases done : samplePlay.1 with
    | error e =>
        rw [done] at landed
        cases landed
    | ok report =>
        rw [done] at outcome
        exact ⟨c, f, x, report, samplePlay.2, passed, outcome, steps⟩

end OverUnder.Scripts.DeployV2
