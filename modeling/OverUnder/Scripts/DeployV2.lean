/-
Module: OverUnder.Scripts.DeployV2
Purpose: The migration of `contracts/script/deploy_v2.py` to a new pool contract and market
  factory: the checks, the transactions in their order and the progress it keeps, over a
  chain that may fail to answer any read and to mine any transaction. What the constructors
  ask of other contracts is part of whether a transaction is mined.
Trusted boundary: human-reviewed spec
Main exports: RawCid, normalizeCids, Listing, Config, listingArgs, Contract, Tx, Chain, Op,
  operatorOnly, migrateV2
-/
import OverUnder.Contracts.MarketFactory
import OverUnder.Library.Interaction
import OverUnder.Oracles.Winner

namespace OverUnder.Scripts.DeployV2

open OverUnder.Vyper OverUnder.Contracts OverUnder.Library
open OverUnder.Oracles.Winner (strip)

/-! ### Condition ids -/

/-- What a caller may give as a condition id. -/
inductive RawCid where
  | bytes (b : List (BitVec 8))
  | text (s : List Char)

/-- A condition id as `0x` and hex digits. -/
abbrev Cid := List Char

def hexDigit (c : Char) : Option Nat :=
  if '0' ≤ c ∧ c ≤ '9' then some (c.toNat - '0'.toNat)
  else if 'a' ≤ c ∧ c ≤ 'f' then some (c.toNat - 'a'.toNat + 10)
  else if 'A' ≤ c ∧ c ≤ 'F' then some (c.toNat - 'A'.toNat + 10)
  else none

/-- `CID_RE.fullmatch`. -/
def isCid (s : List Char) : Bool :=
  match s with
  | '0' :: 'x' :: digits => decide (digits.length = 64) && digits.all fun c => (hexDigit c).isSome
  | _ => false

def lowerHex : List Char := "0123456789abcdef".toList

/-- `"0x" + bytes(raw).hex()`. -/
def hex (b : List (BitVec 8)) : Cid :=
  '0' :: 'x' :: b.flatMap fun x =>
    [lowerHex.getD (x.toNat / 16) '0', lowerHex.getD (x.toNat % 16) '0']

/-- `bytes.fromhex(c[2:])`. -/
def fromHex (c : Cid) : Bytes32 :=
  BitVec.ofNat 256 ((c.drop 2).foldl (fun n d => 16 * n + (hexDigit d).getD 0) 0)

/-! ### What the migration refuses -/

inductive Exc where
  /-- A key that the deployments do not have. -/
  | missing (key : String)
  | badCid (raw : RawCid)
  | listing (text : String)
  | alreadyRecorded
  | sourceIsV2
  | factoryOperator (found : Address)
  | oracleOperator (found : Address)
  | ammMismatch (found : Address)
  | notLegacyFactory (found : Address)
  /-- A getter that reverts or does not answer. -/
  | unread
  /-- A transaction that reverts or is not mined. -/
  | unsent

def normalizeCid : RawCid → Except Exc Cid
  | .bytes b => if b.length = 32 then .ok (hex b) else .error (.badCid (.bytes b))
  | .text s =>
      if isCid (strip s) then .ok ((strip s).map Char.toLower) else .error (.badCid (.text s))

/-- The loop of `normalize_cids`. -/
def normalizeFrom : List Cid → List RawCid → Except Exc (List Cid)
  | out, [] => .ok out
  | out, raw :: rest => do
      let cid ← normalizeCid raw
      normalizeFrom (if out.contains cid then out else out ++ [cid]) rest

/-- `normalize_cids`. -/
def normalizeCids (cids : List RawCid) : Except Exc (List Cid) := normalizeFrom [] cids

/-! ### The listing configuration -/

/-- A value given for `feeRecipient`. -/
inductive Recipient where
  | unset
  | account (a : Address)
  | malformed

/-- The `listing` dict; a key that is absent is `none`. -/
structure Listing where
  unknown : List String
  minSeedUsdc : Option Int
  listingFeeUsdc : Option Int
  feeRecipient : Recipient
  minLeadTime : Option Int
  maxHorizon : Option Int
  listingCooldown : Option Int

/-- The arguments of `setListingConfig`. -/
structure Config where
  minSeedUsdc : Nat
  listingFeeUsdc : Nat
  feeRecipient : Address
  minLeadTime : Nat
  maxHorizon : Nat
  listingCooldown : Nat

/-- One key of `LISTING_DEFAULTS`. -/
def listingValue (key : String) (value : Option Int) (default : Nat) : Except Exc Nat :=
  match value with
  | none => .ok default
  | some v =>
      if v < 0 then .error (.listing ("listing " ++ key ++ " must be a non-negative integer"))
      else .ok v.toNat

/-- `cfg["feeRecipient"] or fee_vault`, which has to be an address. -/
def recipient (given : Recipient) (feeVault : Address) : Except Exc Address :=
  match given with
  | .unset => .ok feeVault
  | .account a => .ok a
  | .malformed => .error (.listing "listing feeRecipient must be a 0x address")

def refuse (condition : Prop) [Decidable condition] (e : Exc) : Except Exc Unit :=
  if condition then .error e else .ok ()

/-- `listing_args`. -/
def listingArgs (listing : Listing) (feeVault : Address) : Except Exc Config := do
  refuse (listing.unknown ≠ []) (.listing "unknown listing keys")
  let minSeedUsdc ← listingValue "minSeedUsdc" listing.minSeedUsdc 10000000
  let listingFeeUsdc ← listingValue "listingFeeUsdc" listing.listingFeeUsdc 0
  let minLeadTime ← listingValue "minLeadTime" listing.minLeadTime 3600
  let maxHorizon ← listingValue "maxHorizon" listing.maxHorizon 7776000
  let listingCooldown ← listingValue "listingCooldown" listing.listingCooldown 3600
  let feeRecipient ← recipient listing.feeRecipient feeVault
  refuse (minSeedUsdc = 0) (.listing "listing minSeedUsdc must be > 0")
  refuse (listingFeeUsdc > 0 ∧ feeRecipient = zeroAddress)
    (.listing "listing feeRecipient is required when listingFeeUsdc > 0")
  refuse (minLeadTime < 600) (.listing "listing minLeadTime must be >= 600")
  refuse (¬(minLeadTime < maxHorizon ∧ maxHorizon ≤ 31622400))
    (.listing "listing maxHorizon must be > minLeadTime and <= 31622400")
  return ⟨minSeedUsdc, listingFeeUsdc, feeRecipient, minLeadTime, maxHorizon, listingCooldown⟩

/-! ### The chain -/

/-- A market factory; the first version answers no `minSeedUsdc`. -/
structure Factory where
  isV2 : Bool
  ctf : Address
  oracle : Address
  amm : Address
  usdc : Address
  storage : MarketFactory

/-- A pool contract; the first version answers no `closeGate`. -/
structure Amm where
  isV2 : Bool
  storage : MarketAMM

inductive Contract where
  | factory (f : Factory)
  | amm (a : Amm)
  | oracle (x : ConsensusOracle)
  | other

abbrev Contracts := Address → Option Contract

/-- The getters of the script's ABIs that answer an address. -/
inductive Getter where
  | ctf
  | oracle
  | amm
  | usdc
  | operator
  | wildcardGenerator
  | feeVault
  | factory

/-- What the script reads of a contract of each kind. -/
def answer : Contract → Getter → Option Address
  | .factory f, .ctf => some f.ctf
  | .factory f, .oracle => some f.oracle
  | .factory f, .amm => some f.amm
  | .factory f, .usdc => some f.usdc
  | .factory f, .operator => some f.storage.operator
  | .factory f, .wildcardGenerator => some f.storage.wildcardGenerator
  | .amm a, .feeVault => some a.storage.feeVault
  | .amm a, .operator => some a.storage.operator
  | .oracle x, .factory => some x.factory
  | .oracle x, .operator => some x.operator
  | _, _ => none

/-- Does the contract answer `minSeedUsdc()` or `closeGate()`. -/
def answersV2 : Contract → Bool
  | .factory f => f.isV2
  | .amm a => a.isV2
  | _ => false

inductive Tx where
  | deployMarketAMM (ctf usdc feeVault operator : Address)
  | deployMarketFactory (ctf oracle amm usdc operator wildcardGenerator : Address)
  | ammSetFactory (amm factory : Address)
  | ammSetCloseGate (amm : Address) (enabled : Bool)
  | setListingConfig (factory : Address) (config : Config)
  | setPermissionless (factory : Address) (enabled : Bool)
  | oracleSetFactory (oracle factory : Address)
  | importLegacyMarkets (factory legacyFactory : Address) (conditionIds : List Bytes32)

/-- `MarketAMM.__init__`. -/
def deployedAMM (feeVault operator : Address) : MarketAMM where
  feeVault := feeVault
  operator := operator
  factory := zeroAddress
  pools := fun _ => .empty
  lpBalance := fun _ => 0
  closeGate := true
  seedLocked := fun _ => 0

/-- A call to a contract of the pool's kind that writes its storage. -/
def onAMM (contracts : Contracts) (a : Address) (change : MarketAMM → Call MarketAMM) :
    Call Contracts :=
  match contracts a with
  | some (.amm x) => do
      let storage ← change x.storage
      return Function.update contracts a (some (.amm { x with storage }))
  | _ => .error .assertion

def onFactory (contracts : Contracts) (a : Address)
    (change : MarketFactory → Call MarketFactory) : Call Contracts :=
  match contracts a with
  | some (.factory f) => do
      let storage ← change f.storage
      return Function.update contracts a (some (.factory { f with storage }))
  | _ => .error .assertion

def onOracle (contracts : Contracts) (a : Address)
    (change : ConsensusOracle → Call ConsensusOracle) : Call Contracts :=
  match contracts a with
  | some (.oracle x) => do
      let x ← change x
      return Function.update contracts a (some (.oracle x))
  | _ => .error .assertion

/-- The platform as an import sees it: what a legacy factory answers is in its rows. -/
def reading (site : PlatformSite) (contracts : Contracts) : PlatformSite :=
  { site with
    legacyExists := fun a c => match contracts a with
      | some (.factory f) => .ok (f.storage.marketExists c)
      | _ => .error .assertion
    legacyMarkets := fun a c => match contracts a with
      | some (.factory f) => .ok (f.storage.markets c)
      | _ => .error .assertion }

/-- A transaction of the operator; `created` is where a contract is created, which is never
where there is one. -/
def execute (site : PlatformSite) (operator : Address) (contracts : Contracts)
    (created : Address) : Tx → Call Contracts
  | .deployMarketAMM ctf _ feeVault owner => do
      require ((contracts created).isNone)
      require (ctf ≠ zeroAddress)
      return Function.update contracts created (some (.amm ⟨true, deployedAMM feeVault owner⟩))
  | .deployMarketFactory ctf oracle amm usdc owner wildcardGenerator => do
      require ((contracts created).isNone)
      require (ctf ≠ zeroAddress ∧ oracle ≠ zeroAddress ∧ owner ≠ zeroAddress)
      return Function.update contracts created (some (.factory
        ⟨true, ctf, oracle, amm, usdc, MarketFactory.deployed owner wildcardGenerator⟩))
  | .ammSetFactory amm factory =>
      onAMM contracts amm fun x => MarketAMM.setFactory x operator factory
  | .ammSetCloseGate amm enabled =>
      onAMM contracts amm fun x => MarketAMM.setCloseGate x operator enabled
  | .setListingConfig factory config =>
      onFactory contracts factory fun x => do
        -- The arguments are encoded as `uint256`.
        require (config.minSeedUsdc < wordSize ∧ config.listingFeeUsdc < wordSize ∧
          config.minLeadTime < wordSize ∧ config.maxHorizon < wordSize ∧
          config.listingCooldown < wordSize)
        MarketFactory.setListingConfig x operator config.minSeedUsdc config.listingFeeUsdc
          config.feeRecipient config.minLeadTime config.maxHorizon config.listingCooldown
  | .setPermissionless factory enabled =>
      onFactory contracts factory fun x => MarketFactory.setPermissionless x operator enabled
  | .oracleSetFactory oracle factory =>
      onOracle contracts oracle fun x => ConsensusOracle.setFactory x operator factory
  | .importLegacyMarkets factory legacyFactory conditionIds =>
      onFactory contracts factory fun x => do
        require (conditionIds.length ≤ 50)
        require (operator = x.operator) (.reason "not operator")
        require (legacyFactory ≠ zeroAddress ∧ legacyFactory ≠ factory) (.reason "bad legacy")
        MarketFactory.importRows (reading site contracts) legacyFactory x conditionIds

/-- `progress`. -/
structure Progress where
  marketAMM : Option Address
  deployBlock : Option Nat
  marketFactory : Option Address
  steps : List String

/-- The chain and the caller's `progress`; `sent` counts the transactions that were tried,
`landed` are those that were mined. -/
structure Chain where
  contracts : Contracts
  sent : Nat
  landed : List Tx
  progress : Progress

inductive Op where
  | read (a : Address) (getter : Getter)
  | answersV2 (a : Address)
  | marketExists (factory : Address) (conditionId : Bytes32)
  | blockNumber
  | send (tx : Tx)
  | record (change : Progress → Progress)

def Answer : Op → Type
  | .read .. => Address
  | .answersV2 _ => Bool
  | .marketExists .. => Bool
  | .blockNumber => Nat
  | .send _ => Address
  | .record _ => Unit

/-- Only the operator acts on the chain; a read may get no answer and a transaction may not be
mined. -/
def operatorOnly (site : PlatformSite) (operator : Address) : World Chain Op Answer Exc where
  other _ _ := False
  valid _ := True
  answers
    | .read a getter, s, r, t => t = s ∧ (r = .error .unread ∨
        ∃ c v, s.contracts a = some c ∧ answer c getter = some v ∧ r = .ok v)
    | .answersV2 a, s, r, t => t = s ∧ (r = .error .unread ∨
        r = .ok (((s.contracts a).map answersV2).getD false))
    | .marketExists a c, s, r, t => t = s ∧ (r = .error .unread ∨
        ∃ f, s.contracts a = some (.factory f) ∧ r = .ok (f.storage.marketExists c))
    | .blockNumber, s, r, t => t = s ∧ ∃ n : Nat, r = .ok n
    | .send tx, s, r, t =>
        (r = .error .unsent ∧ t = { s with sent := s.sent + 1 }) ∨
        ∃ created contracts, execute site operator s.contracts created tx = .ok contracts ∧
          r = .ok created ∧
          t = { s with contracts, sent := s.sent + 1, landed := s.landed ++ [tx] }
    | .record change, s, r, t => r = .ok () ∧ t = { s with progress := change s.progress }
  other_valid := fun _ _ => trivial
  answers_valid := fun _ _ => trivial

/-! ### The script -/

abbrev Script (α : Type) := Program Op Answer Exc α

def read (a : Address) (getter : Getter) : Script Address := Program.perform (Op.read a getter)

/-- `answers(minSeedUsdc)` and `answers(closeGate)`. -/
def probe (a : Address) : Script Bool := Program.perform (Op.answersV2 a)

def marketExists (factory : Address) (conditionId : Bytes32) : Script Bool :=
  Program.perform (Op.marketExists factory conditionId)

/-- `_block_number`. -/
def blockNumber : Script Nat := Program.perform Op.blockNumber

def send (tx : Tx) : Script Address := Program.perform (Op.send tx)

def record (change : Progress → Progress) : Script Unit := Program.perform (Op.record change)

/-- `raise`, when the condition holds. -/
def raiseIf (condition : Prop) [Decidable condition] (e : Exc) : Script Unit :=
  if condition then Program.raise e else pure ()

/-- Code that does not touch the chain. -/
def lift {α : Type} (value : Except Exc α) : Script α := .done value

/-- `steps.append`. -/
def append (step : String) (p : Progress) : Progress := { p with steps := p.steps ++ [step] }

/-- A transaction and the step that names it. -/
def transact (tx : Tx) (step : String) : Script Unit := do
  let _ ← send tx
  record (append step)

/-- The `deployments` JSON. -/
structure Deployments where
  marketFactory : Option Address
  marketAMM : Option Address
  marketFactoryLegacy : Option Address
  marketAMMLegacy : Option Address

structure Args where
  deployments : Deployments
  operator : Address
  legacyCids : List RawCid
  listing : Listing
  permissionless : Bool
  closeGate : Bool
  allowV2Source : Bool

/-- What the checks hand on. -/
structure Checked where
  legacyFactory : Address
  legacyAMM : Address
  ctf : Address
  oracle : Address
  usdc : Address
  generator : Address
  feeVault : Address
  config : Config
  importable : List Cid

/-- `[c for c in cids if legacy.marketExists(...)]`. -/
def known (legacyFactory : Address) : List Cid → Script (List Cid)
  | [] => pure []
  | c :: rest => do
      let listed ← marketExists legacyFactory (fromHex c)
      let others ← known legacyFactory rest
      return if listed then c :: others else others

/-- `deployments[key]`. -/
def entry (key : String) (value : Option Address) : Except Exc Address :=
  match value with
  | some a => .ok a
  | none => .error (.missing key)

/-- A legacy pair is refused that is of the second version already. -/
def refuseV2 (args : Args) (legacyFactory legacyAMM : Address) : Script Unit :=
  if args.allowV2Source then pure ()
  else do
    let factoryV2 ← probe legacyFactory
    raiseIf (factoryV2 = true) .sourceIsV2
    let ammV2 ← probe legacyAMM
    raiseIf (ammV2 = true) .sourceIsV2

/-- `migrate_v2` up to its first transaction. -/
def check (args : Args) : Script Checked := do
  raiseIf (args.deployments.marketFactoryLegacy.isSome ∨ args.deployments.marketAMMLegacy.isSome)
    .alreadyRecorded
  let legacyFactory ← lift (entry "MarketFactory" args.deployments.marketFactory)
  let legacyAMM ← lift (entry "MarketAMM" args.deployments.marketAMM)
  let cids ← lift (normalizeCids args.legacyCids)
  let ctf ← read legacyFactory .ctf
  let oracle ← read legacyFactory .oracle
  let usdc ← read legacyFactory .usdc
  let generator ← read legacyFactory .wildcardGenerator
  let feeVault ← read legacyAMM .feeVault
  refuseV2 args legacyFactory legacyAMM
  let factoryOperator ← read legacyFactory .operator
  raiseIf (factoryOperator ≠ args.operator) (.factoryOperator factoryOperator)
  let oracleOperator ← read oracle .operator
  raiseIf (oracleOperator ≠ args.operator) (.oracleOperator oracleOperator)
  let amm ← read legacyFactory .amm
  raiseIf (amm ≠ legacyAMM) (.ammMismatch amm)
  let factory ← read oracle .factory
  raiseIf (factory ≠ legacyFactory) (.notLegacyFactory factory)
  let config ← lift (listingArgs args.listing feeVault)
  let importable ← known legacyFactory cids
  return ⟨legacyFactory, legacyAMM, ctf, oracle, usdc, generator, feeVault, config, importable⟩

/-- `IMPORT_CHUNK`. -/
def importChunk : Nat := 25

/-- The text of one step of the import. -/
def importStep (i count : Nat) : String :=
  "importLegacyMarkets[" ++ toString i ++ ":" ++ toString (i + count) ++ "]"

/-- The loop of the import, from place `i` of the list. -/
def importChunks (factory legacyFactory : Address) (i : Nat) (importable : List Cid) :
    Script Unit :=
  if importable = [] then pure ()
  else do
    let chunk := (importable.take importChunk).map fromHex
    transact (.importLegacyMarkets factory legacyFactory chunk) (importStep i chunk.length)
    importChunks factory legacyFactory (i + importChunk) (importable.drop importChunk)
termination_by importable.length
decreasing_by
  rw [List.length_drop]
  have some_left := List.length_pos_iff.2 ‹importable ≠ []›
  unfold importChunk
  omega

/-- What `migrate_v2` returns. -/
structure Report where
  marketAMM : Address
  marketFactory : Address
  marketAMMLegacy : Address
  marketFactoryLegacy : Address
  imported : List Cid
  deployBlock : Nat

/-- `AMM_CLOSE_GATE_DEFAULT`. -/
def ammCloseGateDefault : Bool := true

/-- The close gate is set when it is not what a new pool contract has. -/
def setCloseGate (args : Args) (amm : Address) : Script Unit :=
  if args.closeGate ≠ ammCloseGateDefault then
    transact (.ammSetCloseGate amm args.closeGate) "amm.setCloseGate"
  else pure ()

/-- The two deployments of `migrate_v2`: the pool contract, its block and the factory. -/
def deployPair (args : Args) (c : Checked) : Script (Address × Nat × Address) := do
  let amm ← send (.deployMarketAMM c.ctf c.usdc c.feeVault args.operator)
  let deployBlock ← blockNumber
  record fun p => { p with marketAMM := some amm, deployBlock := some deployBlock }
  record (append "deploy MarketAMM")
  let factory ← send
    (.deployMarketFactory c.ctf c.oracle amm c.usdc args.operator c.generator)
  record fun p => { p with marketFactory := some factory }
  record (append "deploy MarketFactory")
  return (amm, deployBlock, factory)

/-- The configuration of the new contracts. -/
def configurePair (args : Args) (c : Checked) (amm factory : Address) : Script Unit := do
  transact (.ammSetFactory amm factory) "amm.setFactory"
  setCloseGate args amm
  transact (.setListingConfig factory c.config) "factory.setListingConfig"
  transact (.setPermissionless factory args.permissionless) "factory.setPermissionless"

/-- The transactions of `migrate_v2`. -/
def cutOver (args : Args) (c : Checked) : Script Report := do
  let (amm, deployBlock, factory) ← deployPair args c
  configurePair args c amm factory
  transact (.oracleSetFactory c.oracle factory) "oracle.setFactory"
  importChunks factory c.legacyFactory 0 c.importable
  return ⟨amm, factory, c.legacyAMM, c.legacyFactory, c.importable, deployBlock⟩

/-- `migrate_v2`. -/
def migrateV2 (args : Args) : Script Report := do
  let checked ← check args
  cutOver args checked

end OverUnder.Scripts.DeployV2
