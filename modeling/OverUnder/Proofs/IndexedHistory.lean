/-
Module: OverUnder.Proofs.IndexedHistory
Purpose: What the indexer's checkpoint has passed is in the database, each AMM event once,
  whatever fails or dies between two commits and however many instances index at a time.
  A checkpoint of zero that a live chain reads as no checkpoint is the exception, and so is a
  market that its table does not take.
Trusted boundary: none
Main exports: Captured, Contiguous, TickOk, Indexed, Careful, indexed_step, last_block_mono,
  index_loses_nothing, skips_below_lookback
-/
import OverUnder.Backend.Indexer
import OverUnder.Library.Reachable

namespace OverUnder.Backend.Indexer

open OverUnder.Library
open OverUnder.Library.Keyed

variable {settings : Settings} {chain : ChainView} {db db' : Database} {s s' : State}
variable {first next lo hi : Nat}

/-! ### What has been captured -/

/-- The events of a block are all in the given rows. -/
structure CapturedBlock (chain : ChainView) (points : List PricePoint) (markets : List MarketRow)
    (block : Nat) : Prop where
  amm : ∀ log ∈ chain.amm block, Holds PricePoint.key points log.key
  created : ∀ event ∈ chain.created block,
    Holds MarketRow.conditionId markets event.conditionId

/-- The events of the blocks after one and before another are all in the database. -/
def Captured (chain : ChainView) (db : Database) (first next : Nat) : Prop :=
  ∀ block, first < block → block < next → CapturedBlock chain db.points db.markets block

/-- A database with the rows of another. -/
structure Grown (db db' : Database) : Prop where
  points : ∀ k, Holds PricePoint.key db.points k → Holds PricePoint.key db'.points k
  markets : ∀ k, Holds MarketRow.conditionId db.markets k →
    Holds MarketRow.conditionId db'.markets k

theorem Captured.mono (captured : Captured chain db first next) (grown : Grown db db') :
    Captured chain db' first next := by
  intro block after before
  have block := captured block after before
  exact ⟨fun log mem => grown.points _ (block.amm log mem),
    fun event mem => grown.markets _ (block.created event mem)⟩

@[simp] theorem mem_getLogs {α : Type} {logs : Nat → List α} {log : α} :
    log ∈ getLogs logs lo hi ↔ ∃ block, lo ≤ block ∧ block ≤ hi ∧ log ∈ logs block := by
  simp only [getLogs, List.mem_flatMap, List.mem_range'_1]
  constructor
  · rintro ⟨block, ⟨after, before⟩, mem⟩
    exact ⟨block, after, by omega, mem⟩
  · rintro ⟨block, after, before, mem⟩
    exact ⟨block, ⟨after, by omega⟩, mem⟩

/-! ### Planned ranges -/

/-- Ranges that follow one another from a block on. -/
def Contiguous : Nat → List (Nat × Nat) → Prop
  | _, [] => True
  | next, (lo, hi) :: rest => lo = next ∧ lo ≤ hi ∧ Contiguous (hi + 1) rest

theorem planRanges_contiguous {start last maxRange chunks : Nat} :
    Contiguous start (planRanges start last maxRange chunks) := by
  induction chunks generalizing start with
  | zero => trivial
  | succ chunks ih =>
      unfold planRanges
      split
      · trivial
      · exact ⟨rfl, by omega, ih⟩

/-! ### The invariant -/

/-- What a tick has left behind, and what it still has to index, leave no gap. -/
def TickOk (chain : ChainView) (db : Database) (first : Nat) (tick : Tick) : Prop :=
  match tick.phase with
  | .between => ∃ next, Captured chain db first next ∧ Contiguous next tick.ranges
  | .indexing work =>
      Captured chain db first work.lo ∧ Contiguous (work.hi + 1) tick.ranges ∧
        ∀ block, work.lo ≤ block → block ≤ work.hi →
          (∀ log ∈ chain.amm block, log ∈ work.todo ∨
            Holds PricePoint.key (db.points ++ work.points) log.key) ∧
          ∀ event ∈ chain.created block,
            Holds MarketRow.conditionId (db.markets ++ work.markets) event.conditionId
  | .holding lo => Captured chain db first lo

theorem TickOk.mono {tick : Tick} (ok : TickOk chain db first tick) (grown : Grown db db') :
    TickOk chain db' first tick := by
  unfold TickOk at ok ⊢
  split
  · next phase =>
    rw [phase] at ok
    rcases ok with ⟨next, captured, contiguous⟩
    exact ⟨next, captured.mono grown, contiguous⟩
  · next work phase =>
    rw [phase] at ok
    rcases ok with ⟨captured, contiguous, range⟩
    refine ⟨captured.mono grown, contiguous, fun block after before => ?_⟩
    have ⟨amm, created⟩ := range block after before
    simp only [holds_append] at amm created ⊢
    exact ⟨fun log mem => (amm log mem).imp_right (Or.imp_left (grown.points _)),
      fun event mem => (created event mem).imp_left (grown.markets _)⟩
  · next phase =>
    rw [phase] at ok
    exact ok.mono grown

/-- Keys are unique, the checkpoint has passed only what is there, and every tick has the AMM
and leaves no gap. -/
structure Indexed (settings : Settings) (chain : ChainView) (s : State) : Prop where
  unique : Unique PricePoint.key s.db.points
  floor : ∀ c, s.db.checkpoint = some c → settings.startBlock ≤ c.lastBlock + 1
  captured : ∀ c, s.db.checkpoint = some c → Captured chain s.db c.initial (c.lastBlock + 1)
  ticks : ∀ tick ∈ s.ticks, tick.amm = true ∧
    ∃ c, s.db.checkpoint = some c ∧ TickOk chain s.db c.initial tick

/-- A tick has the AMM, and does not take a checkpoint of zero for none on a live chain that
has outgrown the lookback; and it fetches no creation of a market that its table does not take,
unless there is a row of it already. -/
def Careful (settings : Settings) (chain : ChainView) (s : State) : Event → Prop
  | .began head _ amm => amm = true ∧ ∀ c, s.db.checkpoint = some c →
      settings.startBlock = 0 → settings.chainId ≠ anvilChainId → c.lastBlock = 0 →
        head ≤ settings.lookbackBlocks
  | .fetched i => ∀ amm lo hi rest, s.ticks[i]? = some ⟨amm, (lo, hi) :: rest, .between⟩ →
      ∀ event ∈ getLogs chain.created lo hi, event.row.fits settings = true ∨
        Holds MarketRow.conditionId s.db.markets event.conditionId
  | _ => True

/-- Such a tick starts right after the checkpoint. -/
theorem resolveStartBlock_eq {last head chainId lookback startBlock : Nat}
    (floor : startBlock ≤ last + 1)
    (near : startBlock = 0 → chainId ≠ anvilChainId → last = 0 → head ≤ lookback) :
    resolveStartBlock last startBlock head chainId lookback = last + 1 := by
  simp only [resolveStartBlock]
  split
  · omega
  · split
    · omega
    · next unset live =>
      rw [not_or] at live
      have := near (by omega) live.1 (by omega)
      omega

theorem freshLastBlock_floor {legacy : Option Nat} {head : Nat} :
    settings.startBlock ≤ freshLastBlock settings legacy head + 1 := by
  unfold freshLastBlock
  split
  · omega
  · omega

/-! ### What the steps do to the invariant -/

theorem Indexed.grow (inv : Indexed settings chain s) (db' : Database) (grown : Grown s.db db')
    (kept : db'.checkpoint = s.db.checkpoint) (unique : Unique PricePoint.key db'.points) :
    Indexed settings chain { s with db := db' } where
  unique := unique
  floor := fun c keyed => inv.floor c (kept ▸ keyed)
  captured := fun c keyed => (inv.captured c (kept ▸ keyed)).mono grown
  ticks := by
    intro tick mem
    rcases inv.ticks tick mem with ⟨amm, c, keyed, ok⟩
    exact ⟨amm, c, kept.trans keyed, ok.mono grown⟩

theorem Grown.advance {block : Nat} : Grown db (db.advanceCheckpoint block) :=
  ⟨fun _ => id, fun _ => id⟩

theorem Indexed.advance (inv : Indexed settings chain s) (block : Nat)
    (passed : ∀ c, s.db.checkpoint = some c → Captured chain s.db c.initial (block + 1)) :
    Indexed settings chain { s with db := s.db.advanceCheckpoint block } where
  unique := inv.unique
  floor := by
    intro c keyed
    simp only [Database.advanceCheckpoint, Option.map_eq_some_iff] at keyed
    rcases keyed with ⟨before, keyed, rfl⟩
    have floor := inv.floor before keyed
    split
    · exact floor.trans (by simp only; omega)
    · exact floor
  captured := by
    intro c keyed
    simp only [Database.advanceCheckpoint, Option.map_eq_some_iff] at keyed
    rcases keyed with ⟨before, keyed, rfl⟩
    split
    · exact (passed before keyed).mono .advance
    · exact (inv.captured before keyed).mono .advance
  ticks := by
    intro tick mem
    rcases inv.ticks tick mem with ⟨amm, c, keyed, ok⟩
    refine ⟨amm, if c.lastBlock < block then { c with lastBlock := block } else c, ?_, ?_⟩
    · simp only [Database.advanceCheckpoint, keyed, Option.map_some]
    · split
      · exact ok.mono .advance
      · exact ok.mono .advance

theorem Indexed.setTick {i : Nat} {tick : Tick} {c : Checkpoint}
    (inv : Indexed settings chain s) (amm : tick.amm = true) (keyed : s.db.checkpoint = some c)
    (ok : TickOk chain s.db c.initial tick) :
    Indexed settings chain { s with ticks := s.ticks.set i tick } where
  unique := inv.unique
  floor := inv.floor
  captured := inv.captured
  ticks := by
    intro t mem
    rcases List.mem_or_eq_of_mem_set mem with mem | rfl
    · exact inv.ticks t mem
    · exact ⟨amm, c, keyed, ok⟩

theorem Indexed.dropTick {i : Nat} (inv : Indexed settings chain s) :
    Indexed settings chain { s with ticks := s.ticks.eraseIdx i } where
  unique := inv.unique
  floor := inv.floor
  captured := inv.captured
  ticks := fun tick mem => inv.ticks tick (List.mem_of_mem_eraseIdx mem)

/-- The checkpoint row is made once, and passes nothing. -/
theorem Indexed.keyed {head : Nat} (inv : Indexed settings chain s) :
    Indexed settings chain { s with db := s.db.loadCheckpoint settings head } := by
  cases there : s.db.checkpoint with
  | some c =>
      simp only [Database.loadCheckpoint, there]
      exact inv
  | none =>
      simp only [Database.loadCheckpoint, there]
      refine ⟨inv.unique, ?_, ?_, ?_⟩
      · intro c keyed
        cases keyed
        exact freshLastBlock_floor
      · intro c keyed block after before
        cases keyed
        exact absurd after (by simp only at before ⊢; omega)
      · intro tick mem
        rcases inv.ticks tick mem with ⟨-, c, keyed, -⟩
        rw [there] at keyed
        cases keyed

theorem Grown.commit {work : Work} : Grown db (work.commit db) :=
  ⟨fun _ held => holds_insertAll.mpr (.inl held), fun _ held => holds_insertAll.mpr (.inl held)⟩

/-- A range whose rows are committed. -/
theorem TickOk.committed {work : Work} {amm : Bool} {ranges : List (Nat × Nat)}
    (ok : TickOk chain db first ⟨amm, ranges, .indexing work⟩) (empty : work.todo = []) :
    Captured chain (work.commit db) first (work.hi + 1) := by
  rcases ok with ⟨captured, -, range⟩
  intro block after before
  by_cases earlier : block < work.lo
  · exact captured.mono .commit block after earlier
  · have ⟨amm, created⟩ := range block (by omega) (by omega)
    rw [empty] at amm
    constructor
    · intro log mem
      rw [Work.commit, holds_insertAll, ← holds_append]
      exact (amm log mem).resolve_left List.not_mem_nil
    · intro event mem
      rw [Work.commit, holds_insertAll, ← holds_append]
      exact created event mem

/-- A range starts with all its AMM events to come, and with the markets its table takes. -/
theorem TickOk.fetched {ranges : List (Nat × Nat)}
    (ok : TickOk chain db first ⟨true, (lo, hi) :: ranges, .between⟩)
    (taken : ∀ event ∈ getLogs chain.created lo hi, event.row.fits settings = true ∨
      Holds MarketRow.conditionId db.markets event.conditionId) :
    TickOk chain db first ⟨true, ranges, .indexing (.start settings chain true lo hi)⟩ := by
  rcases ok with ⟨_, captured, rfl, -, contiguous⟩
  refine ⟨captured, contiguous, fun block after before =>
    ⟨fun log mem => .inl ?_, fun event mem => ?_⟩⟩
  · exact mem_getLogs.mpr ⟨block, after, before, mem⟩
  · have logged : event ∈ getLogs chain.created _ hi := mem_getLogs.mpr ⟨block, after, before, mem⟩
    rw [holds_append]
    rcases taken event logged with fits | there
    · exact .inr ⟨event.row, List.mem_filter.mpr ⟨List.mem_map_of_mem logged, fits⟩, rfl⟩
    · exact .inl there

/-- One event of a range is indexed. -/
theorem TickOk.indexed {ranges : List (Nat × Nat)} {amm : Bool} {work work' : Work} {log : AmmLog}
    {todo : List AmmLog} (ok : TickOk chain db first ⟨amm, ranges, .indexing work⟩)
    (head : work.todo = log :: todo)
    (done : work.indexEvent settings chain db log todo = some work') :
    TickOk chain db first ⟨amm, ranges, .indexing work'⟩ := by
  rcases ok with ⟨captured, contiguous, range⟩
  unfold Work.indexEvent at done
  split at done
  · next there =>
    cases done
    refine ⟨captured, contiguous, fun block after before => ?_⟩
    have ⟨amm, created⟩ := range block after before
    refine ⟨fun other mem => ?_, created⟩
    have other := amm other mem
    rw [head, List.mem_cons] at other
    rcases other with (rfl | later) | held
    · exact .inr there
    · exact .inl later
    · exact .inr held
  · split at done
    · cases done
      refine ⟨captured, contiguous, fun block after before => ?_⟩
      have ⟨amm, created⟩ := range block after before
      refine ⟨fun other mem => ?_, created⟩
      have other := amm other mem
      rw [head, List.mem_cons] at other
      rw [← List.append_assoc, holds_append, holds_singleton]
      rcases other with (rfl | later) | held
      · exact .inr (.inr rfl)
      · exact .inl later
      · exact .inr (.inl held)
    · cases done

/-- A careful step keeps the invariant. -/
theorem indexed_step {event : Event} (inv : Indexed settings chain s)
    (careful : Careful settings chain s event) (taken : step settings chain s event = some s') :
    Indexed settings chain s' := by
  cases event with
  | keyed head =>
      cases taken
      exact inv.keyed
  | began head window amm =>
      simp only [step] at taken
      split at taken
      · next c keyed =>
        cases taken
        rcases careful with ⟨rfl, near⟩
        refine ⟨inv.unique, inv.floor, inv.captured, fun tick mem => ?_⟩
        rcases List.mem_append.mp mem with mem | mem
        · exact inv.ticks tick mem
        · rw [List.mem_singleton] at mem
          subst mem
          refine ⟨rfl, c, keyed, c.lastBlock + 1, inv.captured c keyed, ?_⟩
          rw [resolveStartBlock_eq (inv.floor c keyed) (near c keyed)]
          exact planRanges_contiguous
      · cases taken
  | fetched i =>
      simp only [step] at taken
      split at taken
      · next amm lo hi rest found =>
        cases taken
        rcases inv.ticks _ (List.mem_of_getElem? found) with ⟨rfl, c, keyed, ok⟩
        exact inv.setTick rfl keyed (ok.fetched (careful _ _ _ _ found))
      · cases taken
  | indexed i =>
      simp only [step] at taken
      split at taken
      · next found =>
        rcases inv.ticks _ (List.mem_of_getElem? found) with ⟨amm, c, keyed, ok⟩
        split at taken
        · next done =>
          cases taken
          exact inv.setTick amm keyed (ok.indexed rfl done)
        · cases taken
          exact inv.dropTick
      · cases taken
  | rangeDone i =>
      simp only [step] at taken
      split at taken
      · next amm ranges lo hi points markets found =>
        cases taken
        rcases inv.ticks _ (List.mem_of_getElem? found) with ⟨amm, c, keyed, ok⟩
        have passed := ok.committed rfl
        have committed := inv.grow (Work.commit ⟨lo, hi, [], points, markets⟩ s.db)
          .commit rfl inv.unique.insertAll
        have advanced := committed.advance hi fun d also => by
          cases keyed.symm.trans also
          exact passed
        refine advanced.setTick amm
          (c := if c.lastBlock < hi then { c with lastBlock := hi } else c) ?_ ?_
        · simp only [Database.advanceCheckpoint, Work.commit, keyed, Option.map_some]
        · refine ⟨hi + 1, ?_, ok.2.1⟩
          split
          · exact passed.mono .advance
          · exact passed.mono .advance
      · cases taken
  | failed i =>
      simp only [step] at taken
      split at taken
      · next found =>
        cases taken
        rcases inv.ticks _ (List.mem_of_getElem? found) with ⟨amm, c, keyed, next, captured, rfl, -⟩
        exact inv.setTick amm keyed captured
      · next work found =>
        cases taken
        rcases inv.ticks _ (List.mem_of_getElem? found) with ⟨amm, c, keyed, ok⟩
        have committed := inv.grow (work.commit s.db) .commit rfl inv.unique.insertAll
        exact committed.setTick amm keyed (ok.1.mono .commit)
      · cases taken
  | held i =>
      simp only [step] at taken
      split at taken
      · next lo found =>
        cases taken
        rcases inv.ticks _ (List.mem_of_getElem? found) with ⟨-, c, keyed, ok⟩
        have advanced := inv.advance (lo - 1) fun d also => by
          cases keyed.symm.trans also
          exact fun block after before => ok block after (by omega)
        exact advanced.dropTick
      · cases taken
  | died i =>
      cases taken
      exact inv.dropTick
  | mirrored row =>
      simp only [step, Option.ite_none_right_eq_some] at taken
      cases taken.2
      exact inv.grow _ ⟨fun _ => id, fun _ held => holds_insertIgnore.mpr (.inl held)⟩ rfl
        inv.unique

/-! ### Runs -/

/-- A checkpoint that was not made later than another, and has not passed less. -/
def NotBehind (before after : Option Checkpoint) : Prop :=
  ∀ c, before = some c → ∃ d, after = some d ∧ d.initial = c.initial ∧ c.lastBlock ≤ d.lastBlock

theorem NotBehind.rfl {c : Option Checkpoint} : NotBehind c c :=
  fun c there => ⟨c, there, Eq.refl _, le_refl _⟩

theorem NotBehind.trans {c d e : Option Checkpoint} (first : NotBehind c d)
    (second : NotBehind d e) : NotBehind c e := by
  intro before there
  rcases first before there with ⟨between, there, same, forward⟩
  rcases second between there with ⟨after, there, still, onward⟩
  exact ⟨after, there, still.trans same, forward.trans onward⟩

theorem NotBehind.advance (db : Database) {block : Nat} :
    NotBehind db.checkpoint (db.advanceCheckpoint block).checkpoint := by
  intro c there
  refine ⟨if c.lastBlock < block then { c with lastBlock := block } else c, ?_, ?_, ?_⟩
  · simp only [Database.advanceCheckpoint, there, Option.map_some]
  · split
    · exact Eq.refl _
    · exact Eq.refl _
  · split
    · next behind => exact le_of_lt behind
    · exact le_refl _

theorem NotBehind.keyed {head : Nat} :
    NotBehind db.checkpoint (db.loadCheckpoint settings head).checkpoint := by
  intro c there
  simp only [Database.loadCheckpoint, there]
  exact ⟨c, Eq.refl _, Eq.refl _, le_refl _⟩

/-- No step moves the checkpoint back. -/
theorem last_block_mono {event : Event} (taken : step settings chain s event = some s') :
    NotBehind s.db.checkpoint s'.db.checkpoint := by
  cases event with
  | keyed head =>
      cases taken
      exact .keyed
  | began | fetched =>
      simp only [step] at taken
      split at taken
      · cases taken
        exact .rfl
      · cases taken
  | indexed =>
      simp only [step] at taken
      split at taken
      · split at taken
        · cases taken
          exact .rfl
        · cases taken
          exact .rfl
      · cases taken
  | rangeDone i =>
      simp only [step] at taken
      split at taken
      · next lo hi points markets found =>
        cases taken
        exact NotBehind.advance (Work.commit ⟨lo, hi, [], points, markets⟩ s.db)
      · cases taken
  | failed i =>
      simp only [step] at taken
      split at taken
      · cases taken
        exact .rfl
      · cases taken
        exact .rfl
      · cases taken
  | held i =>
      simp only [step] at taken
      split at taken
      · cases taken
        exact .advance _
      · cases taken
  | died =>
      cases taken
      exact .rfl
  | mirrored row =>
      simp only [step, Option.ite_none_right_eq_some] at taken
      cases taken.2
      exact .rfl

/-- Each AMM event the checkpoint has passed since it was made has one price point, and each
creation a market. -/
def Complete (chain : ChainView) (db : Database) : Prop :=
  ∀ c, db.checkpoint = some c → ∀ block, c.initial < block → block ≤ c.lastBlock →
    (∀ log ∈ chain.amm block, (db.points.filter fun point => point.key = log.key).length = 1) ∧
    ∀ event ∈ chain.created block, ∃ row ∈ db.markets, row.conditionId = event.conditionId

theorem Indexed.complete (inv : Indexed settings chain s) : Complete chain s.db := by
  intro c keyed block after before
  have block := inv.captured c keyed block after (by omega)
  exact ⟨fun log mem => inv.unique.once (block.amm log mem), block.created⟩

theorem Indexed.initially (initial : Initial s) : Indexed settings chain s where
  unique := initial.unique
  floor := fun c keyed => by rw [initial.fresh] at keyed; cases keyed
  captured := fun c keyed => by rw [initial.fresh] at keyed; cases keyed
  ticks := fun tick mem => by rw [initial.idle] at mem; cases mem

/-- In a run of careful steps the indexer loses and duplicates nothing; and in any run its
checkpoint never goes back. -/
theorem index_loses_nothing (settings : Settings) (chain : ChainView) {start s : State}
    {events : List Event} (initial : Initial start)
    (path : Run (fun s event s' => Careful settings chain s event ∧
      step settings chain s event = some s') start events s) :
    Complete chain s.db ∧
      ∀ more t, Run (fun s event s' => step settings chain s event = some s') s more t →
        NotBehind s.db.checkpoint t.db.checkpoint := by
  have inv : Indexed settings chain s :=
    path.invariant (Indexed.initially initial) fun _ _ _ inv taken =>
      indexed_step inv taken.1 taken.2
  refine ⟨inv.complete, fun more t later => ?_⟩
  exact later.invariant (I := fun t => NotBehind s.db.checkpoint t.db.checkpoint) .rfl
    fun _ _ _ forward taken => forward.trans (last_block_mono taken)

/-! ### A checkpoint of zero -/

/-- A market created and its pool seeded in block 2. -/
def ChainView.sample : ChainView where
  created := fun block => if block = 2 then [⟨7, 0, "Will it rain?", 0, 1800000000⟩] else []
  amm := fun block => if block = 2 then [⟨.seeded, 7, 2, 0⟩] else []
  timestamp := fun block => 1700000000 + 2 * block
  poolPriceMicros := fun _ _ => seedPriceMicros

/-- The defaults, on a live chain. -/
def Settings.sample : Settings where
  chainId := 8453
  startBlock := 0
  lookbackBlocks := 43200
  maxChunksPerTick := 10
  integerMax := 2147483647

def State.sample : State := ⟨⟨[], [], none, none⟩, []⟩

theorem State.sample_initial : Initial .sample :=
  ⟨List.nodup_nil, rfl, rfl⟩

/-- The first tick fails, and the next one comes when the chain has outgrown the lookback. -/
def Event.outage : List Event :=
  [.keyed 43000, .began 43000 2000 true, .failed 0, .held 0,
    .began 43205 1000 true, .fetched 0, .rangeDone 0]

/-- Block 2 is below the range that the second tick starts with, and above the checkpoint. -/
theorem skips_below_lookback : ∃ s : State,
    Run (fun s event s' => step .sample .sample s event = some s') .sample Event.outage s ∧
      ¬ Complete .sample s.db := by
  have ends : (Event.outage.foldlM (step .sample .sample) State.sample).map
      (fun s => (s.db.checkpoint.map fun c => (c.initial, c.lastBlock), s.db.points.length)) =
        some (some (0, 1005), 0) := by decide +kernel
  rw [Option.map_eq_some_iff] at ends
  rcases ends with ⟨s, ran, found⟩
  simp only [Prod.mk.injEq, Option.map_eq_some_iff, List.length_eq_zero_iff] at found
  rcases found with ⟨⟨c, keyed, passed⟩, none⟩
  refine ⟨s, Run.of_foldlM (fun _ _ _ taken => taken) ran, fun complete => ?_⟩
  have once := (complete c keyed 2 (by omega) (by omega)).1 ⟨.seeded, 7, 2, 0⟩ (.head _)
  rw [none] at once
  cases once

/-- The same ticks without the outage. -/
def Event.steady : List Event :=
  [.keyed 43000, .began 43000 1000 true, .fetched 0, .indexed 0, .rangeDone 0]

/-- A tick that no checkpoint of zero leads astray. -/
def Event.near : Event → Bool
  | .began head _ amm => amm && decide (head ≤ Settings.sample.lookbackBlocks)
  | _ => true

theorem ChainView.sample_fits {event : MarketCreated}
    (logged : event ∈ getLogs ChainView.sample.created lo hi) :
    event.row.fits .sample = true := by
  rcases mem_getLogs.mp logged with ⟨block, -, -, mem⟩
  simp only [ChainView.sample] at mem
  split at mem
  · rw [List.mem_singleton.mp mem]
    decide +kernel
  · cases mem

theorem Event.near_careful {event : Event} (near : event.near = true) :
    Careful .sample .sample s event := by
  cases event with
  | began head window amm =>
      simp only [Event.near, Bool.and_eq_true, decide_eq_true_eq] at near
      exact ⟨near.1, fun _ _ _ _ _ => near.2⟩
  | fetched i => exact fun _ _ _ _ _ event logged => .inl (ChainView.sample_fits logged)
  | _ => trivial

theorem index_loses_nothing_sample : ∃ s : State,
    s.db.checkpoint.map Checkpoint.lastBlock = some 1000 ∧ Complete .sample s.db ∧
      s.db.markets.length = 1 ∧ s.db.points.length = 1 := by
  have ends : (Event.steady.foldlM (fun (s : State) (event : Event) =>
      if event.near then step .sample .sample s event else none) State.sample).map
        (fun s => (s.db.checkpoint.map Checkpoint.lastBlock, s.db.markets.length,
          s.db.points.length)) = some (some 1000, 1, 1) := by
    decide +kernel
  rw [Option.map_eq_some_iff] at ends
  rcases ends with ⟨s, ran, ends⟩
  simp only [Prod.mk.injEq] at ends
  have path : Run (fun s event s' => Careful .sample .sample s event ∧
      step .sample .sample s event = some s') State.sample Event.steady s :=
    .of_tested (fun _ _ => Event.near_careful) ran
  exact ⟨s, ends.1, (index_loses_nothing .sample .sample State.sample_initial path).1, ends.2⟩

end OverUnder.Backend.Indexer
