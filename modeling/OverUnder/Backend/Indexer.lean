/-
Module: OverUnder.Backend.Indexer
Purpose: `index_once` of `src/backend/app/indexer/listener.py` for one address set: ticks of any
  number of instances over one database, each reading the checkpoint, planning ranges,
  indexing a range's logs and moving the checkpoint on. An RPC call can fail and a process can
  die anywhere between two commits; what a range writes is seen at its commit. A number that an
  `Integer` column does not hold fails its insert: a market is then skipped, a price point ends
  the tick. The chain does not reorganise and the node answers truthfully. Settings are not
  negative.
Trusted boundary: human-reviewed spec
Main exports: Settings, ChainView, PricePoint, MarketRow, resolveStartBlock, planRanges,
  freshLastBlock, buildPoint, Database, Work, Tick, State, Event, step, Initial
-/
import OverUnder.Vyper.Signatures
import OverUnder.Library.Keyed

namespace OverUnder.Backend.Indexer

open OverUnder.Vyper (Bytes32)
open OverUnder.Library

def seedPriceMicros : Nat := 500000
def anvilChainId : Nat := 31337

structure Settings where
  chainId : Nat
  /-- `indexer_start_block`; 0 when unset. -/
  startBlock : Nat
  lookbackBlocks : Nat
  maxChunksPerTick : Nat
  /-- The most that an `Integer` column of the database holds. -/
  integerMax : Nat

/-- `MarketCreated` of the factory. -/
structure MarketCreated where
  conditionId : Bytes32
  parentConditionId : Bytes32
  question : String
  marketType : Nat
  closeTime : Nat

inductive AmmKind where
  | seeded
  | swap

/-- `PoolSeeded` or `Swap` of the AMM. -/
structure AmmLog where
  kind : AmmKind
  conditionId : Bytes32
  blockNumber : Nat
  logIndex : Nat

/-- What the node says of each block: its events in order, its timestamp, and the price of a
pool as `pool_price_micros` computes it. -/
structure ChainView where
  created : Nat → List MarketCreated
  amm : Nat → List AmmLog
  timestamp : Nat → Nat
  poolPriceMicros : Bytes32 → Nat → Nat

structure PricePoint where
  conditionId : Bytes32
  ts : Nat
  blockNumber : Nat
  logIndex : Nat
  yesPriceMicros : Nat

/-- The columns of `markets` an event fills. -/
structure MarketRow where
  conditionId : Bytes32
  parentConditionId : Bytes32
  question : String
  marketType : Nat
  closeTime : Nat

/-- `PRICE_POINT_KEY`. -/
def PricePoint.key (point : PricePoint) : Bytes32 × Nat × Nat :=
  (point.conditionId, point.blockNumber, point.logIndex)

def AmmLog.key (log : AmmLog) : Bytes32 × Nat × Nat :=
  (log.conditionId, log.blockNumber, log.logIndex)

/-- `resolve_start_block`. -/
def resolveStartBlock (lastBlock startBlock head chainId lookback : Nat) : Nat :=
  let floor :=
    if startBlock > 0 then startBlock
    else if chainId = anvilChainId ∨ lastBlock > 0 then 1
    else max 1 (head + 1 - lookback)
  max (lastBlock + 1) floor

/-- `plan_ranges`, from the number of chunks left. -/
def planRanges (start last maxRange : Nat) : Nat → List (Nat × Nat)
  | 0 => []
  | chunks + 1 =>
      if last < start ∨ maxRange < 1 then []
      else
        let hi := min (start + maxRange - 1) last
        (start, hi) :: planRanges (hi + 1) last maxRange chunks

/-- `_fresh_last_block`. -/
def freshLastBlock (settings : Settings) (legacy : Option Nat) (head : Nat) : Nat :=
  if settings.startBlock > 0 then settings.startBlock - 1
  else if settings.chainId = anvilChainId then 0
  else
    let behindHead := head - settings.lookbackBlocks
    match legacy with
    | some block => if block > 0 then min block behindHead else behindHead
    | none => behindHead

/-- `get_logs` from one block to another. -/
def getLogs {α : Type} (logs : Nat → List α) (first last : Nat) : List α :=
  (List.range' first (last + 1 - first)).flatMap logs

def MarketCreated.row (event : MarketCreated) : MarketRow where
  conditionId := event.conditionId
  parentConditionId := event.parentConditionId
  question := event.question
  marketType := event.marketType
  closeTime := event.closeTime

/-- `build_seed_point`, or the point of a swap. -/
def buildPoint (chain : ChainView) (log : AmmLog) : PricePoint where
  conditionId := log.conditionId
  ts := chain.timestamp log.blockNumber
  blockNumber := log.blockNumber
  logIndex := log.logIndex
  yesPriceMicros := match log.kind with
    | .seeded => seedPriceMicros
    | .swap => chain.poolPriceMicros log.conditionId log.blockNumber

/-- The database takes the row. -/
def MarketRow.fits (settings : Settings) (row : MarketRow) : Bool :=
  decide (row.marketType ≤ settings.integerMax) && decide (row.closeTime ≤ settings.integerMax)

/-- The database takes the point. -/
def PricePoint.fits (settings : Settings) (point : PricePoint) : Bool :=
  decide (point.ts ≤ settings.integerMax) && decide (point.blockNumber ≤ settings.integerMax) &&
    decide (point.logIndex ≤ settings.integerMax) &&
    decide (point.yesPriceMicros ≤ settings.integerMax)

/-! ### The database and the ticks -/

/-- The row of the address set in `indexer_checkpoints`, with the value it was created with. -/
structure Checkpoint where
  initial : Nat
  lastBlock : Nat

structure Database where
  points : List PricePoint
  markets : List MarketRow
  checkpoint : Option Checkpoint
  /-- The legacy unkeyed checkpoint. -/
  legacy : Option Nat

/-- A range being indexed: the AMM events to come and the rows not yet committed. -/
structure Work where
  lo : Nat
  hi : Nat
  todo : List AmmLog
  points : List PricePoint
  markets : List MarketRow

inductive Phase where
  /-- Before the next range. -/
  | between
  | indexing (work : Work)
  /-- A range starting at a block failed; what it wrote is committed. -/
  | holding (lo : Nat)

/-- A running `index_once`: whether it has the AMM, the ranges it still has to index. -/
structure Tick where
  amm : Bool
  ranges : List (Nat × Nat)
  phase : Phase

structure State where
  db : Database
  ticks : List Tick

/-- `_load_checkpoint` up to its commit. -/
def Database.loadCheckpoint (db : Database) (settings : Settings) (head : Nat) : Database :=
  match db.checkpoint with
  | some _ => db
  | none =>
      let initial := freshLastBlock settings db.legacy head
      { db with checkpoint := some ⟨initial, initial⟩ }

/-- The update of `advance_checkpoint`. -/
def Database.advanceCheckpoint (db : Database) (block : Nat) : Database :=
  { db with checkpoint := db.checkpoint.map fun c =>
      if c.lastBlock < block then { c with lastBlock := block } else c }

/-- What a range wrote is committed. A row that a concurrent writer committed first stays. -/
def Work.commit (work : Work) (db : Database) : Database :=
  { db with
    points := Keyed.insertAll PricePoint.key db.points work.points
    markets := Keyed.insertAll MarketRow.conditionId db.markets work.markets }

/-- One AMM event of a range: `_point_exists`, else the insert; nothing when that raises. -/
def Work.indexEvent (settings : Settings) (chain : ChainView) (db : Database) (work : Work)
    (log : AmmLog) (todo : List AmmLog) : Option Work :=
  if Keyed.Holds PricePoint.key (db.points ++ work.points) log.key then some { work with todo }
  else if (buildPoint chain log).fits settings then
    some { work with todo, points := work.points ++ [buildPoint chain log] }
  else none

/-- The logs of a range, with the factory's events written. An event whose insert fails is
skipped. -/
def Work.start (settings : Settings) (chain : ChainView) (amm : Bool) (lo hi : Nat) : Work where
  lo := lo
  hi := hi
  todo := if amm then getLogs chain.amm lo hi else []
  points := []
  markets := ((getLogs chain.created lo hi).map MarketCreated.row).filter
    (MarketRow.fits settings)

/-! ### Steps -/

inductive Event where
  /-- `_load_checkpoint` makes the row of the address set. -/
  | keyed (head : Nat)
  /-- A tick reads the checkpoint and plans; without the AMM's ABI it indexes the factory. -/
  | began (head window : Nat) (amm : Bool)
  /-- The logs of the next range are there. -/
  | fetched (tick : Nat)
  /-- One AMM event is indexed. -/
  | indexed (tick : Nat)
  /-- `advance_checkpoint` to the end of the range. -/
  | rangeDone (tick : Nat)
  /-- An RPC call of the range failed. -/
  | failed (tick : Nat)
  /-- `advance_checkpoint` to before the failed range. -/
  | held (tick : Nat)
  /-- The tick is over or its process died. -/
  | died (tick : Nat)
  /-- Another writer inserts a market. -/
  | mirrored (row : MarketRow)

def step (settings : Settings) (chain : ChainView) (s : State) : Event → Option State
  | .keyed head => some { s with db := s.db.loadCheckpoint settings head }
  | .began head window amm =>
      match s.db.checkpoint with
      | some c =>
          let start := resolveStartBlock c.lastBlock settings.startBlock head settings.chainId
            settings.lookbackBlocks
          let ranges := planRanges start head window settings.maxChunksPerTick
          some { s with ticks := s.ticks ++ [⟨amm, ranges, .between⟩] }
      | none => none
  | .fetched i =>
      match s.ticks[i]? with
      | some ⟨amm, (lo, hi) :: rest, .between⟩ =>
          some { s with
            ticks := s.ticks.set i ⟨amm, rest, .indexing (.start settings chain amm lo hi)⟩ }
      | _ => none
  | .indexed i =>
      match s.ticks[i]? with
      | some ⟨amm, ranges, .indexing ⟨lo, hi, log :: todo, points, markets⟩⟩ =>
          match Work.indexEvent settings chain s.db ⟨lo, hi, log :: todo, points, markets⟩ log
            todo with
          | some work => some { s with ticks := s.ticks.set i ⟨amm, ranges, .indexing work⟩ }
          -- The exception ends the tick before anything of the range is committed.
          | none => some { s with ticks := s.ticks.eraseIdx i }
      | _ => none
  | .rangeDone i =>
      match s.ticks[i]? with
      | some ⟨amm, ranges, .indexing ⟨lo, hi, [], points, markets⟩⟩ =>
          some {
            db := (Work.commit ⟨lo, hi, [], points, markets⟩ s.db).advanceCheckpoint hi
            ticks := s.ticks.set i ⟨amm, ranges, .between⟩ }
      | _ => none
  | .failed i =>
      match s.ticks[i]? with
      | some ⟨amm, (lo, _) :: rest, .between⟩ =>
          some { s with ticks := s.ticks.set i ⟨amm, rest, .holding lo⟩ }
      | some ⟨amm, ranges, .indexing work⟩ =>
          some {
            db := work.commit s.db
            ticks := s.ticks.set i ⟨amm, ranges, .holding work.lo⟩ }
      | _ => none
  | .held i =>
      match s.ticks[i]? with
      | some ⟨_, _, .holding lo⟩ =>
          some { db := s.db.advanceCheckpoint (lo - 1), ticks := s.ticks.eraseIdx i }
      | _ => none
  | .died i => some { s with ticks := s.ticks.eraseIdx i }
  | .mirrored row =>
      if row.fits settings then
        some { s with db := { s.db with
          markets := Keyed.insertIgnore MarketRow.conditionId s.db.markets row } }
      else none

/-- The address set has no checkpoint yet, and no tick runs. -/
structure Initial (s : State) : Prop where
  unique : Keyed.Unique PricePoint.key s.db.points
  fresh : s.db.checkpoint = none
  idle : s.ticks = []

end OverUnder.Backend.Indexer
