/-
Module: OverUnder.Proofs.PriceTime
Purpose: What one matching does to the book when nobody else writes: it hands the room of
  the incoming order to the eligible makers in price-time order until one side is used up.
Trusted boundary: none
Main exports: Eligible, crosses_iff, Better, tryFill_spec, fillAll_spec, Matched,
  price_time_matching
-/
import OverUnder.Backend.Matcher
import OverUnder.Library.Greedy

namespace OverUnder.Backend.Matcher

open OverUnder.Vyper (Address Bytes32)
open OverUnder.Library
open OverUnder.Library.Greedy
open OrderBook (Order Job Book)

variable {s : Settings} {db : Db} {incoming maker o : Row} {qty minExpiry : Int}

/-! ### Who may be matched -/

/-- A live, unexpired order of another maker on the other side of the market, at a price
within the limit of the incoming order. -/
structure Eligible (minExpiry : Int) (incoming o : Row) : Prop where
  market : o.conditionId = incoming.conditionId
  outcome : o.outcome = incoming.outcome
  side : o.isBuy ≠ incoming.isBuy
  live : incoming.cancelled = false ∧ o.cancelled = false
  unexpired : minExpiry < incoming.expiry ∧ minExpiry < o.expiry
  other : o.maker ≠ incoming.maker
  price : if incoming.isBuy then o.price ≤ incoming.price else incoming.price ≤ o.price

theorem crosses_iff :
    incoming.toOrder.crosses o.toOrder minExpiry = true ↔ Eligible minExpiry incoming o := by
  simp only [Order.crosses, Bool.and_eq_true, decide_eq_true_eq, Bool.not_eq_true',
    Bool.or_eq_false_iff, decide_eq_false_iff_not, Int.not_le]
  constructor
  · rintro ⟨⟨⟨⟨⟨⟨market, outcome⟩, side⟩, live⟩, other⟩, unexpired⟩, price⟩
    refine ⟨market.symm, outcome.symm, side.symm, live, unexpired, other.symm, ?_⟩
    cases buys : incoming.isBuy <;> simpa [buys] using price
  · rintro ⟨market, outcome, side, live, unexpired, other, price⟩
    refine ⟨⟨⟨⟨⟨⟨market.symm, outcome.symm⟩, side.symm⟩, live⟩, other.symm⟩, unexpired⟩, ?_⟩
    cases buys : incoming.isBuy <;> simpa [buys] using price

/-- `a` comes before `b`: at a better price for the incoming order, or as old a price and an
older id. -/
def Better (isBuy : Bool) (a b : Row) : Prop :=
  (if isBuy then a.price < b.price else b.price < a.price) ∨ a.price = b.price ∧ a.id < b.id

theorem sortKey_le {isBuy : Bool} {a b : Row} (apart : a.id ≠ b.id) :
    sortKey isBuy a ≤ sortKey isBuy b ↔ Better isBuy a b := by
  unfold sortKey Better
  rw [Prod.Lex.toLex_le_toLex]
  cases isBuy <;> simp only [Bool.false_eq_true, if_false, if_true] <;> omega

/-! ### Guarded updates that nobody disturbs -/

/-- The ids of the rows. -/
abbrev ids (orders : List Row) : Prop := Keyed.Unique (fun row : Row => row.id) orders

/-- More of one row is filled. -/
def bump (id : Nat) (qty : Int) (row : Row) : Row := if row.id = id then row.raise qty else row

theorem bump_id (id : Nat) (qty : Int) (row : Row) : (bump id qty row).id = row.id := by
  unfold bump
  split <;> rfl

theorem ids_map {orders : List Row} (unique : ids orders) {f : Row → Row}
    (keeps : ∀ row, (f row).id = row.id) : ids (orders.map f) := by
  unfold ids Keyed.Unique at unique ⊢
  rw [List.map_map]
  convert unique using 2
  funext row
  exact keeps row

/-- The guarded update of a row that is there and has room. -/
theorem take_spec (unique : ids db.orders) (stored : o ∈ db.orders)
    (fits : o.takes qty = true) :
    db.take o qty = ({ db with orders := db.orders.map (bump o.id qty) }, o.raise qty, true) := by
  have only : ∀ row ∈ db.orders,
      (decide (row.id = o.id) && row.takes qty) = decide (row.id = o.id) := by
    intro row there
    by_cases same : row.id = o.id
    · rw [unique.eq_of_key there stored same, fits, Bool.and_true]
    · rw [decide_eq_false same, Bool.false_and]
  have rows : (db.orders.map fun row =>
      if decide (row.id = o.id) && row.takes qty then row.raise qty else row) =
      db.orders.map (bump o.id qty) := by
    apply List.map_congr_left
    intro row there
    rw [only row there]
    simp only [bump, decide_eq_true_eq]
  have count :
      (db.orders.filter fun row => decide (row.id = o.id) && row.takes qty).length = 1 := by
    rw [List.filter_congr only]
    exact unique.once ⟨o, stored, rfl⟩
  have raised : bump o.id qty o = o.raise qty := if_pos rfl
  have found : Keyed.get (fun row : Row => row.id) (db.orders.map (bump o.id qty)) o.id =
      some (o.raise qty) := by
    have member := List.mem_map_of_mem (f := bump o.id qty) stored
    rw [raised] at member
    exact (ids_map unique (bump_id o.id qty)).get_mem member
  simp only [Db.take, rows, count, Db.refresh, found]
  rfl

/-- One turn fills what both have room for. -/
theorem tryFill_spec (unique : ids db.orders) (stored : incoming ∈ db.orders)
    (there : maker ∈ db.orders) (apart : maker.id ≠ incoming.id)
    (live : incoming.cancelled = false) (makerLive : maker.cancelled = false)
    (room : 0 < incoming.remaining) (makerRoom : 0 < maker.remaining) :
    tryFill 2 db incoming maker =
      let qty := min incoming.remaining maker.remaining
      ⟨{ db with orders := (db.orders.map (bump maker.id qty)).map (bump incoming.id qty) },
        incoming.raise qty, maker.raise qty, qty, false⟩ := by
  have positive : 0 < min incoming.remaining maker.remaining := lt_min room makerRoom
  have takes : ∀ row : Row, row.cancelled = false →
      min incoming.remaining maker.remaining ≤ row.remaining →
      row.takes (min incoming.remaining maker.remaining) = true := by
    intro row rowLive within
    simp only [Order.takes, Bool.and_eq_true, Bool.not_eq_true', decide_eq_true_eq]
    refine ⟨rowLive, ?_⟩
    unfold Order.remaining at within ⊢
    omega
  have first := take_spec unique there (takes maker makerLive (min_le_right _ _))
  have still : incoming ∈
      db.orders.map (bump maker.id (min incoming.remaining maker.remaining)) :=
    List.mem_map.mpr ⟨incoming, stored, if_neg (Ne.symm apart)⟩
  have second := @take_spec { db with
    orders := db.orders.map (bump maker.id (min incoming.remaining maker.remaining)) } _ _
    (ids_map unique (bump_id _ _)) still (takes incoming live (min_le_left _ _))
  rw [tryFill]
  simp only
  rw [if_neg (by simp [makerLive, Int.not_le.mpr positive]), first]
  simp only [second]

/-! ### The loop over the makers -/

@[simp] theorem raise_zero (row : Row) : row.raise 0 = row := by
  unfold Row.raise Order.raise
  rw [Int.add_zero]

@[simp] theorem raise_raise (row : Row) (a b : Int) :
    (row.raise a).raise b = row.raise (a + b) := by
  simp only [Row.raise, Order.raise, Int.add_assoc]

@[simp] theorem raise_id (row : Row) (a : Int) : (row.raise a).id = row.id := rfl

@[simp] theorem raise_remaining (row : Row) (a : Int) :
    (row.raise a).remaining = row.remaining - a := by
  simp only [Row.raise, Order.raise, Order.remaining]
  omega

theorem bump_eq (id : Nat) (qty : Int) (row : Row) :
    bump id qty row = row.raise (if row.id = id then qty else 0) := by
  unfold bump
  split
  · rfl
  · exact (raise_zero row).symm

/-- All that was handed out. -/
abbrev total (served : List (Row × Int)) : Int := (served.map Prod.snd).sum

/-- What a row is filled by: its share, and all of it for the incoming order. -/
def gets (incoming : Row) (served : List (Row × Int)) (row : Row) : Int :=
  share (fun row : Row => row.id) served row.id +
    if row.id = incoming.id then total served else 0

@[simp] theorem gets_nil (row : Row) : gets incoming [] row = 0 := by
  simp [gets, total]

theorem gets_cons (p : Row × Int) (served : List (Row × Int)) (row : Row) :
    gets incoming (p :: served) row =
      ((if row.id = p.1.id then p.2 else 0) + if row.id = incoming.id then p.2 else 0) +
        gets incoming served row := by
  unfold gets
  rw [share_cons, show total (p :: served) = p.2 + total served from List.sum_cons]
  simp only [eq_comm (a := p.1.id)]
  split <;> split <;> omega

/-- The fill of one pair, at the price of the maker. -/
structure FillOf (incoming : Row) (p : Row × Int) (fill : Fill) : Prop where
  maker : fill.makerHash = p.1.orderHash
  taker : fill.takerHash = incoming.orderHash
  amount : fill.fillAmount = p.2
  volume : fill.volume = p.2 * p.1.price / 1000000

/-- What one maker of the queue is to the book and the incoming order. -/
structure Queued (db : Db) (incoming maker : Row) : Prop where
  there : maker ∈ db.orders
  apart : maker.id ≠ incoming.id
  live : maker.cancelled = false
  room : 0 < maker.remaining

/-- A full order ends the loop. -/
theorem fillAll_full {makers : List Row} {fills : List Fill} (full : incoming.remaining ≤ 0) :
    fillAll s makers db incoming fills = ⟨db, incoming, fills⟩ := by
  cases makers with
  | nil => rfl
  | cons maker rest =>
      have attempt : tryFill 2 db incoming maker = ⟨db, incoming, maker, 0, false⟩ := by
        rw [tryFill]
        exact if_pos (.inl ((min_le_left _ _).trans full))
      simp [fillAll, attempt, full]

/-- The loop hands out the room of the incoming order from the front of the queue. -/
theorem fillAll_spec {makers : List Row} {fills : List Fill} (unique : ids db.orders)
    (stored : incoming ∈ db.orders) (live : incoming.cancelled = false)
    (queue : ∀ maker ∈ makers, Queued db incoming maker) (distinct : ids makers) :
    let served := allocate (fun row : Row => row.remaining) incoming.remaining makers
    let after := fillAll s makers db incoming fills
    after.db.orders = db.orders.map (fun row => row.raise (gets incoming served row)) ∧
      after.incoming = incoming.raise (total served) ∧
      ∃ more, after.fills = fills ++ more ∧ List.Forall₂ (FillOf incoming) served more := by
  induction makers generalizing db incoming fills with
  | nil =>
      refine ⟨?_, ?_, [], (List.append_nil _).symm, .nil⟩
      · simp [fillAll, allocate]
      · simp [fillAll, allocate, total]
  | cons maker rest ih =>
      rcases queue maker (.head _) with ⟨there, apart, makerLive, makerRoom⟩
      rcases le_or_gt incoming.remaining 0 with full | room
      · rw [allocate_of_nonpos full, fillAll_full full]
        refine ⟨?_, ?_, [], (List.append_nil _).symm, .nil⟩
        · simp
        · simp [total]
      · let qty := min incoming.remaining maker.remaining
        have positive : 0 < qty := lt_min room makerRoom
        let turn (row : Row) : Row := bump incoming.id qty (bump maker.id qty row)
        have turn_id : ∀ row, (turn row).id = row.id := fun row => by
          rw [bump_id, bump_id]
        let a : Attempt := ⟨{ db with orders := db.orders.map turn }, incoming.raise qty,
          maker.raise qty, qty, false⟩
        have attempt : tryFill 2 db incoming maker = a := by
          rw [tryFill_spec unique stored there apart live makerLive room makerRoom]
          simp only [List.map_map]
          rfl
        let next := record s a.db a.incoming a.maker qty
        have loop : fillAll s (maker :: rest) db incoming fills =
            fillAll s rest next.1 a.incoming (fills ++ [next.2]) := by
          rw [fillAll]
          simp only [attempt]
          rw [if_neg (by simp [a]), if_neg (Int.not_le.mpr positive)]
          split
          · next full => exact (fillAll_full full).symm
          · rfl
        have still : ∀ row ∈ db.orders, row.id ≠ maker.id → row.id ≠ incoming.id →
            row ∈ next.1.orders := by
          intro row among notMaker notIncoming
          refine List.mem_map.mpr ⟨row, among, ?_⟩
          simp only [turn, bump, if_neg notMaker, if_neg notIncoming]
        have storedNext : a.incoming ∈ next.1.orders := by
          refine List.mem_map.mpr ⟨incoming, stored, ?_⟩
          simp only [turn, bump, if_neg (Ne.symm apart), if_pos]
          rfl
        have distinctRest : ids rest := (List.nodup_cons.mp distinct).2
        have fresh : ∀ m ∈ rest, m.id ≠ maker.id := fun m below same =>
          (List.nodup_cons.mp distinct).1 (List.mem_map.mpr ⟨m, below, same⟩)
        have queueNext : ∀ m ∈ rest, Queued next.1 a.incoming m := fun m below =>
          have q := queue m (.tail _ below)
          ⟨still m q.there (fresh m below) q.apart, q.apart, q.live, q.room⟩
        have later := @ih next.1 a.incoming (fills ++ [next.2])
          (ids_map unique turn_id) storedNext live queueNext distinctRest
        have served :
            allocate (fun row : Row => row.remaining) incoming.remaining (maker :: rest) =
              (maker, qty) :: allocate (fun row => row.remaining) a.incoming.remaining rest := by
          rw [allocate, if_neg (Int.not_le.mpr room), raise_remaining]
        rw [loop, served]
        rcases later with ⟨orders, room', more, fills', each⟩
        refine ⟨?_, ?_, next.2 :: more, ?_, .cons ⟨rfl, rfl, rfl, rfl⟩
          (each.imp fun _ _ of => ⟨of.maker, of.taker, of.amount, of.volume⟩)⟩
        · rw [orders]
          change (db.orders.map turn).map _ = _
          rw [List.map_map]
          refine List.map_congr_left fun row _ => ?_
          simp only [Function.comp_apply, turn, bump_eq, raise_raise, raise_id]
          congr 1
          rw [gets_cons]
          rfl
        · rw [room']
          simp [a, total]
        · rw [fills', List.append_assoc]
          rfl

/-! ### The queue -/

/-- The makers in the order in which they are tried. -/
def queued (minExpiry : Int) (orders : List Row) (incoming : Row) : List Row :=
  ((orders.filter fun o =>
    decide (o.conditionId = incoming.conditionId) && !o.cancelled &&
      decide (o.expiry > minExpiry) && decide (o.id ≠ incoming.id)).filter fun o =>
    incoming.toOrder.crosses o.toOrder minExpiry && decide (o.remaining > 0)).insertionSort
    fun a b => sortKey incoming.isBuy a ≤ sortKey incoming.isBuy b

variable {orders : List Row}

/-- The rows tried are the eligible ones with room. -/
theorem mem_queued : o ∈ queued minExpiry orders incoming ↔
    o ∈ orders ∧ o.id ≠ incoming.id ∧ Eligible minExpiry incoming o ∧ 0 < o.remaining := by
  unfold queued
  rw [List.mem_insertionSort, List.mem_filter, List.mem_filter]
  simp only [Bool.and_eq_true, decide_eq_true_eq, Bool.not_eq_true', crosses_iff, gt_iff_lt]
  constructor
  · rintro ⟨⟨there, ⟨_, _⟩, apart⟩, eligible, room⟩
    exact ⟨there, apart, eligible, room⟩
  · rintro ⟨there, apart, eligible, room⟩
    exact ⟨⟨there, ⟨⟨eligible.market, eligible.live.2⟩, eligible.unexpired.2⟩, apart⟩,
      eligible, room⟩

theorem queued_distinct (unique : ids orders) : ids (queued minExpiry orders incoming) := by
  have kept : ids ((orders.filter fun o =>
      decide (o.conditionId = incoming.conditionId) && !o.cancelled &&
        decide (o.expiry > minExpiry) && decide (o.id ≠ incoming.id)).filter fun o =>
      incoming.toOrder.crosses o.toOrder minExpiry && decide (o.remaining > 0)) :=
    unique.sublist ((List.filter_sublist.trans List.filter_sublist).map _)
  exact ((List.perm_insertionSort _ _).map _).nodup_iff.mpr kept

/-- Better ones are tried first. -/
theorem queued_sorted (unique : ids orders) :
    (queued minExpiry orders incoming).Pairwise (Better incoming.isBuy) := by
  have sorted := List.pairwise_insertionSort
    (fun a b : Row => sortKey incoming.isBuy a ≤ sortKey incoming.isBuy b)
    ((orders.filter fun o =>
      decide (o.conditionId = incoming.conditionId) && !o.cancelled &&
        decide (o.expiry > minExpiry) && decide (o.id ≠ incoming.id)).filter fun o =>
      incoming.toOrder.crosses o.toOrder minExpiry && decide (o.remaining > 0))
  have distinct : ids (queued minExpiry orders incoming) := queued_distinct unique
  exact (sorted.and (List.pairwise_map.mp distinct)).imp fun both => (sortKey_le both.2).mp both.1

theorem Better.asymm {isBuy : Bool} {a b : Row} (ab : Better isBuy a b) (ba : Better isBuy b a) :
    False := by
  unfold Better at ab ba
  cases isBuy <;> simp only [Bool.false_eq_true, if_false, if_true] at ab ba <;> omega

/-! ### One matching -/

/-- How one matching served the makers of a book. -/
structure Matched (minExpiry : Int) (orders : List Row) (incoming : Row)
    (served : List (Row × Int)) (after : Result) : Prop where
  /-- Only eligible orders are filled, -/
  eligible : ∀ p ∈ served, p.1 ∈ orders ∧ Eligible minExpiry incoming p.1
  /-- one fill each, at the price of the maker, -/
  fills : List.Forall₂ (FillOf incoming) served after.fills
  /-- within what the maker has left, -/
  within : ∀ p ∈ served, 0 < p.2 ∧ p.2 ≤ p.1.remaining
  /-- the best price first and then the oldest, -/
  ordered : served.Pairwise fun p q => Better incoming.isBuy p.1 q.1
  /-- and nobody before all better ones are full. -/
  best : ∀ first p later, served = first ++ p :: later →
    ∀ o ∈ orders, Eligible minExpiry incoming o → Better incoming.isBuy o p.1 →
      o.remaining ≤ share (fun row : Row => row.id) first o.id
  /-- Nothing else changes in the book. -/
  book : after.db.orders = orders.map fun row => row.raise (gets incoming served row)
  incoming : after.incoming = incoming.raise (total served)

/-- What is filled of the others. -/
def othersFilled (incoming : Row) (orders : List Row) : Int :=
  ((orders.filter fun row => row.id ≠ incoming.id).map fun row => row.filled).sum

variable {served : List (Row × Int)} {after : Result}

theorem total_fills (matched : Matched minExpiry orders incoming served after) :
    (after.fills.map fun fill => fill.fillAmount).sum = total served := by
  have amounts : ∀ {served : List (Row × Int)} {fills : List Fill},
      List.Forall₂ (FillOf incoming) served fills →
      fills.map (fun fill => fill.fillAmount) = served.map Prod.snd := by
    intro served fills each
    induction each with
    | nil => rfl
    | cons here _ ih => rw [List.map_cons, List.map_cons, here.amount, ih]
  rw [amounts matched.fills]

/-- The room of the incoming order handed out to the queue. -/
def handed (minExpiry : Int) (orders : List Row) (incoming : Row) : List (Row × Int) :=
  allocate (fun row : Row => row.remaining) incoming.remaining (queued minExpiry orders incoming)

theorem handed_within {p : Row × Int} (member : p ∈ handed minExpiry orders incoming) :
    0 < p.2 ∧ p.2 ≤ p.1.remaining := by
  refine allocate_bounds (fun a tried => ?_) member
  exact (mem_queued.mp tried).2.2.2

theorem handed_queued {p : Row × Int} (member : p ∈ handed minExpiry orders incoming) :
    p.1 ∈ queued minExpiry orders incoming :=
  allocate_prefix.subset (List.mem_map_of_mem member)

theorem handed_sorted (unique : ids orders) :
    (handed minExpiry orders incoming).Pairwise fun p q => Better incoming.isBuy p.1 q.1 :=
  List.pairwise_map.mp ((queued_sorted unique).sublist allocate_prefix.sublist)

/-- Whoever is better than somebody served is full by then. -/
theorem handed_best (unique : ids orders) {first later : List (Row × Int)} {p : Row × Int}
    (split : handed minExpiry orders incoming = first ++ p :: later) (there : o ∈ orders)
    (apart : o.id ≠ incoming.id) (eligible : Eligible minExpiry incoming o)
    (better : Better incoming.isBuy o p.1) :
    o.remaining ≤ share (fun row : Row => row.id) first o.id := by
  have positive : ∀ q ∈ first, 0 < q.2 := by
    intro q among
    have member : q ∈ handed minExpiry orders incoming := by
      rw [split]
      exact List.mem_append_left _ among
    exact (handed_within member).1
  rcases le_or_gt o.remaining 0 with full | room
  · exact full.trans (share_nonneg positive)
  · -- the queue is `first`, then `p`, then worse ones
    have tried : o ∈ queued minExpiry orders incoming :=
      mem_queued.mpr ⟨there, apart, eligible, room⟩
    have front : (handed minExpiry orders incoming).map Prod.fst <+:
        queued minExpiry orders incoming := allocate_prefix
    rcases front with ⟨rest, whole⟩
    rw [split] at whole
    have sorted : (queued minExpiry orders incoming).Pairwise _ := queued_sorted unique
    rw [← whole, List.map_append, List.map_cons, List.append_assoc, List.cons_append]
      at sorted tried
    have after_p := (List.pairwise_append.mp sorted).2.1
    rw [List.pairwise_cons] at after_p
    rcases List.mem_append.mp tried with before | behind
    · rcases List.mem_map.mp before with ⟨q, among, rfl⟩
      rw [← allocate_full_before split among]
      exact le_share positive among
    · rcases List.mem_cons.mp behind with same | worse
      · rw [same] at better
        exact (better.asymm better).elim
      · exact (better.asymm (after_p.1 o worse)).elim

theorem tryMatch_spec (unique : ids db.orders) (stored : incoming ∈ db.orders) :
    let minExpiry := s.now + s.relayerMinExpirySeconds
    Matched minExpiry db.orders incoming (handed minExpiry db.orders incoming)
      (tryMatch s false db incoming) := by
  intro minExpiry
  have loop : (tryMatch s false db incoming).db.orders =
        db.orders.map (fun row =>
          row.raise (gets incoming (handed minExpiry db.orders incoming) row)) ∧
      (tryMatch s false db incoming).incoming =
        incoming.raise (total (handed minExpiry db.orders incoming)) ∧
      List.Forall₂ (FillOf incoming) (handed minExpiry db.orders incoming)
        (tryMatch s false db incoming).fills := by
    cases live : incoming.cancelled with
    | false =>
        have queue : ∀ maker ∈ queued minExpiry db.orders incoming,
            Queued db incoming maker := by
          intro maker tried
          rcases mem_queued.mp tried with ⟨there, apart, eligible, room⟩
          exact ⟨there, apart, eligible.live.2, room⟩
        have run := @fillAll_spec s _ _ _ [] unique stored live queue (queued_distinct unique)
        rcases run with ⟨book, room, more, fills, each⟩
        refine ⟨book, room, ?_⟩
        rw [List.nil_append] at fills
        rw [← fills] at each
        exact each
    | true =>
        -- a cancelled order crosses nobody
        have nobody : queued minExpiry db.orders incoming = [] := by
          refine List.eq_nil_iff_forall_not_mem.mpr fun o tried => ?_
          rw [(mem_queued.mp tried).2.2.1.live.1] at live
          cases live
        have none : handed minExpiry db.orders incoming = [] := by
          rw [handed, nobody]
          rfl
        have done : tryMatch s false db incoming = ⟨db, incoming, []⟩ := by
          change fillAll s (queued minExpiry db.orders incoming) db incoming [] = _
          rw [nobody]
          rfl
        rw [none, done]
        simp [total]
  rcases loop with ⟨book, room, fills⟩
  refine ⟨?_, fills, ?_, handed_sorted unique, ?_, book, room⟩
  · intro p member
    rcases mem_queued.mp (handed_queued member) with ⟨there, -, eligible, -⟩
    exact ⟨there, eligible⟩
  · intro p member
    exact handed_within member
  · intro first p later split o there eligible better
    refine handed_best unique split there ?_ eligible better
    rintro same
    rw [unique.eq_of_key there stored same] at eligible
    exact eligible.other rfl

/-- Nobody eligible has room left unless the incoming order is full. -/
theorem handed_complete (stored : incoming ∈ db.orders) (unique : ids db.orders)
    (matched : Matched minExpiry db.orders incoming (handed minExpiry db.orders incoming) after) :
    after.incoming.remaining ≤ 0 ∨
      ∀ o ∈ after.db.orders, Eligible minExpiry after.incoming o → o.remaining ≤ 0 := by
  have positive : ∀ q ∈ handed minExpiry db.orders incoming, 0 < q.2 :=
    fun q member => (handed_within member).1
  rw [matched.incoming, raise_remaining]
  have exhausts : _ ∨ handed minExpiry db.orders incoming = _ := allocate_exhausts
  rcases exhausts with spent | everybody
  · exact .inl spent
  · right
    intro o there eligible
    rw [matched.book] at there
    rcases List.mem_map.mp there with ⟨row, among, rfl⟩
    have before : Eligible minExpiry incoming row :=
      ⟨eligible.market, eligible.outcome, eligible.side, eligible.live, eligible.unexpired,
        eligible.other, eligible.price⟩
    have apart : row.id ≠ incoming.id := by
      intro same
      rw [unique.eq_of_key among stored same] at before
      exact before.other rfl
    rw [raise_remaining, gets, if_neg apart, Int.add_zero]
    have some_share := @share_nonneg _ _ _ (fun row : Row => row.id) _ row.id positive
    rcases le_or_gt row.remaining 0 with full | room
    · omega
    · have tried : row ∈ queued minExpiry db.orders incoming :=
        mem_queued.mpr ⟨among, apart, before, room⟩
      have served : (row, row.remaining) ∈ handed minExpiry db.orders incoming := by
        rw [everybody]
        exact List.mem_map_of_mem tried
      have whole : row.remaining ≤ share (fun row : Row => row.id) _ row.id :=
        le_share positive served
      omega

/-- What the makers are filled by is what was handed out. -/
theorem othersFilled_grows (unique : ids orders)
    (matched : Matched minExpiry orders incoming served after)
    (apart : ∀ p ∈ served, p.1.id ≠ incoming.id) :
    othersFilled incoming after.db.orders = othersFilled incoming orders + total served := by
  have others : ids (orders.filter fun row => row.id ≠ incoming.id) :=
    unique.sublist (List.filter_sublist.map _)
  have held : ∀ p ∈ served, Keyed.Holds (fun row : Row => row.id)
      (orders.filter fun row => row.id ≠ incoming.id) p.1.id := by
    intro p member
    refine ⟨p.1, List.mem_filter.mpr ⟨(matched.eligible p member).1, ?_⟩, rfl⟩
    simpa using apart p member
  have shares : (orders.filter fun row => row.id ≠ incoming.id).map
        ((fun row : Row => row.filled) ∘ fun row => row.raise (gets incoming served row)) =
      (orders.filter fun row => row.id ≠ incoming.id).map fun row =>
        row.filled + share (fun row : Row => row.id) served row.id := by
    refine List.map_congr_left fun row among => ?_
    have other : row.id ≠ incoming.id := by simpa using (List.mem_filter.mp among).2
    simp only [Function.comp_apply, Row.raise, Order.raise, gets, if_neg other, Int.add_zero]
  unfold othersFilled
  rw [matched.book, List.filter_map, List.map_map]
  change ((orders.filter fun row => row.id ≠ incoming.id).map _).sum = _
  rw [shares, List.sum_map_add, sum_share others held]

/-- With nobody else writing and trading open, a matching fills the eligible orders in
price-time order, fills both sides by the same total, and leaves no cross. -/
theorem price_time_matching (s : Settings) (db : Db) (incoming : Row)
    (unique : ids db.orders) (stored : incoming ∈ db.orders) :
    let minExpiry := s.now + s.relayerMinExpirySeconds
    let after := tryMatch s false db incoming
    let filled := (after.fills.map fun fill => fill.fillAmount).sum
    (∃ served, Matched minExpiry db.orders incoming served after) ∧
      filled = after.incoming.filled - incoming.filled ∧
      filled = othersFilled incoming after.db.orders - othersFilled incoming db.orders ∧
      after.incoming ∈ after.db.orders ∧
      (0 ≤ incoming.remaining → 0 ≤ after.incoming.remaining) ∧
      (after.incoming.remaining ≤ 0 ∨
        ∀ o ∈ after.db.orders, Eligible minExpiry after.incoming o → o.remaining ≤ 0) := by
  intro minExpiry after filled
  have matched : Matched minExpiry db.orders incoming (handed minExpiry db.orders incoming) after :=
    tryMatch_spec unique stored
  have apart : ∀ p ∈ handed minExpiry db.orders incoming, p.1.id ≠ incoming.id :=
    fun p member => (mem_queued.mp (handed_queued member)).2.1
  have whole : filled = total (handed minExpiry db.orders incoming) := total_fills matched
  refine ⟨⟨_, matched⟩, ?_, ?_, ?_, ?_, handed_complete stored unique matched⟩
  · rw [whole, matched.incoming]
    simp only [Row.raise, Order.raise]
    omega
  · rw [whole, othersFilled_grows unique matched apart]
    omega
  · rw [matched.book, matched.incoming]
    refine List.mem_map.mpr ⟨incoming, stored, ?_⟩
    rw [gets, share_of_absent apart, if_pos rfl, Int.zero_add]
  · intro room
    have within : total (handed minExpiry db.orders incoming) ≤ incoming.remaining :=
      allocate_sum_le room
    rw [matched.incoming, raise_remaining]
    omega

/-- An order of `amount` of one market, alive until 1000. -/
def limit (id maker : Nat) (isBuy : Bool) (price amount : Int) : Row :=
  { id, maker, conditionId := 7, isBuy, outcome := 0, price, amount, filled := 0, expiry := 1000
    cancelled := false, orderHash := id }

/-- Two asks, the older one dearer, and a bid that takes all of the cheaper one. -/
def twoAsks : Db :=
  { orders := [limit 1 11 false 600000 5, limit 2 12 false 500000 3, limit 3 13 true 600000 6]
    jobs := [], trades := [] }

theorem two_asks_matched :
    let s : Settings := ⟨0, 60, 100, false⟩
    let after := tryMatch s false twoAsks (limit 3 13 true 600000 6)
    (after.fills.map fun fill => (fill.makerHash, fill.fillAmount)) = [(2, 3), (1, 3)] ∧
      (after.fills.map fun fill => fill.fillAmount).sum = after.incoming.filled - 0 := by
  refine ⟨by decide +kernel, ?_⟩
  exact (price_time_matching ⟨0, 60, 100, false⟩ twoAsks (limit 3 13 true 600000 6)
    (by simp [ids, Keyed.Unique, twoAsks, limit]) (by simp [twoAsks])).2.1

end OverUnder.Backend.Matcher
