/-
Module: OverUnder.Proofs.ScoutFairness
Purpose: Which games the score scout reaches: the recent ones are never crowded out by the
  backlog, and every game of the backlog gets its turn as the rotation goes round.
Trusted boundary: none
Main exports: scan_eq, selectTargets_eq, rotated_head, exists_turn, backlog_gets_its_turn
-/
import OverUnder.Oracles.Scores

namespace OverUnder.Oracles.Scores

variable {fetchDetail : String → Option Detail} {now window maxAge recent : Int} {cap : Nat}
variable {primaries games : List Primary} {primary : Primary}

/-- The loop takes the wanted games in order, up to the cap. -/
theorem scan_eq (selected rest : List Primary) (within : selected.length ≤ cap) :
    scan fetchDetail now window cap selected rest =
      selected ++ (rest.filter (wanted fetchDetail now window)).take (cap - selected.length) := by
  induction rest generalizing selected with
  | nil => simp [scan]
  | cons primary rest ih =>
      unfold scan
      split
      · next full =>
        have none : cap - selected.length = 0 := by omega
        rw [none, List.take_zero, List.append_nil]
      · next free =>
        split
        · next asked =>
          have left : cap - selected.length = (cap - (selected ++ [primary]).length) + 1 := by
            rw [List.length_append, List.length_singleton]
            omega
          rw [ih _ (by rw [List.length_append, List.length_singleton]; omega), left,
            List.filter_cons_of_pos asked, List.take_succ_cons, List.append_assoc]
          rfl
        · next skipped =>
          rw [ih _ within, List.filter_cons_of_neg skipped]

theorem selectTargets_eq :
    selectTargets primaries fetchDetail now cap window maxAge recent =
      ((freshTier primaries now maxAge recent ++
        rotated now (backlog primaries now maxAge recent)).filter
          (wanted fetchDetail now window)).take cap := by
  rw [selectTargets, scan_eq _ _ (Nat.zero_le _)]
  rfl

/-- In every round of as many periods as there are places, each place comes up. -/
theorem exists_turn (first : Int) {places place : Nat} (there : place < places) :
    ∃ turn : Nat, turn < places ∧ ((first + turn) % places).toNat = place := by
  have some_places : (0 : Int) < places := by omega
  refine ⟨((place - first) % places).toNat, ?_, ?_⟩
  · have below := Int.emod_lt_of_pos (place - first) some_places
    have above := Int.emod_nonneg (place - first) some_places.ne'
    omega
  · have above := Int.emod_nonneg (place - first) some_places.ne'
    rw [Int.toNat_of_nonneg above, Int.add_emod, Int.emod_emod_of_dvd _ (dvd_refl _),
      ← Int.add_emod, add_sub_cancel, Int.emod_eq_of_lt (by omega) (by omega)]
    rfl

/-- The game whose place the shift is heads the rotated backlog. -/
theorem rotated_head {place : Nat} (there : place < games.length)
    (turn : (period now % games.length).toNat = place) :
    ∃ rest, rotated now games = games[place] :: rest := by
  have some_games : games.isEmpty = false := by
    cases games with
    | nil => cases there
    | cons _ _ => rfl
  unfold rotated
  simp only [turn, some_games, Bool.false_eq_true, if_false]
  rw [← List.getElem_cons_drop there]
  exact ⟨_, rfl⟩

namespace Tick

variable {tick : Tick}

theorem targets_eq : tick.targets =
    ((tick.freshTier ++ rotated tick.now tick.backlog).filter tick.wants).take tick.cap :=
  selectTargets_eq

/-- The backlog takes only what the recent games leave. -/
theorem fresh_first : (tick.freshTier.filter tick.wants).take tick.cap <+: tick.targets := by
  rw [targets_eq, List.filter_append, List.take_append]
  exact List.prefix_append _ _

/-- The game that heads the rotated backlog is selected if the recent games leave a slot. -/
theorem head_selected {rest : List Primary} (wants : tick.wants primary = true)
    (slot : (tick.freshTier.filter tick.wants).length < tick.cap)
    (head : rotated tick.now tick.backlog = primary :: rest) : primary ∈ tick.targets := by
  obtain ⟨more, left⟩ := Nat.exists_eq_add_of_lt slot
  rw [targets_eq, head, List.filter_append, List.filter_cons_of_pos wants, List.take_append]
  apply List.mem_append_right
  rw [show tick.cap - (tick.freshTier.filter tick.wants).length = more + 1 by omega,
    List.take_succ_cons]
  exact .head _

/-- What is selected was listed, passed the filters and is wanted. -/
theorem target_sound (selected : primary ∈ tick.targets) :
    primary ∈ tick.primaries ∧ eligible tick.now tick.maxAge primary = true ∧
      tick.wants primary = true := by
  rw [targets_eq] at selected
  obtain ⟨listed, wants⟩ := List.mem_filter.mp (List.mem_of_mem_take selected)
  have eligible : primary ∈ (tick.primaries.mergeSort closeOrder).filter
      (eligible tick.now tick.maxAge) := by
    rcases List.mem_append.mp listed with fresh | late
    · exact (List.mem_filter.mp fresh).1
    · have unrotated : primary ∈ tick.backlog := by
        unfold rotated at late
        dsimp only at late
        split at late
        · exact late
        · rcases List.mem_append.mp late with back | front
          · exact List.mem_of_mem_drop back
          · exact List.mem_of_mem_take front
      exact (List.mem_filter.mp unrotated).1
  obtain ⟨sorted, passes⟩ := List.mem_filter.mp eligible
  exact ⟨List.mem_mergeSort.mp sorted, passes, wants⟩

end Tick

/-- In any tick the recent games come first and only wanted, eligible games are selected, within
the cap. While the backlog stays as it is and the recent games leave a slot, each of its games is
selected in one of any as many consecutive periods as it has games, whatever the others do. -/
theorem backlog_gets_its_turn :
    (∀ tick : Tick, (tick.freshTier.filter tick.wants).take tick.cap <+: tick.targets ∧
      tick.targets.length ≤ tick.cap ∧
      ∀ primary ∈ tick.targets, primary ∈ tick.primaries ∧
        eligible tick.now tick.maxAge primary = true ∧ tick.wants primary = true) ∧
    ∀ (first : Int) (games : List Primary), ∀ primary ∈ games, ∃ turn < games.length,
      ∀ tick : Tick, period tick.now = first + turn → tick.backlog = games →
        tick.wants primary = true → (tick.freshTier.filter tick.wants).length < tick.cap →
          primary ∈ tick.targets := by
  constructor
  · intro tick
    refine ⟨Tick.fresh_first, ?_, fun primary selected => Tick.target_sound selected⟩
    rw [Tick.targets_eq]
    exact List.length_take_le _ _
  · intro first games primary listed
    obtain ⟨place, there, rfl⟩ := List.getElem_of_mem listed
    obtain ⟨turn, within, comes_up⟩ := exists_turn first there
    refine ⟨turn, within, fun tick now same wants slot => ?_⟩
    subst same
    rw [← now] at comes_up
    obtain ⟨rest, head⟩ := rotated_head there comes_up
    exact Tick.head_selected wants slot head

/-- A tick of the period with the given number, with two old games and one slot. -/
def sampleTick (number : Int) : Tick where
  primaries := [⟨"0x01", false, 100⟩, ⟨"0x02", false, 200⟩]
  fetchDetail := fun _ => some ⟨false, none⟩
  now := (1000000 + 900 * number) * second
  cap := 1
  window := 600
  maxAge := 0
  recent := 129600

theorem sampleTick_sorted (number : Int) :
    (sampleTick number).primaries.mergeSort closeOrder = (sampleTick number).primaries := by
  apply List.mergeSort_of_pairwise
  simp [sampleTick, closeOrder]

/-- One slot goes to the two games in turn. -/
theorem sample_backlog_gets_its_turn :
    ∃ turn : Nat, turn < 2 ∧ ⟨"0x02", false, 200⟩ ∈ (sampleTick turn).targets := by
  have games : ∀ number, (number = 0 ∨ number = 1) →
      (sampleTick number).backlog = [⟨"0x01", false, 100⟩, ⟨"0x02", false, 200⟩] ∧
      (sampleTick number).wants ⟨"0x02", false, 200⟩ = true ∧
      ((sampleTick number).freshTier.filter (sampleTick number).wants).length <
        (sampleTick number).cap ∧
      period (sampleTick number).now = 1111 + number := by
    intro number either
    simp only [Tick.backlog, backlog, Tick.freshTier, freshTier, sampleTick_sorted]
    rcases either with rfl | rfl
    · decide +kernel
    · decide +kernel
  obtain ⟨turn, within, serves⟩ := backlog_gets_its_turn.2 1111
    [⟨"0x01", false, 100⟩, ⟨"0x02", false, 200⟩] ⟨"0x02", false, 200⟩ (.tail _ (.head _))
  have either : (turn : Int) = 0 ∨ (turn : Int) = 1 := by
    simp only [List.length_cons, List.length_nil] at within
    omega
  obtain ⟨same, wants, slot, now⟩ := games turn either
  exact ⟨turn, within, serves _ now same wants slot⟩

end OverUnder.Oracles.Scores
