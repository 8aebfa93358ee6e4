/-
Module: OverUnder.Proofs.ScheduleAgreement
Purpose: What the schedule scouts agree on: the games in every report that no other such game
  shares its matchup with, listed in the one order that does not depend on how the reports or the
  sets are listed; all other games are disputed.
Trusted boundary: none
Main exports: Unanimous, Agreed, mem_common, agreedGames_partition, Iteration.sorted
-/
import Mathlib
import OverUnder.Oracles.Schedule

namespace OverUnder.Oracles.Schedule

variable {iteration : Iteration} {reports : List (List ScheduleGame)}
  {game other : ScheduleGame}

/-- Some scout reported, and every one reported this game. -/
def Unanimous (reports : List (List ScheduleGame)) (game : ScheduleGame) : Prop :=
  reports ≠ [] ∧ ∀ games ∈ reports, game ∈ games

/-- A game of every report, and the only one of its matchup. -/
def Agreed (reports : List (List ScheduleGame)) (game : ScheduleGame) : Prop :=
  Unanimous reports game ∧ ∀ other, Unanimous reports other → matchup other = matchup game →
    other = game

theorem mem_foldl_inter {sets : List (List ScheduleGame)} {s : Finset ScheduleGame} :
    game ∈ sets.foldl (fun s games => s ∩ games.toFinset) s ↔
      game ∈ s ∧ ∀ games ∈ sets, game ∈ games := by
  induction sets generalizing s with
  | nil => simp
  | cons games rest ih =>
      rw [List.foldl_cons, ih, Finset.mem_inter, List.mem_toFinset, List.forall_mem_cons, and_assoc]

theorem mem_common : game ∈ common reports ↔ Unanimous reports game := by
  cases reports with
  | nil => simp [common, Unanimous]
  | cons first rest =>
      unfold common Unanimous
      rw [mem_foldl_inter, List.mem_toFinset, List.forall_mem_cons]
      simp

/-- A game counted once for its matchup is the only one of it. -/
theorem perMatchup_eq_one (unanimous : Unanimous reports game) :
    perMatchup reports game = 1 ↔ Agreed reports game := by
  have here : game ∈ (common reports).filter fun other => matchup other = matchup game :=
    Finset.mem_filter.mpr ⟨mem_common.mpr unanimous, rfl⟩
  unfold perMatchup
  rw [Finset.card_eq_one]
  constructor
  · intro single
    rcases single with ⟨only, same⟩
    refine ⟨unanimous, ?_⟩
    intro other also shared
    have there : other ∈ (common reports).filter fun other => matchup other = matchup game :=
      Finset.mem_filter.mpr ⟨mem_common.mpr also, shared⟩
    rw [same, Finset.mem_singleton] at here there
    exact there.trans here.symm
  · intro agreed
    refine ⟨game, Finset.eq_singleton_iff_unique_mem.mpr ⟨here, ?_⟩⟩
    intro other there
    rcases Finset.mem_filter.mp there with ⟨also, shared⟩
    exact agreed.2 other (mem_common.mp also) shared

/-- The games agreed on, before they are sorted. -/
def agreedList (iteration : Iteration) (reports : List (List ScheduleGame)) : List ScheduleGame :=
  (iteration.list (common reports)).filter fun game => perMatchup reports game = 1

theorem mem_agreedList : game ∈ agreedList iteration reports ↔ Agreed reports game := by
  unfold agreedList
  rw [List.mem_filter, iteration.mem_list, mem_common, decide_eq_true_iff]
  constructor
  · intro kept
    exact (perMatchup_eq_one kept.1).mp kept.2
  · intro agreed
    exact ⟨agreed.1, (perMatchup_eq_one agreed.1).mpr agreed⟩

theorem mem_sortGames {games : List ScheduleGame} : game ∈ sortGames games ↔ game ∈ games :=
  List.mem_insertionSort _

theorem sortGames_sorted (games : List ScheduleGame) :
    (sortGames games).Pairwise fun a b => gameOrder a ≤ gameOrder b := by
  have total : Std.Total fun a b : ScheduleGame => gameOrder a ≤ gameOrder b :=
    ⟨fun a b => le_total _ _⟩
  have transitive : IsTrans ScheduleGame fun a b => gameOrder a ≤ gameOrder b :=
    ⟨fun _ _ _ => le_trans⟩
  exact List.pairwise_insertionSort _ games

/-- Games with the same place in the order have the same matchup. -/
theorem matchup_of_gameOrder (same : gameOrder game = gameOrder other) :
    matchup game = matchup other := by
  unfold gameOrder at same
  simp only [toLex_inj, Prod.mk.injEq] at same
  rcases same with ⟨season, week, _, away, home⟩
  simp [matchup, season, week, away, home]

theorem nodup_eraseDups (games : List ScheduleGame) : games.eraseDups.Nodup := by
  induction size : games.length using Nat.strong_induction_on generalizing games with
  | _ n ih =>
      cases games with
      | nil => simp
      | cons game rest =>
          rw [List.eraseDups_cons, List.nodup_cons, List.mem_eraseDups]
          constructor
          · simp
          · apply ih _ _ _ rfl
            rw [← size, List.length_cons]
            exact Nat.lt_succ_of_le (List.length_filter_le ..)

/-- The games some scout reported and not all agree on, before they are sorted. -/
def disputedList (iteration : Iteration) (reports : List (List ScheduleGame)) : List ScheduleGame :=
  (byKey reports).filter fun game => !(agreedList iteration reports).contains game

theorem mem_disputedList : game ∈ disputedList iteration reports ↔
    (∃ games ∈ reports, game ∈ games) ∧ ¬Agreed reports game := by
  unfold disputedList byKey
  rw [List.mem_filter, List.mem_eraseDups, List.mem_flatten, Bool.not_eq_true', ← Bool.not_eq_true,
    List.contains_iff_mem, mem_agreedList]

/-- No reports are no agreement, and nothing to dispute. -/
theorem agreedGames_eq : agreedGames iteration reports =
    (sortGames (agreedList iteration reports), sortGames (disputedList iteration reports)) := by
  unfold agreedGames
  split
  · rename_i none
    subst none
    have agreed : agreedList iteration [] = [] := by
      apply List.eq_nil_iff_forall_not_mem.mpr
      intro game here
      exact (mem_agreedList.mp here).1.1 rfl
    have disputed : disputedList iteration [] = [] := rfl
    rw [agreed, disputed]
    rfl
  · rfl

/-- Games agreed on have matchups of their own. -/
theorem agreedList_matchups :
    (agreedList iteration reports).Pairwise fun a b => matchup a ≠ matchup b := by
  have nodup : (agreedList iteration reports).Nodup := (iteration.nodup _).filter _
  apply List.Pairwise.imp_of_mem _ nodup
  intro a b here there apart same
  have agreed := mem_agreedList.mp there
  exact apart (agreed.2 a (mem_agreedList.mp here).1 same)

theorem sortGames_perm (games : List ScheduleGame) : (sortGames games).Perm games :=
  List.perm_insertionSort _ games

theorem mem_agreedGames : game ∈ (agreedGames iteration reports).1 ↔ Agreed reports game := by
  rw [agreedGames_eq, mem_sortGames, mem_agreedList]

theorem mem_disputedGames : game ∈ (agreedGames iteration reports).2 ↔
    (∃ games ∈ reports, game ∈ games) ∧ ¬Agreed reports game := by
  rw [agreedGames_eq, mem_sortGames, mem_disputedList]

theorem agreedGames_matchups :
    (agreedGames iteration reports).1.Pairwise fun a b => matchup a ≠ matchup b := by
  rw [agreedGames_eq]
  exact (sortGames_perm _).symm.pairwise agreedList_matchups fun apart same => apart same.symm

theorem agreedGames_sorted :
    (agreedGames iteration reports).1.Pairwise fun a b => gameOrder a < gameOrder b := by
  have sorted : (agreedGames iteration reports).1.Pairwise
      fun a b => gameOrder a ≤ gameOrder b := by
    rw [agreedGames_eq]
    exact sortGames_sorted _
  apply (sorted.and agreedGames_matchups).imp
  intro a b both
  exact lt_of_le_of_ne both.1 fun same => both.2 (matchup_of_gameOrder same)

theorem disputedGames_nodup : (agreedGames iteration reports).2.Nodup := by
  rw [agreedGames_eq]
  exact (sortGames_perm _).symm.nodup ((nodup_eraseDups _).filter _)

theorem Agreed.of_perm {reordered : List (List ScheduleGame)} (same : reports.Perm reordered) :
    Agreed reordered game ↔ Agreed reports game := by
  have unanimous : ∀ other, Unanimous reordered other ↔ Unanimous reports other := by
    intro other
    unfold Unanimous
    simp only [same.mem_iff, ne_eq, ← List.length_eq_zero_iff, same.length_eq]
  unfold Agreed
  simp only [unanimous]

/-- However the reports and the sets are listed, the agreed games are one list. -/
theorem agreedGames_perm {reordered : List (List ScheduleGame)} (other : Iteration)
    (same : reports.Perm reordered) :
    (agreedGames other reordered).1 = (agreedGames iteration reports).1 := by
  have sorted : ∀ {i r}, (agreedGames i r).1.Nodup := by
    intro i r
    refine agreedGames_sorted.imp ?_
    rintro a b before rfl
    exact lt_irrefl _ before
  have perm : (agreedGames other reordered).1.Perm (agreedGames iteration reports).1 := by
    rw [List.perm_ext_iff_of_nodup sorted sorted]
    intro game
    rw [mem_agreedGames, mem_agreedGames, Agreed.of_perm same]
  refine perm.eq_of_pairwise ?_ agreedGames_sorted agreedGames_sorted
  intro a b _ _ before after
  exact absurd after (lt_asymm before)

/-- However the reports and the sets are listed, the disputed games are the same ones. -/
theorem disputedGames_perm {reordered : List (List ScheduleGame)} (other : Iteration)
    (same : reports.Perm reordered) :
    (agreedGames other reordered).2.Perm (agreedGames iteration reports).2 := by
  rw [List.perm_ext_iff_of_nodup disputedGames_nodup disputedGames_nodup]
  intro game
  rw [mem_disputedGames, mem_disputedGames, Agreed.of_perm same]
  simp only [same.mem_iff]

/-- Whatever order sets are listed in: the agreed games are those of every report that are alone in
their matchup, each matchup once and in strict order; the disputed ones are all the others that
were reported, each once and in order. Neither depends on the order of the sets or of the reports,
but for disputed games that stand at one place of the order. -/
theorem agreedGames_partition (iteration : Iteration) (reports : List (List ScheduleGame)) :
    (∀ game, game ∈ (agreedGames iteration reports).1 ↔ Agreed reports game) ∧
    (agreedGames iteration reports).1.Pairwise (fun a b => matchup a ≠ matchup b) ∧
    (agreedGames iteration reports).1.Pairwise (fun a b => gameOrder a < gameOrder b) ∧
    (∀ game, game ∈ (agreedGames iteration reports).2 ↔
      (∃ games ∈ reports, game ∈ games) ∧ ¬Agreed reports game) ∧
    (agreedGames iteration reports).2.Nodup ∧
    (agreedGames iteration reports).2.Pairwise (fun a b => gameOrder a ≤ gameOrder b) ∧
    ∀ (other : Iteration) (reordered : List (List ScheduleGame)), reports.Perm reordered →
      (agreedGames other reordered).1 = (agreedGames iteration reports).1 ∧
        (agreedGames other reordered).2.Perm (agreedGames iteration reports).2 := by
  refine ⟨fun _ => mem_agreedGames, agreedGames_matchups, agreedGames_sorted,
    fun _ => mem_disputedGames, disputedGames_nodup, ?_, ?_⟩
  · rw [agreedGames_eq]
    exact sortGames_sorted _
  · exact fun other reordered same =>
      ⟨agreedGames_perm other same, disputedGames_perm other same⟩

/-! ### A sample of reports -/

/-- All fields of a game, in an order. -/
def ScheduleGame.key (game : ScheduleGame) :
    (Int ×ₗ Int ×ₗ Int ×ₗ String ×ₗ String) ×ₗ String := toLex (gameOrder game, game.status)

theorem ScheduleGame.key_injective : Function.Injective ScheduleGame.key := by
  intro a b same
  cases a
  cases b
  simp only [key, gameOrder, toLex_inj, Prod.mk.injEq] at same
  simp only [mk.injEq]
  tauto

instance ScheduleGame.keyTrans : IsTrans ScheduleGame fun a b => a.key ≤ b.key :=
  ⟨fun _ _ _ => le_trans⟩

instance ScheduleGame.keyAntisymm : Std.Antisymm fun a b : ScheduleGame => a.key ≤ b.key :=
  ⟨fun _ _ less more => ScheduleGame.key_injective (le_antisymm less more)⟩

instance ScheduleGame.keyTotal : Std.Total fun a b : ScheduleGame => a.key ≤ b.key :=
  ⟨fun _ _ => le_total _ _⟩

/-- The sets in the order of their keys. -/
def Iteration.sorted : Iteration where
  list := fun s => s.sort fun a b => a.key ≤ b.key
  nodup := fun s => s.sort_nodup _
  mem_list := fun _ _ => Finset.mem_sort _

/-- The games of the first week that two scouts report: they agree on one, and not on when the
other one starts. -/
def sampleReports : List (List ScheduleGame) :=
  [[⟨"BUF", "KC", 1000, 1, 2026, "scheduled"⟩, ⟨"NYJ", "NE", 2000, 1, 2026, "scheduled"⟩],
    [⟨"NYJ", "NE", 3000, 1, 2026, "scheduled"⟩, ⟨"BUF", "KC", 1000, 1, 2026, "scheduled"⟩]]

/-- The theorem on the reports in both orders. -/
theorem agreedGames_partition_sample :
    (agreedGames .sorted sampleReports.reverse).1 =
      [⟨"BUF", "KC", 1000, 1, 2026, "scheduled"⟩] ∧
    (agreedGames .sorted sampleReports.reverse).2.Perm
      [⟨"NYJ", "NE", 2000, 1, 2026, "scheduled"⟩, ⟨"NYJ", "NE", 3000, 1, 2026, "scheduled"⟩] := by
  have values : agreedGames .sorted sampleReports =
      ([⟨"BUF", "KC", 1000, 1, 2026, "scheduled"⟩],
        [⟨"NYJ", "NE", 2000, 1, 2026, "scheduled"⟩, ⟨"NYJ", "NE", 3000, 1, 2026, "scheduled"⟩]) := by
    decide +kernel
  have same := (agreedGames_partition .sorted sampleReports).2.2.2.2.2.2 .sorted
    sampleReports.reverse (List.reverse_perm _).symm
  rw [values] at same
  exact same

end OverUnder.Oracles.Schedule
