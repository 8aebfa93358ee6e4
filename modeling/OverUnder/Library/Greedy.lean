/-
Module: OverUnder.Library.Greedy
Purpose: Handing out a quantity to a queue, each taking what it has room for, until
  nothing is left; and what the rows of a keyed table get of it.
Trusted boundary: none
Main exports: allocate, allocate_prefix, allocate_bounds, allocate_sum_le,
  allocate_exhausts, allocate_full_before, share, share_cons, le_share, sum_share
-/
import Mathlib
import OverUnder.Library.Keyed

namespace OverUnder.Library.Greedy

variable {α : Type} (capacity : α → Int)

/-- What each of the queue gets of `room`, up to its capacity, the first ones first. -/
def allocate (room : Int) : List α → List (α × Int)
  | [] => []
  | a :: rest =>
      if room ≤ 0 then []
      else (a, min room (capacity a)) :: allocate (room - min room (capacity a)) rest

variable {capacity} {room : Int} {queue : List α}

theorem allocate_of_nonpos (none_left : room ≤ 0) : allocate capacity room queue = [] := by
  cases queue with
  | nil => rfl
  | cons a rest => exact if_pos none_left

/-- The queue is served from its front. -/
theorem allocate_prefix : (allocate capacity room queue).map Prod.fst <+: queue := by
  induction queue generalizing room with
  | nil => exact List.prefix_rfl
  | cons a rest ih =>
      unfold allocate
      split
      · exact List.nil_prefix
      · exact (List.prefix_cons_inj a).mpr ih

theorem allocate_bounds (positive : ∀ a ∈ queue, 0 < capacity a) {p : α × Int}
    (member : p ∈ allocate capacity room queue) : 0 < p.2 ∧ p.2 ≤ capacity p.1 := by
  induction queue generalizing room with
  | nil => cases member
  | cons a rest ih =>
      unfold allocate at member
      split at member
      · cases member
      · next some_room =>
        rcases List.mem_cons.mp member with rfl | later
        · exact ⟨lt_min (Int.not_le.mp some_room) (positive a (.head _)), min_le_right _ _⟩
        · exact ih (fun b below => positive b (.tail _ below)) later

/-- No more is handed out than there is. -/
theorem allocate_sum_le (some_room : 0 ≤ room) :
    ((allocate capacity room queue).map Prod.snd).sum ≤ room := by
  induction queue generalizing room with
  | nil => exact some_room
  | cons a rest ih =>
      unfold allocate
      split
      · exact some_room
      · rw [List.map_cons, List.sum_cons]
        have left : 0 ≤ room - min room (capacity a) := Int.sub_nonneg_of_le (min_le_left _ _)
        have handed := ih left
        omega

/-- Either everything is handed out or everybody is full. -/
theorem allocate_exhausts :
    room - ((allocate capacity room queue).map Prod.snd).sum ≤ 0 ∨
      allocate capacity room queue = queue.map fun a => (a, capacity a) := by
  induction queue generalizing room with
  | nil => exact .inr rfl
  | cons a rest ih =>
      unfold allocate
      split
      · next none_left => exact .inl (by simpa using none_left)
      · rcases Int.le_total room (capacity a) with short | roomy
        · left
          rw [min_eq_left short, allocate_of_nonpos (by omega)]
          simp
        · rw [min_eq_right roomy]
          rcases @ih (room - capacity a) with spent | full
          · left
            rw [List.map_cons, List.sum_cons]
            omega
          · right
            rw [full]
            rfl

/-- Whoever stands before somebody served is full. -/
theorem allocate_full_before {before after : List (α × Int)} {p q : α × Int}
    (served : allocate capacity room queue = before ++ p :: after) (first : q ∈ before) :
    q.2 = capacity q.1 := by
  induction queue generalizing room before with
  | nil => simp [allocate] at served
  | cons a rest ih =>
      unfold allocate at served
      split at served
      · simp at served
      · cases before with
        | nil => cases first
        | cons r before =>
            rw [List.cons_append, List.cons.injEq] at served
            rcases served with ⟨here, later⟩
            rcases List.mem_cons.mp first with rfl | among
            · rw [← here]
              rcases Int.le_total room (capacity a) with short | roomy
              · rw [min_eq_left short, allocate_of_nonpos (by omega)] at later
                simp at later
              · exact min_eq_right roomy
            · exact ih later among

/-! ### Shares by key -/

section Shares

variable {κ : Type} [DecidableEq κ] (key : α → κ)

/-- What the pairs under one key add up to. -/
def share (pairs : List (α × Int)) (k : κ) : Int :=
  ((pairs.filter fun p => key p.1 = k).map Prod.snd).sum

variable {key} {pairs : List (α × Int)} {p : α × Int} {k : κ}

@[simp] theorem share_nil : share key [] k = 0 := rfl

theorem share_cons :
    share key (p :: pairs) k = (if key p.1 = k then p.2 else 0) + share key pairs k := by
  unfold share
  by_cases same : key p.1 = k
  · rw [List.filter_cons_of_pos (by simpa using same), if_pos same, List.map_cons, List.sum_cons]
  · rw [List.filter_cons_of_neg (by simpa using same), if_neg same, Int.zero_add]

theorem share_nonneg (positive : ∀ q ∈ pairs, 0 < q.2) : 0 ≤ share key pairs k := by
  induction pairs with
  | nil => exact Int.le_refl 0
  | cons q rest ih =>
      have below := ih fun r later => positive r (.tail _ later)
      have here := positive q (.head _)
      rw [share_cons]
      split <;> omega

/-- A pair is part of the share of its key. -/
theorem le_share (positive : ∀ q ∈ pairs, 0 < q.2) (member : p ∈ pairs) :
    p.2 ≤ share key pairs (key p.1) := by
  induction pairs with
  | nil => cases member
  | cons q rest ih =>
      have others : ∀ r ∈ rest, 0 < r.2 := fun r later => positive r (.tail _ later)
      have here := positive q (.head _)
      rw [share_cons]
      rcases List.mem_cons.mp member with rfl | later
      · have below : 0 ≤ share key rest (key p.1) := share_nonneg others
        rw [if_pos rfl]
        omega
      · have below := ih others later
        split <;> omega

theorem share_of_absent (absent : ∀ q ∈ pairs, key q.1 ≠ k) : share key pairs k = 0 := by
  induction pairs with
  | nil => rfl
  | cons q rest ih =>
      rw [share_cons, if_neg (absent q (.head _)), ih fun r later => absent r (.tail _ later)]
      rfl

/-- In a keyed table one row has the key. -/
theorem sum_of_key {table : List α} (unique : Keyed.Unique key table)
    (held : Keyed.Holds key table k) (x : Int) :
    (table.map fun a => if k = key a then x else 0).sum = x := by
  induction table with
  | nil => simp at held
  | cons a rest ih =>
      rw [Keyed.Unique, List.map_cons, List.nodup_cons] at unique
      rcases unique with ⟨fresh, unique⟩
      rw [List.map_cons, List.sum_cons]
      by_cases here : k = key a
      · have none_later : ∀ b ∈ rest, (if k = key b then x else 0) = 0 := by
          intro b below
          refine if_neg fun same => fresh ?_
          rw [← here, same]
          exact List.mem_map_of_mem below
        rw [if_pos here, List.map_congr_left none_later]
        simp
      · rcases held with ⟨b, among, same⟩
        rcases List.mem_cons.mp among with rfl | below
        · exact absurd same.symm here
        · rw [if_neg here, ih unique ⟨b, below, same⟩, Int.zero_add]

/-- The shares of a table add up to what was handed out. -/
theorem sum_share {table : List α} (unique : Keyed.Unique key table)
    (held : ∀ p ∈ pairs, Keyed.Holds key table (key p.1)) :
    (table.map fun a => share key pairs (key a)).sum = (pairs.map Prod.snd).sum := by
  induction pairs with
  | nil => simp
  | cons p rest ih =>
      have split : (table.map fun a => share key (p :: rest) (key a)) =
          table.map fun a => (if key p.1 = key a then p.2 else 0) + share key rest (key a) :=
        List.map_congr_left fun a _ => share_cons
      rw [split, List.sum_map_add, sum_of_key unique (held p (.head _)),
        ih fun q later => held q (.tail _ later), List.map_cons, List.sum_cons]

end Shares

end OverUnder.Library.Greedy
