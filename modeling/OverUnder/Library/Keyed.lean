/-
Module: OverUnder.Library.Keyed
Purpose: Tables with a unique key: `INSERT ... ON CONFLICT DO NOTHING`, lookup by key and
  updates of the row of a key, over any type of rows.
Trusted boundary: none
Main exports: Keyed.Holds, Keyed.Unique, Keyed.insertIgnore, Keyed.insertAll, Keyed.get,
  Keyed.modify, Keyed.get_insertIgnore, Keyed.get_modify, Keyed.Unique.once, Keyed.Unique.eq_of_key,
  Keyed.Unique.get_mem, Keyed.First, Keyed.mem_insertAll_nil, Keyed.First.finer,
  Keyed.First.filter, Keyed.First.of_filter
-/
import Mathlib

namespace OverUnder.Library.Keyed

variable {κ ρ : Type} (key : ρ → κ)

/-- The table has a row with the key. -/
def Holds (table : List ρ) (k : κ) : Prop := ∃ row ∈ table, key row = k

/-- No two rows share a key. -/
def Unique (table : List ρ) : Prop := (table.map key).Nodup

section Rows

variable {key} {table more : List ρ} {row : ρ} {k : κ}

@[simp] theorem holds_nil : ¬ Holds key [] k := by
  simp [Holds]

@[simp] theorem holds_append :
    Holds key (table ++ more) k ↔ Holds key table k ∨ Holds key more k := by
  simp only [Holds, List.mem_append, or_and_right, exists_or]

@[simp] theorem holds_singleton : Holds key [row] k ↔ key row = k := by
  simp [Holds]

/-- Two rows with one key are one row. -/
theorem Unique.eq_of_key (unique : Unique key table) {other : ρ} (mem : row ∈ table)
    (mem' : other ∈ table) (same : key row = key other) : row = other :=
  List.inj_on_of_nodup_map unique mem mem' same

end Rows

variable [DecidableEq κ]

instance (table : List ρ) (k : κ) : Decidable (Holds key table k) :=
  inferInstanceAs (Decidable (∃ row ∈ table, key row = k))

/-- `INSERT ... ON CONFLICT (key) DO NOTHING`. -/
def insertIgnore (table : List ρ) (row : ρ) : List ρ :=
  if Holds key table (key row) then table else table ++ [row]

def insertAll (table rows : List ρ) : List ρ := rows.foldl (insertIgnore key) table

/-- The row with the key. -/
def get (table : List ρ) (k : κ) : Option ρ := table.find? fun row => key row = k

/-- An update of the row with the key. -/
def modify (table : List ρ) (k : κ) (f : ρ → ρ) : List ρ :=
  table.map fun row => if key row = k then f row else row

variable {key} {table rows : List ρ} {row : ρ} {k : κ}

@[simp] theorem holds_insertIgnore :
    Holds key (insertIgnore key table row) k ↔ Holds key table k ∨ key row = k := by
  unfold insertIgnore
  split
  · next there =>
    constructor
    · exact Or.inl
    · rintro (held | rfl)
      · exact held
      · exact there
  · rw [holds_append, holds_singleton]

@[simp] theorem holds_insertAll :
    Holds key (insertAll key table rows) k ↔ Holds key table k ∨ Holds key rows k := by
  induction rows generalizing table with
  | nil => simp [insertAll]
  | cons row rest ih =>
      change Holds key (insertAll key (insertIgnore key table row) rest) k ↔ _
      rw [ih, holds_insertIgnore, or_assoc]
      simp [Holds]

theorem get_key (found : get key table k = some row) : key row = k := by
  have := List.find?_some found
  simpa using this

@[simp] theorem get_nil : get key [] k = none := rfl

theorem get_eq_none : get key table k = none ↔ ¬ Holds key table k := by
  simp [get, Holds]

theorem get_append {more : List ρ} :
    get key (table ++ more) k = (get key table k).or (get key more k) := by
  simp [get, List.find?_append]

theorem get_singleton : get key [row] k = if key row = k then some row else none := by
  simp [get, List.find?_cons]
  split <;> simp_all

/-- A new row is found where no row was. -/
theorem get_insertIgnore : get key (insertIgnore key table row) k =
    (get key table k).or (if key row = k then some row else none) := by
  unfold insertIgnore
  split
  · next held =>
    split
    · next same =>
      cases found : get key table k with
      | some other => rfl
      | none => exact absurd (same ▸ held) (get_eq_none.mp found)
    · rw [Option.or_none]
  · rw [get_append, get_singleton]

/-- An update that keeps the key changes the row with the key only. -/
theorem get_modify {j : κ} {f : ρ → ρ} (keeps : ∀ row, key (f row) = key row) :
    get key (modify key table j f) k = (get key table k).map fun row =>
      if k = j then f row else row := by
  induction table with
  | nil => rfl
  | cons row rest ih =>
      have there : key (if key row = j then f row else row) = key row := by
        split
        · exact keeps row
        · rfl
      unfold get modify at ih ⊢
      rw [List.map_cons, List.find?_cons, List.find?_cons, there]
      by_cases found : key row = k
      · subst found
        simp
      · simp only [found, decide_false]
        exact ih

namespace Unique

theorem insertIgnore (unique : Unique key table) : Unique key (insertIgnore key table row) := by
  unfold Keyed.insertIgnore
  split
  · exact unique
  · next absent =>
    unfold Unique
    rw [List.map_append, List.map_singleton]
    apply List.Nodup.append unique (List.nodup_singleton _)
    rw [List.disjoint_singleton, List.mem_map]
    exact absent

theorem insertAll (unique : Unique key table) : Unique key (insertAll key table rows) := by
  induction rows generalizing table with
  | nil => exact unique
  | cons row rest ih => exact ih unique.insertIgnore

/-- A key that is there is there once. -/
theorem once (unique : Unique key table) (held : Holds key table k) :
    (table.filter fun row => key row = k).length = 1 := by
  have counted : (table.map key).count k = 1 := by
    rcases held with ⟨row, mem, rfl⟩
    exact List.count_eq_one_of_mem unique (List.mem_map_of_mem mem)
  rw [← counted, List.count, List.countP_map, List.countP_eq_length_filter]
  congr 1

/-- A row of the table is the one found under its key. -/
theorem get_mem (unique : Unique key table) (mem : row ∈ table) :
    get key table (key row) = some row := by
  cases found : get key table (key row) with
  | none => exact absurd ⟨row, mem, rfl⟩ (get_eq_none.mp found)
  | some other =>
      rw [unique.eq_of_key (List.mem_of_find?_eq_some found) mem (get_key found)]

end Unique

/-! ### The first row with a key -/

/-- The row is the first of the list that has its key. -/
def First {κ ρ : Type} (key : ρ → κ) : List ρ → ρ → Prop
  | [], _ => False
  | head :: rest, row => row = head ∨ key head ≠ key row ∧ First key rest row

section First

variable {κ ρ σ : Type} {key other : ρ → κ} {rows : List ρ} {row : ρ}

theorem First.mem (first : First key rows row) : row ∈ rows := by
  induction rows with
  | nil => exact first.elim
  | cons head rest ih =>
      rcases first with rfl | ⟨-, first⟩
      · exact List.mem_cons_self
      · exact List.mem_cons_of_mem head (ih first)

theorem First.eq (first : First key rows row) {row' : ρ} (first' : First key rows row')
    (same : key row = key row') : row = row' := by
  induction rows with
  | nil => exact first.elim
  | cons head rest ih =>
      rcases first with rfl | ⟨apart, first⟩ <;> rcases first' with rfl | ⟨apart', first'⟩
      · rfl
      · exact absurd same apart'
      · exact absurd same.symm apart
      · exact ih first first'

/-- Every key that is there has a first row. -/
theorem exists_first [DecidableEq κ] (key : ρ → κ) (here : row ∈ rows) :
    ∃ first, First key rows first ∧ key first = key row := by
  induction rows with
  | nil => cases here
  | cons head rest ih =>
      by_cases same : key head = key row
      · exact ⟨head, .inl rfl, same⟩
      · rcases List.mem_cons.1 here with rfl | here
        · exact absurd rfl same
        · obtain ⟨first, stands, key_eq⟩ := ih here
          exact ⟨first, .inr ⟨key_eq ▸ same, stands⟩, key_eq⟩

theorem first_map {f : σ → ρ} {list : List σ} :
    First key (list.map f) row ↔ ∃ a, First (fun a => key (f a)) list a ∧ f a = row := by
  induction list with
  | nil =>
      constructor
      · exact fun none => none.elim
      · rintro ⟨a, none, -⟩
        exact none
  | cons head rest ih =>
      rw [List.map_cons]
      constructor
      · rintro (rfl | ⟨apart, first⟩)
        · exact ⟨head, .inl rfl, rfl⟩
        · obtain ⟨a, stands, rfl⟩ := ih.1 first
          exact ⟨a, .inr ⟨apart, stands⟩, rfl⟩
      · rintro ⟨a, rfl | ⟨apart, first⟩, rfl⟩
        · exact .inl rfl
        · exact .inr ⟨apart, ih.2 ⟨a, first, rfl⟩⟩

/-- The first row with a key is the first under a finer one. -/
theorem First.finer (first : First key rows row)
    (finer : ∀ a ∈ rows, other a = other row → key a = key row) : First other rows row := by
  induction rows with
  | nil => exact first.elim
  | cons head rest ih =>
      rcases first with rfl | ⟨apart, first⟩
      · exact .inl rfl
      · exact .inr ⟨fun same => apart (finer head List.mem_cons_self same),
          ih first fun a here => finer a (List.mem_cons_of_mem head here)⟩

theorem First.filter {keep : ρ → Bool} (first : First key rows row) (kept : keep row = true) :
    First key (rows.filter keep) row := by
  induction rows with
  | nil => exact first.elim
  | cons head rest ih =>
      rw [List.filter_cons]
      rcases first with rfl | ⟨apart, first⟩
      · rw [if_pos kept]
        exact .inl rfl
      · split
        · exact .inr ⟨apart, ih first⟩
        · exact ih first

/-- The first row kept is the first of all when no row with its key is left out. -/
theorem First.of_filter {keep : ρ → Bool} (first : First key (rows.filter keep) row)
    (whole : ∀ a ∈ rows, key a = key row → keep a = true) : First key rows row := by
  induction rows with
  | nil => exact first.elim
  | cons head rest ih =>
      have later := fun first => ih first fun a here => whole a (List.mem_cons_of_mem head here)
      rw [List.filter_cons] at first
      split at first
      · rcases first with rfl | ⟨apart, first⟩
        · exact .inl rfl
        · exact .inr ⟨apart, later first⟩
      · next dropped =>
          exact .inr ⟨fun same => dropped (whole head List.mem_cons_self same), later first⟩

theorem mem_insertAll [DecidableEq κ] {table : List ρ} : row ∈ insertAll key table rows ↔
    row ∈ table ∨ ¬Holds key table (key row) ∧ First key rows row := by
  induction rows generalizing table with
  | nil =>
      constructor
      · exact .inl
      · rintro (here | ⟨-, none⟩)
        · exact here
        · exact none.elim
  | cons head rest ih =>
      change row ∈ insertAll key (insertIgnore key table head) rest ↔ _
      rw [ih, holds_insertIgnore, not_or]
      by_cases held : Holds key table (key head)
      · rw [insertIgnore, if_pos held]
        refine or_congr_right ?_
        constructor
        · rintro ⟨⟨absent, apart⟩, first⟩
          exact ⟨absent, .inr ⟨apart, first⟩⟩
        · rintro ⟨absent, rfl | ⟨apart, first⟩⟩
          · exact absurd held absent
          · exact ⟨⟨absent, apart⟩, first⟩
      · rw [insertIgnore, if_neg held, List.mem_append, List.mem_singleton, or_assoc]
        refine or_congr_right ?_
        constructor
        · rintro (rfl | ⟨⟨absent, apart⟩, first⟩)
          · exact ⟨held, .inl rfl⟩
          · exact ⟨absent, .inr ⟨apart, first⟩⟩
        · rintro ⟨absent, rfl | ⟨apart, first⟩⟩
          · exact .inl rfl
          · exact .inr ⟨⟨absent, apart⟩, first⟩

/-- A table that is filled from nothing holds the first row of every key. -/
theorem mem_insertAll_nil [DecidableEq κ] :
    row ∈ insertAll key [] rows ↔ First key rows row := by
  rw [mem_insertAll]
  simp only [List.not_mem_nil, holds_nil, not_false_eq_true, true_and, false_or]

end First

end OverUnder.Library.Keyed
