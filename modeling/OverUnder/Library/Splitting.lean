/-
Module: OverUnder.Library.Splitting
Purpose: Splitting a text at separators and joining the parts: what a part consists of, and
  that splitting a joined text gives the parts back.
Trusted boundary: none
Main exports: runs, mem_splitOnP, splitOnP_congr, mem_runs, mem_join, splitOnP_join, runs_join,
  Trimmed, trimmed_joint, trimmed_join, join_runs
-/
import Mathlib

namespace OverUnder.Library.Splitting

variable {α : Type} {sep p q : α → Bool} {text part : List α} {parts : List (List α)} {x c : α}

/-- The maximal runs without a separator. -/
def runs (sep : α → Bool) (text : List α) : List (List α) :=
  (text.splitOnP sep).filter (!·.isEmpty)

theorem splitOnP_congr (agree : ∀ c ∈ text, p c = q c) : text.splitOnP p = text.splitOnP q := by
  induction text with
  | nil => rfl
  | cons c rest ih =>
      have later := ih fun c' inside => agree c' (List.mem_cons_of_mem c inside)
      rw [List.splitOnP_cons_eq_if_modifyHead, List.splitOnP_cons_eq_if_modifyHead, later,
        agree c List.mem_cons_self]

/-- A part consists of characters of the text that are no separators. -/
theorem mem_splitOnP (here : part ∈ text.splitOnP sep) : ∀ c ∈ part, c ∈ text ∧ sep c = false := by
  induction text generalizing part with
  | nil =>
      intro c inside
      rw [List.splitOnP_nil, List.mem_singleton] at here
      rw [here] at inside
      cases inside
  | cons first rest ih =>
      rw [List.splitOnP_cons_eq_if_modifyHead] at here
      have later : ∀ {part}, part ∈ rest.splitOnP sep → ∀ c ∈ part,
          c ∈ first :: rest ∧ sep c = false := fun here c inside =>
        ⟨List.mem_cons_of_mem first (ih here c inside).1, (ih here c inside).2⟩
      intro c inside
      split at here
      · rcases List.mem_cons.1 here with rfl | here
        · cases inside
        · exact later here c inside
      · next kept =>
          obtain ⟨head, tail, whole⟩ := List.exists_cons_of_ne_nil (rest.splitOnP_ne_nil sep)
          rw [whole, List.modifyHead_cons] at here
          rcases List.mem_cons.1 here with rfl | here
          · rcases List.mem_cons.1 inside with rfl | inside
            · exact ⟨List.mem_cons_self, Bool.not_eq_true _ ▸ kept⟩
            · exact later (whole ▸ List.mem_cons_self) c inside
          · exact later (whole ▸ List.mem_cons_of_mem head here) c inside

theorem mem_runs (here : part ∈ runs sep text) :
    part ≠ [] ∧ ∀ c ∈ part, c ∈ text ∧ sep c = false := by
  rw [runs, List.mem_filter] at here
  refine ⟨?_, mem_splitOnP here.1⟩
  rintro rfl
  cases here.2

/-- A joined text consists of the parts and what joins them. -/
theorem mem_join (inside : c ∈ [x].intercalate parts) : c = x ∨ ∃ part ∈ parts, c ∈ part := by
  induction parts with
  | nil => cases inside
  | cons first rest ih =>
      cases rest with
      | nil =>
          rw [List.intercalate_singleton] at inside
          exact .inr ⟨first, List.mem_cons_self, inside⟩
      | cons second others =>
          rw [List.intercalate_cons_cons, List.mem_append, List.mem_append] at inside
          rcases inside with (inside | inside) | inside
          · exact .inr ⟨first, List.mem_cons_self, inside⟩
          · exact .inl (List.mem_singleton.1 inside)
          · rcases ih inside with joint | ⟨part, here, inside⟩
            · exact .inl joint
            · exact .inr ⟨part, List.mem_cons_of_mem first here, inside⟩

/-- Parts without separators come back when what joins them is one. -/
theorem splitOnP_join (joint : sep x = true) (some_part : parts ≠ [])
    (clean : ∀ part ∈ parts, ∀ c ∈ part, sep c = false) :
    ([x].intercalate parts).splitOnP sep = parts := by
  induction parts with
  | nil => exact absurd rfl some_part
  | cons first rest ih =>
      have head := clean first List.mem_cons_self
      cases rest with
      | nil =>
          rw [List.intercalate_singleton]
          exact List.splitOnP_eq_singleton head
      | cons second others =>
          have tail := ih (by simp) fun part here => clean part (List.mem_cons_of_mem first here)
          rw [List.intercalate_cons_cons, List.append_assoc, List.singleton_append,
            List.splitOnP_append_cons_of_forall_mem head x joint, tail]

theorem runs_join (joint : sep x = true)
    (clean : ∀ part ∈ parts, part ≠ [] ∧ ∀ c ∈ part, sep c = false) :
    runs sep ([x].intercalate parts) = parts := by
  cases parts with
  | nil => rfl
  | cons first rest =>
      rw [runs, splitOnP_join joint (by simp) fun part here => (clean part here).2,
        List.filter_eq_self]
      intro part here
      rw [List.isEmpty_eq_false_iff.2 (clean part here).1]
      rfl

/-! ### Texts whose spaces stand alone between other characters -/

/-- No space at either end and no two in a row. -/
structure Trimmed (space : α → Bool) (text : List α) : Prop where
  head : ∀ c ∈ text.head?, space c = false
  last : ∀ c ∈ text.getLast?, space c = false
  apart : text.IsChain fun a b => ¬(space a = true ∧ space b = true)

variable {space : α → Bool}

theorem Trimmed.nil : Trimmed space [] := ⟨nofun, nofun, .nil⟩

theorem trimmed_of_clean (clean : ∀ c ∈ text, space c = false) : Trimmed space text := by
  refine ⟨fun c here => clean c (List.mem_of_mem_head? here),
    fun c here => clean c (List.mem_of_mem_getLast? here), ?_⟩
  induction text with
  | nil => exact .nil
  | cons c rest ih =>
      rw [List.isChain_cons]
      refine ⟨fun y _ both => ?_, ih fun y here => clean y (List.mem_cons_of_mem c here)⟩
      rw [clean c List.mem_cons_self] at both
      exact Bool.noConfusion both.1

/-- Both sides of a space are trimmed and not empty. -/
theorem trimmed_joint {left right : List α} (joint : space x = true) :
    Trimmed space (left ++ x :: right) ↔
      (left ≠ [] ∧ Trimmed space left) ∧ right ≠ [] ∧ Trimmed space right := by
  constructor
  · rintro ⟨head, last, apart⟩
    rw [List.isChain_append, List.isChain_cons] at apart
    obtain ⟨left_apart, ⟨next, right_apart⟩, before⟩ := apart
    have left_some : left ≠ [] := by
      rintro rfl
      rw [head x rfl] at joint
      cases joint
    have right_some : right ≠ [] := by
      rintro rfl
      rw [last x (by simp)] at joint
      cases joint
    refine ⟨⟨left_some, ?_, ?_, left_apart⟩, right_some, ?_, ?_, right_apart⟩
    · intro c here
      exact head c (by rw [List.head?_append_of_ne_nil _ left_some]; exact here)
    · intro c here
      exact Bool.eq_false_iff.2 fun spaced => before c here x rfl ⟨spaced, joint⟩
    · intro c here
      exact Bool.eq_false_iff.2 fun spaced => next c here ⟨joint, spaced⟩
    · intro c here
      apply last c
      rw [List.getLast?_append_of_ne_nil _ (List.cons_ne_nil x right),
        List.getLast?_cons_of_ne_nil right_some]
      exact here
  · rintro ⟨⟨left_some, left_trimmed⟩, right_some, right_trimmed⟩
    refine ⟨?_, ?_, ?_⟩
    · rw [List.head?_append_of_ne_nil _ left_some]
      exact left_trimmed.head
    · rw [List.getLast?_append_of_ne_nil _ (List.cons_ne_nil x right),
        List.getLast?_cons_of_ne_nil right_some]
      exact right_trimmed.last
    · rw [List.isChain_append, List.isChain_cons]
      refine ⟨left_trimmed.apart, ⟨fun c here both => ?_, right_trimmed.apart⟩, ?_⟩
      · rw [right_trimmed.head c here] at both
        exact Bool.noConfusion both.2
      · rintro c here _ - both
        rw [left_trimmed.last c here] at both
        exact Bool.noConfusion both.1

theorem join_ne_nil {first : List α} (some_part : first ≠ []) :
    [x].intercalate (first :: parts) ≠ [] := by
  cases parts with
  | nil => rwa [List.intercalate_singleton]
  | cons second others =>
      rw [List.intercalate_cons_cons, List.append_assoc]
      exact List.append_ne_nil_of_left_ne_nil some_part _

/-- Parts joined at spaces are trimmed when each of them is and none is empty. -/
theorem trimmed_join (joint : space x = true) (some_text : [x].intercalate parts ≠ []) :
    Trimmed space ([x].intercalate parts) ↔ ∀ part ∈ parts, part ≠ [] ∧ Trimmed space part := by
  induction parts with
  | nil => exact absurd rfl some_text
  | cons first rest ih =>
      rw [List.forall_mem_cons]
      cases rest with
      | nil =>
          rw [List.intercalate_singleton] at some_text ⊢
          exact ⟨fun trimmed => ⟨⟨some_text, trimmed⟩, nofun⟩, fun all => all.1.2⟩
      | cons second others =>
          rw [List.intercalate_cons_cons, List.append_assoc, List.singleton_append,
            trimmed_joint joint]
          refine and_congr_right fun _ => ?_
          by_cases empty : [x].intercalate (second :: others) = []
          · constructor
            · exact fun both => absurd empty both.1
            · exact fun all => absurd empty (join_ne_nil (all second List.mem_cons_self).1)
          · exact ⟨fun both => (ih empty).1 both.2, fun all => ⟨empty, (ih empty).2 all⟩⟩

/-- Splitting a trimmed text at its spaces and joining it again gives the text. -/
theorem join_runs [DecidableEq α] (joint : space x = true) (trimmed : Trimmed space text)
    (only : ∀ c ∈ text, space c = true → c = x) : [x].intercalate (runs space text) = text := by
  have parts : text.splitOnP space = text.splitOn x := by
    rw [List.splitOn_eq_splitOnP]
    apply splitOnP_congr
    intro c here
    by_cases same : c = x
    · rw [same, joint, beq_self_eq_true]
    · rw [beq_false_of_ne same, Bool.eq_false_iff]
      exact fun spaced => same (only c here spaced)
  have whole : [x].intercalate (text.splitOn x) = text := List.intercalate_splitOn x
  rw [runs, parts]
  cases text with
  | nil => rfl
  | cons c rest =>
      have some_text : [x].intercalate ((c :: rest).splitOn x) ≠ [] := by
        rw [whole]
        exact List.cons_ne_nil c rest
      have kept := (trimmed_join joint some_text).1 (whole.symm ▸ trimmed)
      rw [List.filter_eq_self.2, whole]
      intro part here
      rw [List.isEmpty_eq_false_iff.2 (kept part here).1]
      rfl

end OverUnder.Library.Splitting
