/-
Module: OverUnder.Library.Occurrences
Purpose: Where one text occurs in another: removing its occurrences, and that splitting a
  text or joining parts makes no new occurrence.
Trusted boundary: none
Main exports: remove, remove_eq_self, length_remove_le, length_remove_lt,
  length_foldl_remove_lt, infix_of_mem_splitOnP, infix_of_infix_join, infix_of_infix_map
-/
import OverUnder.Library.Splitting

namespace OverUnder.Library.Occurrences

variable {α : Type} {token text part : List α} {parts : List (List α)} {sep : α → Bool} {x : α}

section Remove

variable [DecidableEq α]

/-- Occurrences are taken out from the left; `skip` counts what is left of the one found last. -/
def removeFrom (token : List α) : Nat → List α → List α
  | _, [] => []
  | skip + 1, _ :: rest => removeFrom token skip rest
  | 0, c :: rest =>
      if token <+: c :: rest then removeFrom token (token.length - 1) rest
      else c :: removeFrom token 0 rest

/-- The text without the occurrences found from the left, none of which share a place. -/
def remove (token text : List α) : List α := removeFrom token 0 text

theorem removeFrom_eq_self (absent : ¬token <:+: text) : removeFrom token 0 text = text := by
  induction text with
  | nil => rfl
  | cons c rest ih =>
      rw [List.infix_cons_iff, not_or] at absent
      rw [removeFrom, if_neg absent.1, ih absent.2]

theorem remove_eq_self (absent : ¬token <:+: text) : remove token text = text :=
  removeFrom_eq_self absent

theorem length_removeFrom_le (skip : Nat) : (removeFrom token skip text).length ≤ text.length := by
  fun_induction removeFrom token skip text with
  | case1 => exact Nat.le_refl _
  | case2 skip c rest ih => exact Nat.le_succ_of_le ih
  | case3 c rest found ih => exact Nat.le_succ_of_le ih
  | case4 c rest absent ih => exact Nat.succ_le_succ ih

theorem length_remove_le : (remove token text).length ≤ text.length := length_removeFrom_le 0

/-- Where the token occurs the text gets shorter. -/
theorem length_remove_lt (some_token : token ≠ []) (found : token <:+: text) :
    (remove token text).length < text.length := by
  unfold remove
  induction text with
  | nil => exact absurd (List.infix_nil.1 found) some_token
  | cons c rest ih =>
      rw [removeFrom]
      split
      · exact Nat.lt_succ_of_le (length_removeFrom_le _)
      · next absent =>
          have later := (List.infix_cons_iff.1 found).resolve_left absent
          exact Nat.succ_lt_succ (ih later)

/-- Removing several tokens in turn, one of which occurs, makes the text shorter. -/
theorem length_foldl_remove_lt {tokens : List (List α)} (some_tokens : ∀ token ∈ tokens, token ≠ [])
    (found : ∃ token ∈ tokens, token <:+: text) :
    (tokens.foldl (fun text token => remove token text) text).length < text.length := by
  have shorter : ∀ (tokens : List (List α)) (text : List α),
      (tokens.foldl (fun text token => remove token text) text).length ≤ text.length := by
    intro tokens
    induction tokens with
    | nil => exact fun _ => Nat.le_refl _
    | cons token rest ih => exact fun text => (ih _).trans length_remove_le
  induction tokens with
  | nil =>
      obtain ⟨token, here, -⟩ := found
      cases here
  | cons token rest ih =>
      rw [List.foldl_cons]
      by_cases here : token <:+: text
      · exact (shorter rest _).trans_lt
          (length_remove_lt (some_tokens token List.mem_cons_self) here)
      · rw [remove_eq_self here]
        obtain ⟨other, among, found⟩ := found
        rcases List.mem_cons.1 among with rfl | among
        · exact absurd found here
        · exact ih (fun token later => some_tokens token (List.mem_cons_of_mem _ later))
            ⟨other, among, found⟩

end Remove

/-- The first part of a split text stands at its front, and every part inside it. -/
theorem splitOnP_parts (sep : α → Bool) (text : List α) :
    ∃ head tail, text.splitOnP sep = head :: tail ∧ head <+: text ∧
    ∀ part ∈ tail, part <:+: text := by
  induction text with
  | nil => exact ⟨[], [], List.splitOnP_nil, List.nil_prefix, nofun⟩
  | cons c rest ih =>
      obtain ⟨head, tail, whole, front, inside⟩ := ih
      have later : ∀ {part}, part <:+: rest → part <:+: c :: rest := fun here =>
        here.trans (List.suffix_cons c rest).isInfix
      rw [List.splitOnP_cons_eq_if_modifyHead, whole]
      split
      · refine ⟨[], head :: tail, rfl, List.nil_prefix, ?_⟩
        intro part here
        rcases List.mem_cons.1 here with rfl | here
        · exact later front.isInfix
        · exact later (inside part here)
      · refine ⟨c :: head, tail, List.modifyHead_cons .., ?_, fun part here =>
          later (inside part here)⟩
        exact (List.prefix_cons_inj c).2 front

theorem infix_of_mem_splitOnP (here : part ∈ text.splitOnP sep) : part <:+: text := by
  obtain ⟨head, tail, whole, front, inside⟩ := splitOnP_parts sep text
  rw [whole] at here
  rcases List.mem_cons.1 here with rfl | here
  · exact front.isInfix
  · exact inside part here

/-- What occurs in a text without its joint occurs on one side of the joint. -/
theorem infix_of_infix_joint {left right : List α} (apart : x ∉ token)
    (found : token <:+: left ++ x :: right) : token <:+: left ∨ token <:+: right := by
  have front : ∀ left : List α, token <+: left ++ x :: right → token <+: left := by
    intro left found
    rcases Nat.le_total token.length left.length with short | long
    · exact List.prefix_of_prefix_length_le found (List.prefix_append left _) short
    · have start : left <+: token :=
        List.prefix_of_prefix_length_le (List.prefix_append left _) found long
      obtain ⟨others, rfl⟩ := start
      cases others with
      | nil => exact ⟨[], by simp only [List.append_nil]⟩
      | cons y ys =>
          rw [List.prefix_append_right_inj, List.cons_prefix_cons] at found
          rw [found.1] at apart
          exact absurd (by simp) apart
  induction left with
  | nil =>
      rw [List.nil_append] at found
      rcases List.infix_cons_iff.1 found with found | found
      · rw [List.prefix_nil.1 (front [] found)]
        exact .inl List.infix_rfl
      · exact .inr found
  | cons c rest ih =>
      rw [List.cons_append] at found
      rcases List.infix_cons_iff.1 found with found | found
      · exact .inl (front (c :: rest) found).isInfix
      · rcases ih found with found | found
        · exact .inl (found.trans (List.suffix_cons c rest).isInfix)
        · exact .inr found

theorem infix_of_infix_join (some_token : token ≠ []) (apart : x ∉ token)
    (found : token <:+: [x].intercalate parts) : ∃ part ∈ parts, token <:+: part := by
  induction parts with
  | nil => exact absurd (List.infix_nil.1 found) some_token
  | cons first rest ih =>
      cases rest with
      | nil =>
          rw [List.intercalate_singleton] at found
          exact ⟨first, List.mem_cons_self, found⟩
      | cons second others =>
          rw [List.intercalate_cons_cons, List.append_assoc, List.singleton_append] at found
          rcases infix_of_infix_joint apart found with found | found
          · exact ⟨first, List.mem_cons_self, found⟩
          · obtain ⟨part, here, found⟩ := ih found
            exact ⟨part, List.mem_cons_of_mem first here, found⟩

/-- Replacing characters by others makes no occurrence of a token that has none of these. -/
theorem infix_of_infix_map {f : α → α} (kept : ∀ c, f c ∈ token → f c = c)
    (found : token <:+: text.map f) : token <:+: text := by
  obtain ⟨same, inside, rfl⟩ := List.infix_map_iff.1 found
  have unchanged : same.map f = same :=
    (List.map_congr_left fun c here => kept c (List.mem_map_of_mem here)).trans (List.map_id' same)
  exact unchanged.symm ▸ inside

end OverUnder.Library.Occurrences
