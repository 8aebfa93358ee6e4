/-
Module: OverUnder.Library.Backtrack
Purpose: Backtracking matchers over a text: every way to match a front of it, in the order
  in which a backtracking engine tries them, and the first place where one matches; with
  what is matched in terms of the text alone.
Trusted boundary: none
Main exports: Matcher, one, many, many1, lazy1, opt, search, mem_one, mem_many, mem_many1,
  mem_lazy1, mem_opt, search_skip
-/
import Mathlib

namespace OverUnder.Library.Backtrack

variable {α β : Type}

/-- The ways to match a front of a text: what is consumed and what is left. -/
abbrev Matcher (α : Type) := List α → List (List α × List α)

/-- One of a class. -/
def one (p : α → Bool) : Matcher α
  | [] => []
  | c :: s => if p c then [([c], s)] else []

/-- `p*`: as many as there are, then fewer. -/
def many (p : α → Bool) : Matcher α
  | [] => [([], [])]
  | c :: s =>
      if p c then (many p s).map (fun m => (c :: m.1, m.2)) ++ [([], c :: s)]
      else [([], c :: s)]

/-- `p+`: as many as there are, then fewer. -/
def many1 (p : α → Bool) : Matcher α
  | [] => []
  | c :: s => if p c then (many p s).map fun m => (c :: m.1, m.2) else []

/-- `p+?`: one, then more. -/
def lazy1 (p : α → Bool) : Matcher α
  | [] => []
  | c :: s => if p c then ([c], s) :: (lazy1 p s).map (fun m => (c :: m.1, m.2)) else []

/-- `p?`: one, then none. -/
def opt (p : α → Bool) : Matcher α := fun s => one p s ++ [([], s)]

/-- The first match, from the first place that has one. -/
def search (f : List α → List β) : List α → Option β
  | [] => (f []).head?
  | c :: s =>
      match f (c :: s) with
      | b :: _ => some b
      | [] => search f s

variable {p : α → Bool} {s a r : List α} {f : List α → List β} {b : β}

theorem mem_one : (a, r) ∈ one p s ↔ ∃ c, p c = true ∧ a = [c] ∧ s = c :: r := by
  cases s with
  | nil => simp [one]
  | cons c s =>
      rw [one]
      by_cases fits : p c = true
      · rw [if_pos fits, List.mem_singleton, Prod.mk.injEq]
        constructor
        · rintro ⟨rfl, rfl⟩
          exact ⟨c, fits, rfl, rfl⟩
        · rintro ⟨d, -, rfl, same⟩
          cases same
          exact ⟨rfl, rfl⟩
      · rw [if_neg fits]
        constructor
        · exact nofun
        · rintro ⟨d, fits', -, same⟩
          cases same
          exact absurd fits' fits

theorem mem_many : (a, r) ∈ many p s ↔ s = a ++ r ∧ ∀ c ∈ a, p c = true := by
  induction s generalizing a with
  | nil =>
      rw [many, List.mem_singleton, Prod.mk.injEq]
      constructor
      · rintro ⟨rfl, rfl⟩
        exact ⟨rfl, nofun⟩
      · rintro ⟨empty, -⟩
        exact List.append_eq_nil_iff.mp empty.symm
  | cons c s ih =>
      have skip : ((a, r) = (([] : List α), c :: s)) ↔ a = [] ∧ c :: s = a ++ r := by
        rw [Prod.mk.injEq]
        constructor
        · rintro ⟨rfl, rfl⟩
          exact ⟨rfl, rfl⟩
        · rintro ⟨rfl, same⟩
          exact ⟨rfl, same.symm⟩
      have take : (a, r) ∈ (many p s).map (fun m => (c :: m.1, m.2)) ↔
          ∃ a', a = c :: a' ∧ s = a' ++ r ∧ ∀ d ∈ a', p d = true := by
        constructor
        · intro member
          rcases List.mem_map.mp member with ⟨⟨a', r'⟩, below, same⟩
          cases same
          exact ⟨a', rfl, ih.mp below⟩
        · rintro ⟨a', rfl, below⟩
          exact List.mem_map.mpr ⟨(a', r), ih.mpr below, rfl⟩
      unfold many
      cases a with
      | nil =>
          split
          · rw [List.mem_append, take, List.mem_singleton, skip]
            simp
          · rw [List.mem_singleton, skip]
            simp
      | cons d a' =>
          split
          · next fits =>
            rw [List.mem_append, take, List.mem_singleton, skip]
            constructor
            · rintro (⟨a'', same, rfl, all⟩ | ⟨none, -⟩)
              · cases same
                refine ⟨rfl, fun e among => ?_⟩
                rcases List.mem_cons.mp among with rfl | later
                · exact fits
                · exact all e later
              · cases none
            · rintro ⟨same, all⟩
              cases same
              exact .inl ⟨a', rfl, rfl, fun e later => all e (.tail _ later)⟩
          · next misfit =>
            rw [List.mem_singleton, skip]
            constructor
            · rintro ⟨none, -⟩
              cases none
            · rintro ⟨same, all⟩
              cases same
              exact absurd (all c (.head _)) misfit

theorem mem_many1 : (a, r) ∈ many1 p s ↔ s = a ++ r ∧ a ≠ [] ∧ ∀ c ∈ a, p c = true := by
  cases s with
  | nil =>
      constructor
      · exact nofun
      · rintro ⟨empty, some_, -⟩
        exact absurd (List.append_eq_nil_iff.mp empty.symm).1 some_
  | cons c s =>
      rw [many1]
      constructor
      · intro member
        split at member
        · next fits =>
          rcases List.mem_map.mp member with ⟨⟨a', r'⟩, below, same⟩
          cases same
          rcases mem_many.mp below with ⟨rfl, all⟩
          refine ⟨rfl, List.cons_ne_nil _ _, fun d among => ?_⟩
          rcases List.mem_cons.mp among with rfl | later
          · exact fits
          · exact all d later
        · cases member
      · rintro ⟨same, some_, all⟩
        cases a with
        | nil => exact absurd rfl some_
        | cons d a' =>
            cases same
            rw [if_pos (all c (.head _))]
            exact List.mem_map.mpr ⟨(a', r),
              mem_many.mpr ⟨rfl, fun d later => all d (.tail _ later)⟩, rfl⟩

theorem mem_lazy1 : (a, r) ∈ lazy1 p s ↔ s = a ++ r ∧ a ≠ [] ∧ ∀ c ∈ a, p c = true := by
  induction s generalizing a with
  | nil =>
      constructor
      · exact nofun
      · rintro ⟨empty, some_, -⟩
        exact absurd (List.append_eq_nil_iff.mp empty.symm).1 some_
  | cons c s ih =>
      unfold lazy1
      constructor
      · intro member
        split at member
        · next fits =>
          rcases List.mem_cons.mp member with first | longer
          · cases first
            exact ⟨rfl, List.cons_ne_nil _ _, fun d among => by
              rw [List.mem_singleton.mp among]; exact fits⟩
          · rcases List.mem_map.mp longer with ⟨⟨a', r'⟩, below, same⟩
            cases same
            rcases ih.mp below with ⟨rfl, -, all⟩
            refine ⟨rfl, List.cons_ne_nil _ _, fun d among => ?_⟩
            rcases List.mem_cons.mp among with rfl | later
            · exact fits
            · exact all d later
        · cases member
      · rintro ⟨same, some_, all⟩
        cases a with
        | nil => exact absurd rfl some_
        | cons d a' =>
            cases same
            rw [if_pos (all c (.head _))]
            cases a' with
            | nil => exact .head _
            | cons e a'' =>
                refine .tail _ (List.mem_map.mpr ⟨(e :: a'', r), ih.mpr ?_, rfl⟩)
                exact ⟨rfl, List.cons_ne_nil _ _, fun d later => all d (.tail _ later)⟩

theorem mem_opt : (a, r) ∈ opt p s ↔ (a, r) ∈ one p s ∨ a = [] ∧ r = s := by
  rw [opt, List.mem_append, List.mem_singleton, Prod.mk.injEq]

/-- Where nothing matches at the first place, the search goes on. -/
theorem search_skip {c : α} (fails : f (c :: s) = []) : search f (c :: s) = search f s := by
  rw [search, fails]

theorem search_skip_all {front : List α} (fails : ∀ c ∈ front, ∀ s, f (c :: s) = []) :
    search f (front ++ s) = search f s := by
  induction front with
  | nil => rfl
  | cons c rest ih =>
      rw [List.cons_append, search_skip (fails c (.head _) _),
        ih fun d later => fails d (.tail _ later)]

/-- What a search finds is a match somewhere. -/
theorem search_mem (found : search f s = some b) :
    ∃ front rest, s = front ++ rest ∧ b ∈ f rest := by
  induction s with
  | nil => exact ⟨[], [], rfl, List.mem_of_mem_head? found⟩
  | cons c s ih =>
      unfold search at found
      split at found
      · next here =>
        cases found
        exact ⟨[], c :: s, rfl, by rw [here]; exact .head _⟩
      · rcases ih found with ⟨front, rest, rfl, member⟩
        exact ⟨c :: front, rest, rfl, member⟩

/-- A match somewhere is found. -/
theorem search_isSome (member : b ∈ f s) : ∃ b', search f s = some b' := by
  cases s with
  | nil =>
      cases listed : f [] with
      | nil =>
          rw [listed] at member
          cases member
      | cons first rest => exact ⟨first, by rw [search, listed]; rfl⟩
  | cons c s =>
      unfold search
      split
      · next first _ _ => exact ⟨first, rfl⟩
      · next none =>
        rw [none] at member
        cases member

end OverUnder.Library.Backtrack
