/-
Module: OverUnder.Library.Interaction
Purpose: Programs that act on a shared world only by operations, each answered with a
  value or an exception, while others may change the world at any time; the weakest
  precondition under which no operation is issued in a bad moment; and worlds that keep
  the answers they gave, for what a program may only do after what it was told.
Trusted boundary: none
Main exports: Program, Program.Issues, World, World.Step, World.logged, Event, Safe, Safe.bind,
  Safe.attempt, Safe.perform, Safe.keep, Safe.sound, Safe.of_issues
-/
import Mathlib

namespace OverUnder.Library

/-- A program: it ends with a value or an exception, or issues an operation and goes on
with its answer. -/
inductive Program (Op : Type) (Answer : Op → Type) (ε α : Type) where
  | done (result : Except ε α)
  | call (op : Op) (next : Except ε (Answer op) → Program Op Answer ε α)

namespace Program

variable {Op : Type} {Answer : Op → Type} {ε α β : Type}

def bind : Program Op Answer ε α → (α → Program Op Answer ε β) → Program Op Answer ε β
  | .done (.ok a), f => f a
  | .done (.error e), _ => .done (.error e)
  | .call op next, f => .call op fun r => (next r).bind f

instance : Monad (Program Op Answer ε) where
  pure a := .done (.ok a)
  bind := bind

/-- Raise an exception. -/
def raise (e : ε) : Program Op Answer ε α := .done (.error e)

/-- Issue one operation; its exception goes up. -/
def perform (op : Op) : Program Op Answer ε (Answer op) := .call op .done

/-- Run a program and hand over its exception instead of raising it. -/
def attempt : Program Op Answer ε α → Program Op Answer ε (Except ε α)
  | .done r => .done (.ok r)
  | .call op next => .call op fun r => (next r).attempt

theorem bind_assoc {γ : Type} (p : Program Op Answer ε α) (f : α → Program Op Answer ε β)
    (g : β → Program Op Answer ε γ) : p >>= f >>= g = p >>= fun a => f a >>= g := by
  induction p with
  | done r => cases r <;> rfl
  | call op next ih => exact congrArg (Program.call op) (funext ih)

/-- Every operation the program may issue, whatever it is answered, satisfies `ok`. -/
def Issues (ok : Op → Prop) : Program Op Answer ε α → Prop
  | .done _ => True
  | .call op next => ok op ∧ ∀ r, Issues ok (next r)

namespace Issues

variable {ok ok' : Op → Prop} {p : Program Op Answer ε α}

theorem pure {a : α} : Issues ok (Pure.pure a : Program Op Answer ε α) := trivial

theorem raise {e : ε} : Issues ok (Program.raise e : Program Op Answer ε α) := trivial

theorem perform {op : Op} (allowed : ok op) :
    Issues ok (Program.perform op : Program Op Answer ε (Answer op)) :=
  ⟨allowed, fun _ => trivial⟩

theorem bind {f : α → Program Op Answer ε β} (first : Issues ok p) (rest : ∀ a, Issues ok (f a)) :
    Issues ok (p >>= f) := by
  induction p with
  | done r =>
      cases r with
      | ok a => exact rest a
      | error e => trivial
  | call op next ih => exact ⟨first.1, fun r => ih r (first.2 r)⟩

theorem attempt (issues : Issues ok p) : Issues ok p.attempt := by
  induction p with
  | done r => trivial
  | call op next ih => exact ⟨issues.1, fun r => ih r (issues.2 r)⟩

end Issues

end Program

/-- A shared world: what others may do to it, what every state of it satisfies, and how it
answers an operation. -/
structure World (σ Op : Type) (Answer : Op → Type) (ε : Type) where
  other : σ → σ → Prop
  valid : σ → Prop
  answers : (op : Op) → σ → Except ε (Answer op) → σ → Prop
  other_valid : ∀ {s t}, valid s → other s t → valid t
  answers_valid : ∀ {op s r t}, valid s → answers op s r t → valid t

section

variable {σ Op : Type} {Answer : Op → Type} {ε α β : Type}

namespace World

variable (W : World σ Op Answer ε)

/-- The world after others had their way. -/
def Later : σ → σ → Prop := Relation.ReflTransGen W.other

variable {W} {s t u : σ}

/-- What single steps of others keep, they keep over time. -/
theorem Later.keeps {P : σ → Prop} (kept : ∀ a b, W.other a b → P a → P b)
    (later : W.Later s t) (holds : P s) : P t := by
  induction later with
  | refl => exact holds
  | tail _ moved ih => exact kept _ _ moved ih

variable (W) in
/-- Others move, or the next operation of the program is answered. -/
inductive Step : σ × Program Op Answer ε α → σ × Program Op Answer ε α → Prop where
  | other {s t : σ} {p : Program Op Answer ε α} (moved : W.other s t) : Step (s, p) (t, p)
  | answer {s t : σ} {op : Op} {next : Except ε (Answer op) → Program Op Answer ε α}
      {r : Except ε (Answer op)} (answered : W.answers op s r t) :
      Step (s, .call op next) (t, next r)

end World

/-- From `s` on, and whatever others do, `p` issues an operation only where `ok` allows it
and ends with `post`. -/
def Safe (W : World σ Op Answer ε) (ok : Op → σ → Prop) :
    Program Op Answer ε α → (Except ε α → σ → Prop) → σ → Prop
  | .done r, post, s => ∀ t, W.Later s t → W.valid t → post r t
  | .call op next, post, s => ∀ t, W.Later s t → W.valid t →
      ok op t ∧ ∀ r u, W.answers op t r u → Safe W ok (next r) post u

namespace Safe

variable {W : World σ Op Answer ε} {ok ok' : Op → σ → Prop} {s t : σ}
  {p : Program Op Answer ε α} {post post' : Except ε α → σ → Prop}

theorem later (safe : Safe W ok p post s) (moved : W.Later s t) : Safe W ok p post t := by
  cases p with
  | done r => exact fun u onward => safe u (moved.trans onward)
  | call op next => exact fun u onward => safe u (moved.trans onward)

theorem mono (safe : Safe W ok p post s) (weaker : ∀ r t, post r t → post' r t) :
    Safe W ok p post' s := by
  induction p generalizing s with
  | done r => exact fun t moved valid => weaker r t (safe t moved valid)
  | call op next ih =>
      intro t moved valid
      rcases safe t moved valid with ⟨allowed, rest⟩
      exact ⟨allowed, fun r u answered => ih r (rest r u answered)⟩

theorem allow (safe : Safe W ok p post s) (wider : ∀ op t, ok op t → ok' op t) :
    Safe W ok' p post s := by
  induction p generalizing s with
  | done r => exact safe
  | call op next ih =>
      intro t moved valid
      rcases safe t moved valid with ⟨allowed, rest⟩
      exact ⟨wider op t allowed, fun r u answered => ih r (rest r u answered)⟩

theorem pure {a : α} (holds : ∀ t, W.Later s t → W.valid t → post (.ok a) t) :
    Safe W ok (Pure.pure a : Program Op Answer ε α) post s := holds

theorem raise {e : ε} (holds : ∀ t, W.Later s t → W.valid t → post (.error e) t) :
    Safe W ok (Program.raise e) post s := holds

theorem bind {f : α → Program Op Answer ε β} {post : Except ε β → σ → Prop}
    (safe : Safe W ok p (fun r t => match r with
      | .ok a => Safe W ok (f a) post t
      | .error e => ∀ u, W.Later t u → W.valid u → post (.error e) u) s) :
    Safe W ok (p >>= f) post s := by
  induction p generalizing s with
  | done r =>
      cases r with
      | ok a =>
          -- The rest of the program is safe wherever others leave the world.
          change Safe W ok (f a) post s
          have start : ∀ t, W.Later s t → W.valid t → Safe W ok (f a) post t := safe
          cases rest : f a with
          | done r =>
              intro t moved valid
              have here := start t moved valid
              rw [rest] at here
              exact here t .refl valid
          | call op next =>
              intro t moved valid
              have here := start t moved valid
              rw [rest] at here
              exact here t .refl valid
      | error e => exact fun t moved valid => safe t moved valid t .refl valid
  | call op next ih =>
      intro t moved valid
      rcases safe t moved valid with ⟨allowed, rest⟩
      exact ⟨allowed, fun r u answered => ih r (rest r u answered)⟩

theorem attempt {post : Except ε (Except ε α) → σ → Prop}
    (safe : Safe W ok p (fun r t => post (.ok r) t) s) :
    Safe W ok p.attempt post s := by
  induction p generalizing s with
  | done r => exact safe
  | call op next ih =>
      intro t moved valid
      rcases safe t moved valid with ⟨allowed, rest⟩
      exact ⟨allowed, fun r u answered => ih r (rest r u answered)⟩

theorem perform {op : Op} {post : Except ε (Answer op) → σ → Prop}
    (allowed : ∀ t, W.Later s t → W.valid t → ok op t)
    (holds : ∀ t r u v, W.Later s t → W.valid t → W.answers op t r u → W.Later u v → W.valid v →
      post r v) : Safe W ok (Program.perform op) post s := by
  intro t moved valid
  exact ⟨allowed t moved valid, fun r u answered v onward valid' =>
    holds t r u v moved valid answered onward valid'⟩

/-- A fact that neither others nor answers undo still holds at the end. -/
theorem keep {K : σ → Prop} (moves : ∀ a b, W.other a b → K a → K b)
    (replies : ∀ op a r b, W.valid a → W.answers op a r b → K a → K b)
    (safe : Safe W ok p post s) (holds : K s) :
    Safe W ok p (fun r t => post r t ∧ K t) s := by
  induction p generalizing s with
  | done r => exact fun t moved valid => ⟨safe t moved valid, moved.keeps moves holds⟩
  | call op next ih =>
      intro t moved valid
      rcases safe t moved valid with ⟨allowed, rest⟩
      exact ⟨allowed, fun r u answered =>
        ih r (rest r u answered) (replies op t r u valid answered (moved.keeps moves holds))⟩

/-- Whatever is reached, the next operation is issued where it is allowed. -/
theorem sound {q : Program Op Answer ε α} (safe : Safe W ok p post s) (valid : W.valid s)
    (reached : Relation.ReflTransGen (W.Step (α := α)) (s, p) (t, q)) :
    W.valid t ∧ Safe W ok q post t := by
  have along : ∀ c : σ × Program Op Answer ε α, Relation.ReflTransGen W.Step (s, p) c →
      W.valid c.1 ∧ Safe W ok c.2 post c.1 := by
    intro c path
    induction path with
    | refl => exact ⟨valid, safe⟩
    | tail _ taken ih =>
        cases taken with
        | other moved => exact ⟨W.other_valid ih.1 moved, ih.2.later (.single moved)⟩
        | answer answered =>
            exact ⟨W.answers_valid ih.1 answered, (ih.2 _ .refl ih.1).2 _ _ answered⟩
  exact along (t, q) reached

end Safe

/-! ### Worlds that keep their answers -/

/-- One answer, and the state it was given in. -/
structure Event (σ Op : Type) (Answer : Op → Type) (ε : Type) where
  op : Op
  state : σ
  answer : Except ε (Answer op)

/-- The world with the list of the answers given so far. -/
def World.logged (W : World σ Op Answer ε) :
    World (σ × List (Event σ Op Answer ε)) Op Answer ε where
  other a b := W.other a.1 b.1 ∧ b.2 = a.2
  valid a := W.valid a.1
  answers op a r b := W.answers op a.1 r b.1 ∧ b.2 = a.2 ++ [⟨op, a.1, r⟩]
  other_valid valid moved := W.other_valid valid moved.1
  answers_valid valid answered := W.answers_valid valid answered.1

variable {W : World σ Op Answer ε} {a b : σ × List (Event σ Op Answer ε)}

/-- Others give no answers. -/
theorem World.logged_later (later : W.logged.Later a b) : b.2 = a.2 := by
  have kept : ∀ s t, W.logged.other s t → s.2 = a.2 → t.2 = a.2 :=
    fun _ _ moved same => moved.2.trans same
  exact later.keeps (P := fun s => s.2 = a.2) kept rfl

/-- A program that only issues some operations is safe when the answers to these keep what
allows them. -/
theorem Safe.of_issues {ok : Op → σ × List (Event σ Op Answer ε) → Prop} {narrow : Op → Prop}
    {K : List (Event σ Op Answer ε) → Prop} {p : Program Op Answer ε α}
    (issues : p.Issues narrow)
    (allowed : ∀ op w log, narrow op → K log → ok op (w, log))
    (grows : ∀ op w r log, narrow op → K log → K (log ++ [⟨op, w, r⟩]))
    (holds : K a.2) : Safe W.logged ok p (fun _ t => K t.2) a := by
  induction p generalizing a with
  | done r =>
      intro t moved _
      rw [World.logged_later moved]
      exact holds
  | call op next ih =>
      rcases issues with ⟨here, rest⟩
      intro t moved _
      have now : K t.2 := by
        rw [World.logged_later moved]
        exact holds
      refine ⟨allowed op t.1 t.2 here now, fun r u answered => ih r (rest r) ?_⟩
      rw [answered.2]
      exact grows op t.1 r t.2 here now

end

end OverUnder.Library
