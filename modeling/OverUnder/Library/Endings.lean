/-
Module: OverUnder.Library.Endings
Purpose: What a program in a shared world ends with: a value that satisfies a condition on the
  world it is left in, or an exception of a kind; and how these pass through sequences,
  handlers and single operations.
Trusted boundary: none
Main exports: Ends, World.Keeps, Ends.mono, Ends.pure, Ends.anyway, Ends.bind, Ends.handle,
  Ends.perform, Ends.ended, Ends.issues, Program.play, World.play_run
-/
import OverUnder.Library.Interaction

namespace OverUnder.Library

variable {σ Op : Type} {Answer : Op → Type} {ε α β : Type}

/-- The condition on how a program ended. -/
def Ending (P : α → σ → Prop) (E : ε → Prop) : Except ε α → σ → Prop
  | .ok a, t => P a t
  | .error e, _ => E e

/-- From `s` on the program issues allowed operations only and ends with a value in `P` or an
exception in `E`. -/
def Ends (W : World σ Op Answer ε) (ok : Op → σ → Prop) (p : Program Op Answer ε α)
    (P : α → σ → Prop) (E : ε → Prop) (s : σ) : Prop :=
  Safe W ok p (fun r t => W.valid t ∧ Ending P E r t) s

namespace World

variable (W : World σ Op Answer ε)

/-- Others do not undo the condition. -/
def Keeps (K : σ → Prop) : Prop := ∀ a b, W.valid a → W.other a b → K a → K b

variable {W} {K L : σ → Prop} {s t : σ}

theorem Keeps.later (keeps : W.Keeps K) (moved : W.Later s t) (valid : W.valid s)
    (holds : K s) : K t := by
  have both : W.valid t ∧ K t := by
    induction moved with
    | refl => exact ⟨valid, holds⟩
    | tail _ step ih => exact ⟨W.other_valid ih.1 step, keeps _ _ ih.1 step ih.2⟩
  exact both.2

theorem Keeps.and (first : W.Keeps K) (second : W.Keeps L) : W.Keeps fun s => K s ∧ L s :=
  fun a b valid moved holds =>
    ⟨first a b valid moved holds.1, second a b valid moved holds.2⟩

theorem Keeps.const (holds : Prop) : W.Keeps fun _ => holds := fun _ _ _ _ now => now

end World

namespace Ends

variable {W : World σ Op Answer ε} {ok : Op → σ → Prop} {p : Program Op Answer ε α}
  {P Q : α → σ → Prop} {R : β → σ → Prop} {E F : ε → Prop} {s t : σ}

theorem mono (ends : Ends W ok p Q F s) (value : ∀ a t, Q a t → P a t)
    (exception : ∀ e, F e → E e) : Ends W ok p P E s := by
  apply Safe.mono ends
  rintro r t ⟨valid, holds⟩
  cases r with
  | ok a => exact ⟨valid, value a t holds⟩
  | error e => exact ⟨valid, exception e holds⟩

/-- A value that satisfies what others keep. -/
theorem pure {a : α} (keeps : W.Keeps (P a)) (valid : W.valid s) (holds : P a s) :
    Ends W ok (Pure.pure a) P E s :=
  Safe.pure fun _ moved valid' => ⟨valid', keeps.later moved valid holds⟩

/-- A program that may issue anything ends somehow. -/
theorem anyway (all : ∀ op t, ok op t) (p : Program Op Answer ε α) :
    Ends W ok p (fun _ _ => True) (fun _ => True) s := by
  induction p generalizing s with
  | done r =>
      intro t _ valid
      cases r with
      | ok a => exact ⟨valid, trivial⟩
      | error e => exact ⟨valid, trivial⟩
  | call op next ih => exact fun t _ _ => ⟨all op t, fun r u _ => ih r⟩

theorem raise {e : ε} (holds : E e) : Ends W ok (Program.raise e) P E s :=
  Safe.raise fun _ _ valid => ⟨valid, holds⟩

theorem bind {f : α → Program Op Answer ε β} (first : Ends W ok p Q E s)
    (rest : ∀ a t, W.valid t → Q a t → Ends W ok (f a) R E t) : Ends W ok (p >>= f) R E s := by
  apply Safe.bind
  apply Safe.mono first
  rintro r t ⟨valid, holds⟩
  cases r with
  | ok a => exact rest a t valid holds
  | error e => exact fun _ _ valid' => ⟨valid', holds⟩

/-- A handler takes over an exception or goes on with the value. -/
theorem handle {f : Except ε α → Program Op Answer ε β} (first : Ends W ok p Q F s)
    (good : ∀ a t, W.valid t → Q a t → Ends W ok (f (.ok a)) R E t)
    (bad : ∀ e t, F e → Ends W ok (f (.error e)) R E t) : Ends W ok (p.attempt >>= f) R E s := by
  apply Safe.bind
  apply Safe.attempt
  apply Safe.mono first
  rintro r t ⟨valid, holds⟩
  cases r with
  | ok a => exact good a t valid holds
  | error e => exact bad e t holds

/-- An operation is answered in a state where what others keep still holds. -/
theorem perform {op : Op} {K : σ → Prop} {P : Answer op → σ → Prop}
    (allowed : ∀ t, W.valid t → K t → ok op t) (before : W.Keeps K) (after : ∀ a, W.Keeps (P a))
    (valid : W.valid s) (holds : K s)
    (good : ∀ t a u, W.valid t → K t → W.answers op t (.ok a) u → P a u)
    (bad : ∀ t e u, W.valid t → K t → W.answers op t (.error e) u → E e) :
    Ends W ok (Program.perform op) P E s := by
  apply Safe.perform
  · exact fun t moved valid' => allowed t valid' (before.later moved valid holds)
  · intro t r u v moved valid' answered onward valid''
    have now : K t := before.later moved valid holds
    refine ⟨valid'', ?_⟩
    cases r with
    | ok a =>
        have here : P a u := good t a u valid' now answered
        exact (after a).later onward (W.answers_valid valid' answered) here
    | error e => exact bad t e u valid' now answered

/-- The ending of a run that ended. -/
theorem ended {r : Except ε α} (ends : Ends W ok p P E s) (valid : W.valid s)
    (ran : Relation.ReflTransGen (W.Step (α := α)) (s, p) (t, .done r)) : Ending P E r t := by
  rcases Safe.sound ends valid ran with ⟨valid', ends'⟩
  exact (ends' t .refl valid').2

/-- A run that has not ended is about to issue an operation that is allowed where it stands. -/
theorem issues {op : Op} {next : Except ε (Answer op) → Program Op Answer ε α}
    (ends : Ends W ok p P E s) (valid : W.valid s)
    (ran : Relation.ReflTransGen (W.Step (α := α)) (s, p) (t, .call op next)) : ok op t := by
  rcases Safe.sound ends valid ran with ⟨valid', ends'⟩
  exact (ends' t .refl valid').1

end Ends

/-! ### Runs that can be computed -/

/-- The program with a way to answer its operations, while nobody else moves. -/
def Program.play (answer : (op : Op) → σ → Except ε (Answer op) × σ) :
    Program Op Answer ε α → σ → Except ε α × σ
  | .done r, s => (r, s)
  | .call op next, s => (next (answer op s).1).play answer (answer op s).2

/-- Playing is a run of the world that may answer so. -/
theorem World.play_run {W : World σ Op Answer ε} {answer : (op : Op) → σ → Except ε (Answer op) × σ}
    (answers : ∀ op s, W.answers op s (answer op s).1 (answer op s).2) (p : Program Op Answer ε α)
    (s : σ) : Relation.ReflTransGen (W.Step (α := α)) (s, p)
      ((p.play answer s).2, .done (p.play answer s).1) := by
  induction p generalizing s with
  | done r => exact .refl
  | call op next ih => exact .head (.answer (answers op s)) (ih _ _)

end OverUnder.Library
