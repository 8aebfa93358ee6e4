/-
Module: OverUnder.Library.Transcripts
Purpose: A program on its own, against any answers at all: the transcripts of its exchanges, and
  the condition that each operation is issued only where what was answered so far allows it.
Trusted boundary: none
Main exports: Exchange, Transcript, Program.pending, Transcript.of_pending, Guarded, Returns,
  Guarded.bind, Guarded.attempt, Guarded.perform, Guarded.mono, Guarded.grows, Guarded.foldlM,
  Guarded.sound
-/
import Mathlib
import OverUnder.Library.Interaction

namespace OverUnder.Library

/-- An operation and its answer. -/
structure Exchange (Op : Type) (Answer : Op → Type) (ε : Type) where
  op : Op
  answer : Except ε (Answer op)

variable {Op : Type} {Answer : Op → Type} {ε α β : Type}

/-- `Transcript p log q`: after the exchanges of `log`, in order, `p` has become `q`. -/
inductive Transcript :
    Program Op Answer ε α → List (Exchange Op Answer ε) → Program Op Answer ε α → Prop where
  | refl (p : Program Op Answer ε α) : Transcript p [] p
  | step {op : Op} {next : Except ε (Answer op) → Program Op Answer ε α}
      {r : Except ε (Answer op)} {log : List (Exchange Op Answer ε)} {q : Program Op Answer ε α}
      (rest : Transcript (next r) log q) : Transcript (.call op next) (⟨op, r⟩ :: log) q

/-- The operation a program stops at after the exchanges of a log, if it follows them. -/
def Program.pending [DecidableEq Op] :
    Program Op Answer ε α → List (Exchange Op Answer ε) → Option Op
  | .done _, _ => none
  | .call op _, [] => some op
  | .call op next, e :: log =>
      if same : e.op = op then (next (same ▸ e.answer)).pending log else none

theorem Transcript.of_pending [DecidableEq Op] {p : Program Op Answer ε α}
    {log : List (Exchange Op Answer ε)} {op : Op} (pending : p.pending log = some op) :
    ∃ next, Transcript p log (.call op next) := by
  induction log generalizing p with
  | nil =>
      cases p with
      | done r => cases pending
      | call op' next =>
          cases pending
          exact ⟨next, .refl _⟩
  | cons e log ih =>
      cases p with
      | done r => cases pending
      | call op' next =>
          rcases e with ⟨answered, r⟩
          simp only [Program.pending] at pending
          split at pending
          · rename_i same
            cases same
            rcases ih pending with ⟨last, rest⟩
            exact ⟨last, .step rest⟩
          · cases pending

/-- After the exchanges of the log, and whatever is answered, `p` issues an operation only where
`ok` allows it and ends with `post`. -/
def Guarded (ok : List (Exchange Op Answer ε) → Op → Prop) : Program Op Answer ε α →
    (Except ε α → List (Exchange Op Answer ε) → Prop) → List (Exchange Op Answer ε) → Prop
  | .done r, post, log => post r log
  | .call op next, post, log => ok log op ∧ ∀ r, Guarded ok (next r) post (log ++ [⟨op, r⟩])

/-- A condition on the value returned; an exception may be raised anywhere. -/
def Returns (value : α → List (Exchange Op Answer ε) → Prop) (r : Except ε α)
    (log : List (Exchange Op Answer ε)) : Prop := ∀ a, r = .ok a → value a log

namespace Guarded

variable {ok : List (Exchange Op Answer ε) → Op → Prop} {p q : Program Op Answer ε α}
  {post post' : Except ε α → List (Exchange Op Answer ε) → Prop}
  {log more : List (Exchange Op Answer ε)}

theorem mono (guarded : Guarded ok p post log) (weaker : ∀ r log, post r log → post' r log) :
    Guarded ok p post' log := by
  induction p generalizing log with
  | done r => exact weaker r log guarded
  | call op next ih => exact ⟨guarded.1, fun r => ih r (guarded.2 r)⟩

/-- What holds however `p` ends holds of the value it returns. -/
theorem returns (guarded : Guarded ok p post log) :
    Guarded ok p (Returns fun a log => post (.ok a) log) log := by
  apply guarded.mono
  intro r log holds a returned
  cases returned
  exact holds

theorem pure {a : α} {value : α → List (Exchange Op Answer ε) → Prop} (holds : value a log) :
    Guarded ok (Pure.pure a : Program Op Answer ε α) (Returns value) log := by
  intro b returned
  cases returned
  exact holds

theorem raise {e : ε} {value : α → List (Exchange Op Answer ε) → Prop} :
    Guarded ok (Program.raise e) (Returns value) log := by
  intro b returned
  cases returned

/-- The strongest that is known after one operation. -/
theorem perform {op : Op} (allowed : ok log op) :
    Guarded ok (Program.perform op) (fun r log' => log' = log ++ [⟨op, r⟩]) log :=
  ⟨allowed, fun _ => rfl⟩

/-- What comes after `p` is guarded where `p` returns; an exception of `p` goes up. -/
theorem bind {f : α → Program Op Answer ε β} {value : α → List (Exchange Op Answer ε) → Prop}
    {value' : β → List (Exchange Op Answer ε) → Prop}
    (first : Guarded ok p (Returns value) log)
    (rest : ∀ a log, value a log → Guarded ok (f a) (Returns value') log) :
    Guarded ok (p >>= f) (Returns value') log := by
  induction p generalizing log with
  | done r =>
      cases r with
      | ok a => exact rest a log (first a rfl)
      | error e =>
          intro b returned
          cases returned
  | call op next ih => exact ⟨first.1, fun r => ih r (first.2 r)⟩

theorem attempt (guarded : Guarded ok p post log) : Guarded ok p.attempt (Returns post) log := by
  induction p generalizing log with
  | done r =>
      intro result returned
      cases returned
      exact guarded
  | call op next ih => exact ⟨guarded.1, fun r => ih r (guarded.2 r)⟩

/-- The log only grows. -/
theorem grows {value : α → List (Exchange Op Answer ε) → Prop}
    (guarded : Guarded ok p (Returns value) log) :
    Guarded ok p (Returns fun a log' => value a log' ∧ log <+: log') log := by
  induction p generalizing log with
  | done r =>
      intro a returned
      exact ⟨guarded a returned, List.prefix_rfl⟩
  | call op next ih =>
      refine ⟨guarded.1, fun r => (ih r (guarded.2 r)).mono ?_⟩
      intro result log' holds a returned
      rcases holds a returned with ⟨here, grown⟩
      exact ⟨here, (List.prefix_append log _).trans grown⟩

/-- A loop whose turns carry the invariant from the items left to one item less. -/
theorem foldlM {S : Type} {step : S → α → Program Op Answer ε S} {items : List α} {s : S}
    (invariant : List α → S → List (Exchange Op Answer ε) → Prop)
    (turn : ∀ s a rest log, invariant (a :: rest) s log →
      Guarded ok (step s a) (Returns (invariant rest)) log)
    (start : invariant items s log) :
    Guarded ok (items.foldlM step s) (Returns (invariant [])) log := by
  induction items generalizing s log with
  | nil =>
      intro t returned
      cases returned
      exact start
  | cons a rest ih =>
      rw [List.foldlM_cons]
      apply bind (turn s a rest log start)
      intro t log kept
      exact ih kept

/-- Whatever is answered, the program stays guarded along every transcript. -/
theorem along (guarded : Guarded ok p post log) (told : Transcript p more q) :
    Guarded ok q post (log ++ more) := by
  induction told generalizing log with
  | refl p =>
      rw [List.append_nil]
      exact guarded
  | step _ ih =>
      rw [List.append_cons]
      exact ih (guarded.2 _)

/-- The operation a transcript stops at is allowed there. -/
theorem sound {op : Op} {next : Except ε (Answer op) → Program Op Answer ε α}
    (guarded : Guarded ok p post []) (told : Transcript p more (.call op next)) : ok more op :=
  (guarded.along told).1

end Guarded

end OverUnder.Library
