/-
Module: OverUnder.Proofs.SingleFlight
Purpose: When the guard keeps one tick at a time: whenever a check ends, every earlier
  execution still running was listed and has a smaller creation time to the microsecond.
Trusted boundary: none
Main exports: Orderly, clear, Orderly.step, single_flight, ticks_overlap
-/
import Mathlib
import OverUnder.Library.Reachable
import OverUnder.Oracles.TickLease

namespace OverUnder.Oracles.TickLease

open OverUnder.Library

variable {s t : List Execution} {e a : Execution} {mine : Resource} {listed : List Resource}
variable {i j : Nat} {ended : Bool}

/-! ### What the guard reports -/

/-- Created before, as far as the guard can tell. -/
def older (first second : List Char) : Bool :=
  match ts (some first), ts (some second) with
  | .ok (some created), .ok (some myCreated) => decide (created < myCreated)
  | _, _ => false

theorem olderNames_nil {myCreated : Option Int}
    (none_found : olderNames mine myCreated listed = .ok []) {r : Resource} (member : r ∈ listed)
    (other : r.name ≠ mine.name) (unfinished : truthy r.completionTime = false) {created now : Int}
    (time : ts r.createTime = .ok (some created)) (myTime : myCreated = some now) :
    now ≤ created := by
  induction listed with
  | nil => cases member
  | cons first rest ih =>
      unfold olderNames at none_found
      split at none_found
      · next skipped =>
        rcases List.mem_cons.mp member with rfl | later
        · rcases skipped with same | finished
          · exact absurd same other
          · rw [unfinished] at finished
            cases finished
        · exact ih none_found later
      · cases parsed : ts first.createTime with
        | error why =>
            rw [parsed] at none_found
            cases none_found
        | ok firstCreated =>
            cases found : olderNames mine myCreated rest with
            | error why =>
                rw [parsed, found] at none_found
                cases none_found
            | ok out =>
                rw [parsed, found, myTime] at none_found
                simp only [bind, Except.bind] at none_found
                rcases List.mem_cons.mp member with rfl | later
                · rw [parsed, Except.ok.injEq] at time
                  rw [time] at none_found
                  simp only at none_found
                  split at none_found
                  · cases none_found
                  · next young => exact Int.not_lt.mp young
                · apply ih _ later
                  rw [found]
                  cases firstCreated with
                  | none => exact none_found
                  | some _ =>
                      simp only at none_found
                      split at none_found
                      · cases none_found
                      · exact none_found

/-- If the guard reports nobody, no unfinished execution listed is older. -/
theorem olderRunning_nil (none_found : olderRunning listed mine = .ok []) {r : Resource}
    (member : r ∈ listed) (other : r.name ≠ mine.name)
    (unfinished : truthy r.completionTime = false) {first second : List Char}
    (created : r.createTime = some first) (myCreated : mine.createTime = some second) :
    older first second = false := by
  unfold older
  split
  · next created' now time myTime =>
    rw [← created] at time
    simp only [olderRunning, myCreated, myTime, bind, Except.bind] at none_found
    rw [decide_eq_false_iff_not, Int.not_lt]
    exact olderNames_nil none_found member other unfinished time rfl
  · rfl

/-! ### Runs -/

/-- The execution has completed. -/
def Execution.Done (e : Execution) : Prop := e.completionTime ≠ none

/-- What an execution listed is about an execution of the job, and is not ahead of it. -/
def Shows (s : List Execution) (r : Resource) : Prop :=
  ∃ x ∈ s, r.name = some x.name ∧ r.createTime = some x.createTime ∧
    (truthy r.completionTime = true → x.Done)

/-- What the check of the execution at `i` knows. -/
structure Informed (s : List Execution) (i : Nat) (e : Execution) (mine : Resource)
    (listed : List Resource) (ended : Bool) : Prop where
  own : mine.name = some e.name ∧ mine.createTime = some e.createTime
  shown : ∀ r ∈ listed, Shows s r
  whole : ended = true → ∀ (j : Nat) (a : Execution), j < i → s[j]? = some a →
    ∃ r ∈ listed, r.name = some a.name

/-- What every state of a run satisfies while no check goes wrong. -/
structure Orderly (s : List Execution) : Prop where
  names : ∀ (i j : Nat) (a b : Execution), s[i]? = some a → s[j]? = some b → a.name = b.name → i = j
  informed : ∀ (i : Nat) (e : Execution) mine listed pages ended, s[i]? = some e →
    e.phase = .listing mine listed pages ended → Informed s i e mine listed ended
  alone : ∀ (i : Nat) (e : Execution), s[i]? = some e → e.phase = .running →
    ∀ (j : Nat) (a : Execution), j < i → s[j]? = some a → a.Done

/-- Executions stay, completed ones completed. -/
def Later (s t : List Execution) : Prop :=
  ∀ (i : Nat) (a : Execution), s[i]? = some a →
    ∃ b, t[i]? = some b ∧ b.name = a.name ∧ b.createTime = a.createTime ∧ (a.Done → b.Done)

theorem Shows.later {r : Resource} (later : Later s t) (shown : Shows s r) : Shows t r := by
  rcases shown with ⟨x, member, name, created, finished⟩
  rcases List.mem_iff_getElem?.mp member with ⟨k, here⟩
  rcases later k x here with ⟨y, there, sameName, sameTime, done⟩
  refine ⟨y, List.mem_iff_getElem?.mpr ⟨k, there⟩, ?_, ?_, fun ends => done (finished ends)⟩
  · rw [sameName]
    exact name
  · rw [sameTime]
    exact created

/-- An execution changes its phase. -/
theorem later_set (here : s[i]? = some e) (name : a.name = e.name)
    (created : a.createTime = e.createTime) (done : e.Done → a.Done) : Later s (s.set i a) := by
  intro k b there
  by_cases same : k = i
  · subst same
    rw [here, Option.some.injEq] at there
    subst there
    have bound : k < s.length := (List.getElem?_eq_some_iff.mp here).1
    exact ⟨a, List.getElem?_set_self bound, name, created, done⟩
  · exact ⟨b, by rw [List.getElem?_set_ne (Ne.symm same)]; exact there, rfl, rfl, id⟩

/-- Only the new phase has to be checked. -/
theorem Orderly.set (inv : Orderly s) (here : s[i]? = some e) (name : a.name = e.name)
    (created : a.createTime = e.createTime) (done : e.Done → a.Done)
    (informed : ∀ mine listed pages ended, a.phase = .listing mine listed pages ended →
      Informed s i e mine listed ended)
    (alone : a.phase = .running → ∀ (j : Nat) (b : Execution), j < i → s[j]? = some b → b.Done) :
    Orderly (s.set i a) := by
  have later := later_set here name created done
  -- an execution after the change, and what it was before
  have before : ∀ (k : Nat) (b : Execution), (s.set i a)[k]? = some b →
      (k = i ∧ b = a) ∨ (k ≠ i ∧ s[k]? = some b) := by
    intro k b there
    by_cases same : k = i
    · subst same
      have bound : k < s.length := (List.getElem?_eq_some_iff.mp here).1
      rw [List.getElem?_set_self bound, Option.some.injEq] at there
      exact .inl ⟨rfl, there.symm⟩
    · rw [List.getElem?_set_ne (Ne.symm same)] at there
      exact .inr ⟨same, there⟩
  have named : ∀ (k : Nat) (b : Execution), (s.set i a)[k]? = some b →
      ∃ c, s[k]? = some c ∧ b.name = c.name ∧ (c.Done → b.Done) := by
    intro k b there
    rcases before k b there with ⟨rfl, rfl⟩ | ⟨-, there⟩
    · exact ⟨e, here, name, done⟩
    · exact ⟨b, there, rfl, id⟩
  have carried : ∀ {k : Nat} {b c : Execution} {mine listed ended}, b.name = c.name →
      b.createTime = c.createTime → Informed s k c mine listed ended →
      Informed (s.set i a) k b mine listed ended := by
    intro k b c mine listed ended sameName sameTime knows
    refine ⟨?_, fun r member => (knows.shown r member).later later, fun whole j x before here' => ?_⟩
    · rw [sameName, sameTime]
      exact knows.own
    · rcases named j x here' with ⟨y, there, sameAs, -⟩
      rw [sameAs]
      exact knows.whole whole j y before there
  constructor
  · intro k l b c there there' same
    rcases named k b there with ⟨b', at_k, bName, -⟩
    rcases named l c there' with ⟨c', at_l, cName, -⟩
    exact inv.names k l b' c' at_k at_l (by rw [← bName, ← cName, same])
  · intro k b mine listed pages ended there phase
    rcases before k b there with ⟨rfl, rfl⟩ | ⟨-, there⟩
    · exact carried name created (informed mine listed pages ended phase)
    · exact carried rfl rfl (inv.informed k b mine listed pages ended there phase)
  · intro k b there phase j x earlier here'
    rcases named j x here' with ⟨y, at_j, -, kept⟩
    rcases before k b there with ⟨rfl, rfl⟩ | ⟨-, there⟩
    · exact kept (alone phase j y earlier at_j)
    · exact kept (inv.alone k b there phase j y earlier at_j)

/-- A new execution comes last and is not running. -/
theorem Orderly.create (inv : Orderly s) {name : String} {createTime : List Char}
    (fresh : ∀ x ∈ s, x.name ≠ name) : Orderly (s ++ [⟨name, createTime, .created⟩]) := by
  have before : ∀ (k : Nat) (b : Execution),
      (s ++ [⟨name, createTime, .created⟩])[k]? = some b →
      s[k]? = some b ∨ (k = s.length ∧ b = ⟨name, createTime, .created⟩) := by
    intro k b there
    rcases Nat.lt_trichotomy k s.length with inside | last | outside
    · rw [List.getElem?_append_left inside] at there
      exact .inl there
    · rw [last, List.getElem?_concat_length, Option.some.injEq] at there
      exact .inr ⟨last, there.symm⟩
    · rw [List.getElem?_eq_none (by simpa using Nat.succ_le_of_lt outside)] at there
      cases there
  have older : ∀ (k j : Nat) (b c : Execution), s[k]? = some b → j < k →
      (s ++ [⟨name, createTime, .created⟩])[j]? = some c → s[j]? = some c := by
    intro k j b c at_k earlier there
    have bound : k < s.length := (List.getElem?_eq_some_iff.mp at_k).1
    rcases before j c there with there | ⟨last, -⟩
    · exact there
    · omega
  have member : ∀ (k : Nat) (b : Execution), s[k]? = some b → b ∈ s :=
    fun k b there => List.mem_iff_getElem?.mpr ⟨k, there⟩
  constructor
  · intro k l b c at_k at_l same
    rcases before k b at_k with at_k | ⟨k_last, rfl⟩ <;>
      rcases before l c at_l with at_l | ⟨l_last, rfl⟩
    · exact inv.names k l b c at_k at_l same
    · exact absurd same (fresh b (member k b at_k))
    · exact absurd same.symm (fresh c (member l c at_l))
    · rw [k_last, l_last]
  · intro k b mine listed pages ended at_k phase
    rcases before k b at_k with at_k | ⟨-, rfl⟩
    · have knows := inv.informed k b mine listed pages ended at_k phase
      refine ⟨knows.own, fun r among => ?_, fun whole j x earlier at_j => ?_⟩
      · rcases knows.shown r among with ⟨x, here, shown⟩
        exact ⟨x, List.mem_append_left _ here, shown⟩
      · exact knows.whole whole j x earlier (older k j b x at_k earlier at_j)
    · cases phase
  · intro k b at_k phase j x earlier at_j
    rcases before k b at_k with at_k | ⟨-, rfl⟩
    · exact inv.alone k b at_k phase j x earlier (older k j b x at_k earlier at_j)
    · cases phase

/-- When a check may end: every earlier execution that has not completed has a smaller
creation time as parsed, and the listing ended before the page cap or showed it. -/
def clear (s : List Execution) : Action → Bool
  | .decide i =>
      match s[i]? with
      | some ⟨_, createTime, .listing _ listed _ ended⟩ =>
          (s.take i).all fun a => a.completionTime.isSome ||
            (older a.createTime createTime && (ended || listed.any fun r => r.name = some a.name))
      | _ => true
  | _ => true

theorem clear_decide {pages : Nat} (cleared : clear s (.decide i) = true) (here : s[i]? = some e)
    (phase : e.phase = .listing mine listed pages ended) (earlier : j < i)
    (there : s[j]? = some a) (unfinished : ¬ a.Done) :
    older a.createTime e.createTime = true ∧
      (ended = true ∨ ∃ r ∈ listed, r.name = some a.name) := by
  rcases e with ⟨name, createTime, _⟩
  simp only at phase
  subst phase
  have among : a ∈ s.take i := by
    rw [List.mem_iff_getElem?]
    exact ⟨j, by rw [List.getElem?_take_of_lt earlier]; exact there⟩
  simp only [clear, here, List.all_eq_true] at cleared
  have each := cleared a among
  simp only [Execution.Done, ne_eq, not_not] at unfinished
  simpa [unfinished] using each

/-- A check that ends clear and reports nobody ends after all earlier executions. -/
theorem Informed.alone (inv : Orderly s) (here : s[i]? = some e)
    (knows : Informed s i e mine listed ended)
    (cleared : ∀ (j : Nat) (a : Execution), j < i → s[j]? = some a → ¬ a.Done →
      older a.createTime e.createTime = true ∧
      (ended = true ∨ ∃ r ∈ listed, r.name = some a.name))
    (none_found : olderRunning listed mine = .ok []) :
    ∀ (j : Nat) (a : Execution), j < i → s[j]? = some a → a.Done := by
  intro j a earlier there
  by_contra unfinished
  rcases cleared j a earlier there unfinished with ⟨before, listing⟩
  have found : ∃ r ∈ listed, r.name = some a.name := by
    rcases listing with whole | found
    · exact knows.whole whole j a earlier there
    · exact found
  rcases found with ⟨r, member, name⟩
  rcases knows.shown r member with ⟨x, among, xName, xTime, finished⟩
  have same : x = a := by
    rcases List.mem_iff_getElem?.mp among with ⟨k, at_k⟩
    have index := inv.names k j x a at_k there (Option.some.inj (xName.symm.trans name))
    rw [index, there, Option.some.injEq] at at_k
    exact at_k.symm
  subst same
  have other : r.name ≠ mine.name := by
    rw [name, knows.own.1]
    intro same
    exact Nat.ne_of_lt earlier (inv.names j i x e there here (Option.some.inj same))
  have open_ : truthy r.completionTime = false :=
    eq_false_of_ne_true fun ends => unfinished (finished ends)
  have younger := olderRunning_nil none_found member other open_ xTime knows.own.2
  rw [before] at younger
  cases younger

/-- What the API shows is so. -/
theorem shows_resource (member : e ∈ s) : Shows s e.resource := by
  refine ⟨e, member, rfl, rfl, fun ends none_yet => ?_⟩
  rw [show e.resource.completionTime = e.completionTime from rfl, none_yet] at ends
  cases ends

theorem Orderly.step (inv : Orderly s) {action : Action} (cleared : clear s action = true)
    (done : step s action = some t) : Orderly t := by
  cases action with
  | create name createTime =>
      simp only [TickLease.step, Option.bind_eq_bind, Option.bind_eq_some_iff, Option.guard_eq_some',
        exists_const, Option.pure_def, Option.some.injEq] at done
      rcases done with ⟨fresh, -, rfl⟩
      simp only [List.all_eq_true, decide_eq_true_eq] at fresh
      exact inv.create fresh
  | get i =>
      simp only [TickLease.step, Option.bind_eq_bind, Option.bind_eq_some_iff] at done
      rcases done with ⟨e, here, done⟩
      split at done
      · next phase =>
        rw [Option.pure_def, Option.some.injEq] at done
        subst done
        refine inv.set here rfl rfl (fun finished => ?_) ?_ (fun running => by cases running)
        · simp [Execution.Done, Execution.completionTime, phase] at finished
        · rintro mine listed pages ended ⟨rfl, rfl, rfl, rfl⟩
          exact ⟨⟨rfl, rfl⟩, by simp, by simp⟩
      · cases done
  | list i entries nextPage =>
      simp only [TickLease.step, Option.bind_eq_bind, Option.bind_eq_some_iff] at done
      rcases done with ⟨e, here, done⟩
      split at done
      · next mine listed pages phase =>
        simp only [Option.bind_eq_some_iff, Option.guard_eq_some', exists_const, Option.pure_def,
          Option.some.injEq] at done
        rcases done with ⟨-, -, truthful, whole, rfl⟩
        have knows := inv.informed i e mine listed pages false here phase
        refine inv.set here rfl rfl (fun finished => ?_) ?_ (fun running => by cases running)
        · simp [Execution.Done, Execution.completionTime, phase] at finished
        · rintro mine' listed' pages' ended' ⟨rfl, rfl, rfl, rfl⟩
          refine ⟨knows.own, fun r member => ?_, fun ends j a earlier there => ?_⟩
          · rcases List.mem_append.mp member with old | new
            · exact knows.shown r old
            · rcases List.any_eq_true.mp (List.all_eq_true.mp truthful r new) with ⟨x, among, same⟩
              rw [← of_decide_eq_true same]
              exact shows_resource among
          · have last : nextPage = false := by simpa using ends
            rw [last, Bool.false_or, List.all_eq_true] at whole
            have among : a ∈ s.take i := by
              rw [List.mem_iff_getElem?]
              exact ⟨j, by rw [List.getElem?_take_of_lt earlier]; exact there⟩
            rcases List.any_eq_true.mp (whole a among) with ⟨r, member, same⟩
            exact ⟨r, member, of_decide_eq_true same⟩
      · cases done
  | decide i =>
      simp only [TickLease.step, Option.bind_eq_bind, Option.bind_eq_some_iff] at done
      rcases done with ⟨e, here, done⟩
      split at done
      · next mine listed pages ended phase =>
        simp only [Option.bind_eq_some_iff, Option.guard_eq_some', exists_const,
          Option.pure_def] at done
        rcases done with ⟨-, done⟩
        have unfinished : ¬ e.Done := by
          simp [Execution.Done, Execution.completionTime, phase]
        have knows := inv.informed i e mine listed pages ended here phase
        split at done
        · next none_found =>
          rw [Option.some.injEq] at done
          subst done
          refine inv.set here rfl rfl (fun finished => absurd finished unfinished)
            (fun _ _ _ _ phase => by cases phase) fun _ => ?_
          exact knows.alone inv here (fun j a => clear_decide cleared here phase) none_found
        · rw [Option.some.injEq] at done
          subst done
          exact inv.set here rfl rfl (fun finished => absurd finished unfinished)
            (fun _ _ _ _ phase => by cases phase) (fun phase => by cases phase)
        · cases done
      · cases done
  | complete i completionTime =>
      simp only [TickLease.step, Option.bind_eq_bind, Option.bind_eq_some_iff, Option.guard_eq_some',
        exists_const, Option.pure_def, Option.some.injEq] at done
      rcases done with ⟨e, here, -, rfl⟩
      exact inv.set here rfl rfl (fun _ => by simp [Execution.Done, Execution.completionTime])
        (fun _ _ _ _ phase => by cases phase) (fun phase => by cases phase)

/-- In a run whose checks all end clear, at most one execution is past an acquired lease and
not yet completed. -/
theorem single_flight {labels : List Action} {b : Execution}
    (path : Run (fun s action t => clear s action = true ∧ step s action = some t) [] labels s)
    (at_i : s[i]? = some a) (at_j : s[j]? = some b) (running : a.phase = .running)
    (running' : b.phase = .running) : i = j := by
  have inv : Orderly s := by
    apply path.invariant (I := Orderly)
    · constructor <;> simp
    · intro s action t inv taken
      exact inv.step taken.1 taken.2
  have busy : ∀ e : Execution, e.phase = .running → ¬ e.Done := by
    intro e phase
    simp [Execution.Done, Execution.completionTime, phase]
  rcases Nat.lt_trichotomy i j with before | same | after
  · exact absurd (inv.alone j b at_j running' i a before at_i) (busy a running)
  · exact same
  · exact absurd (inv.alone i a at_i running j b after at_j) (busy b running')

/-- The whole check of the execution at `i` when the listing is one page. -/
def checking (i : Nat) (entries : List Resource) : List Action :=
  [.get i, .list i entries false, .decide i]

/-- Two executions, the second created while the first is running. -/
def sampleTicks (first second : String) : List Action :=
  let a : Resource := ⟨some "tick-a", some first.toList, none⟩
  let b : Resource := ⟨some "tick-b", some second.toList, none⟩
  [.create "tick-a" first.toList] ++ checking 0 [a] ++ [.create "tick-b" second.toList] ++
    checking 1 [a, b]

/-- The theorem on two executions a second apart: the second one is held. -/
theorem single_flight_second_held :
    ∃ (s : List Execution) (a b : Execution), s[0]? = some a ∧ s[1]? = some b ∧
      a.phase = .running ∧ b.phase = .held ∧
      ∀ (j : Nat) (e : Execution), s[j]? = some e → e.phase = .running → 0 = j := by
  let actions := sampleTicks "2026-07-01T12:00:00.5Z" "2026-07-01T12:00:01.5Z"
  let taken := fun (s : List Execution) action => if clear s action then step s action else none
  have phases : (actions.foldlM taken []).map (fun s => s.map (·.phase)) =
      some [.running, .held] := by
    decide +kernel
  rcases Option.map_eq_some_iff.mp phases with ⟨s, done, shape⟩
  have path : Run (fun s action t => clear s action = true ∧ step s action = some t) [] actions s := by
    refine Run.of_foldlM (fun s action t done => ?_) done
    simp only [taken] at done
    split at done
    · next cleared => exact ⟨cleared, done⟩
    · cases done
  have first := congrArg (fun phases => phases[0]?) shape
  have second := congrArg (fun phases => phases[1]?) shape
  simp only [List.getElem?_map, List.getElem?_cons_zero, List.getElem?_cons_succ,
    Option.map_eq_some_iff] at first second
  rcases first with ⟨a, at_0, running⟩
  rcases second with ⟨b, at_1, held⟩
  exact ⟨s, a, b, at_0, at_1, running, held, fun j e at_j running' =>
    single_flight path at_0 at_j running running'⟩

/-- Two executions created in the same microsecond, the first one still running when the
second one ends its check and runs as well. -/
theorem ticks_overlap :
    ∃ (labels : List Action) (s : List Execution) (a b : Execution),
      Run (fun s action t => step s action = some t) [] labels s ∧
      s[0]? = some a ∧ s[1]? = some b ∧ nanoseconds a.createTime = some 63918590400123456100 ∧
      nanoseconds b.createTime = some 63918590400123456900 ∧
      a.phase = .running ∧ b.phase = .running := by
  let actions := sampleTicks "2026-07-01T12:00:00.123456100Z" "2026-07-01T12:00:00.123456900Z"
  have shape : (actions.foldlM step []).map (fun s => s.map fun e =>
      (nanoseconds e.createTime, e.phase)) =
      some [(some 63918590400123456100, .running), (some 63918590400123456900, .running)] := by
    decide +kernel
  rcases Option.map_eq_some_iff.mp shape with ⟨s, done, shape⟩
  have first := congrArg (fun rows => rows[0]?) shape
  have second := congrArg (fun rows => rows[1]?) shape
  simp only [List.getElem?_map, List.getElem?_cons_zero, List.getElem?_cons_succ,
    Option.map_eq_some_iff, Prod.mk.injEq] at first second
  rcases first with ⟨a, at_0, created, running⟩
  rcases second with ⟨b, at_1, created', running'⟩
  exact ⟨actions, s, a, b, Run.of_foldlM (fun _ _ _ taken => taken) done, at_0, at_1, created,
    created', running, running'⟩

end OverUnder.Oracles.TickLease
