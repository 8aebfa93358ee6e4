/-
Module: OverUnder.Library.Reservations
Purpose: Jobs that share resources. What a list of jobs asks of each resource is added up; a
  resource is reserved when it holds that much. A job admitted on top of the others, a job that
  takes its share and leaves, and changes by others that spare the jobs keep it reserved.
Trusted boundary: none
Main exports: claimed, claimed_perm, Reserved, Reserved.nil, Reserved.add, Reserved.perm,
  Reserved.covers, Reserved.leave, Reserved.settle, Reserved.spared
-/
import Mathlib

namespace OverUnder.Library.Reservations

variable {J K : Type} {demand : J → K → Nat} {held held' : K → Nat} {jobs jobs' : List J} {j : J}

/-- What a list of jobs asks of a resource in all. -/
def claimed (demand : J → K → Nat) (jobs : List J) (k : K) : Nat :=
  (jobs.map fun j => demand j k).sum

@[simp] theorem claimed_nil (demand : J → K → Nat) (k : K) : claimed demand [] k = 0 := rfl

@[simp] theorem claimed_cons (demand : J → K → Nat) (j : J) (jobs : List J) (k : K) :
    claimed demand (j :: jobs) k = demand j k + claimed demand jobs k := by
  simp [claimed]

theorem claimed_perm (same : jobs.Perm jobs') (k : K) :
    claimed demand jobs k = claimed demand jobs' k :=
  (same.map _).sum_eq

/-- Each job asks for its part of the whole. -/
theorem demand_le_claimed (there : j ∈ jobs) (k : K) : demand j k ≤ claimed demand jobs k := by
  induction there with
  | head => simp
  | tail _ _ ih =>
      rw [claimed_cons]
      omega

/-- A resource that no job asks for. -/
theorem claimed_eq_zero {k : K} (unasked : ∀ j ∈ jobs, demand j k = 0) :
    claimed demand jobs k = 0 := by
  induction jobs with
  | nil => rfl
  | cons j rest ih =>
      rw [claimed_cons, unasked j (.head _), ih fun j there => unasked j (.tail _ there)]

/-- Every resource holds what the jobs ask of it. -/
def Reserved (held : K → Nat) (demand : J → K → Nat) (jobs : List J) : Prop :=
  ∀ k, claimed demand jobs k ≤ held k

namespace Reserved

theorem nil (held : K → Nat) (demand : J → K → Nat) : Reserved held demand [] :=
  fun _ => Nat.zero_le _

/-- A job that finds enough beside what the others asked for. -/
theorem add (reserved : Reserved held demand jobs)
    (enough : ∀ k, demand j k ≠ 0 → demand j k + claimed demand jobs k ≤ held k) :
    Reserved held demand (j :: jobs) := by
  intro k
  rw [claimed_cons]
  by_cases asks : demand j k = 0
  · rw [asks, Nat.zero_add]
    exact reserved k
  · exact enough k asks

theorem perm (reserved : Reserved held demand jobs) (same : jobs.Perm jobs') :
    Reserved held demand jobs' :=
  fun k => (claimed_perm same k).symm.trans_le (reserved k)

theorem covers (reserved : Reserved held demand jobs) (there : j ∈ jobs) (k : K) :
    demand j k ≤ held k :=
  (demand_le_claimed there k).trans (reserved k)

theorem leave (reserved : Reserved held demand (j :: jobs)) : Reserved held demand jobs := by
  intro k
  have all := reserved k
  rw [claimed_cons] at all
  omega

/-- A job that takes no more than it asked for leaves enough to the others. -/
theorem settle (reserved : Reserved held demand (j :: jobs))
    (took : ∀ k, held k ≤ held' k + demand j k) : Reserved held' demand jobs := by
  intro k
  have all := reserved k
  have left := took k
  rw [claimed_cons] at all
  omega

/-- A change that lowers nothing that a job asks for. -/
theorem spared (reserved : Reserved held demand jobs)
    (kept : ∀ j ∈ jobs, ∀ k, demand j k ≠ 0 → held k ≤ held' k) : Reserved held' demand jobs := by
  intro k
  by_cases asked : ∃ j ∈ jobs, demand j k ≠ 0
  · rcases asked with ⟨j, there, asks⟩
    exact (reserved k).trans (kept j there k asks)
  · rw [claimed_eq_zero fun j there => not_not.mp fun asks => asked ⟨j, there, asks⟩]
    exact Nat.zero_le _

end Reserved

end OverUnder.Library.Reservations
