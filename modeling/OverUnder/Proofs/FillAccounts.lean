/-
Module: OverUnder.Proofs.FillAccounts
Purpose: The fill of an order covers the jobs that may still use it and the takes that are not
  jobs yet, and stays within the amount, statement by statement, as long as no confirmation
  overwrites a rollback and no two jobs record one transaction.
Trusted boundary: none
Main exports: queued, Balanced, Charged, Undone, Pc.Fits, Undisturbed, Accounts, Careful,
  accounts_step, Sums, fills_add_up, fills_fall_short
-/
import Mathlib
import OverUnder.Backend.FillRuns
import OverUnder.Library.Reachable

namespace OverUnder.Backend.FillRuns

open OverUnder.Vyper (Bytes32)
open OverUnder.Library
open RelayNonces (Status JobWrite)
open OrderBook

variable {b b' : Book} {c c' : Chain} {s s' : State} {p q : Party} {h k : Bytes32} {i : Nat}
  {qty : Int} {job : Job} {jobs jobs' : List Job}

/-- The job may still use the fill, or has. -/
def queued : Status → Bool
  | .pending | .sending | .sent | .confirmed => true
  | .failed | .cancelled => false

def isConfirmed (status : Status) : Bool := decide (status = .confirmed)

/-! ### Sums over jobs -/

/-- Two lists that differ in one place, in their sums. -/
theorem sum_le_of_single {α : Type} {f g : α → Int} {d : Int} {l m : List α}
    (same : m.length = l.length)
    (each : ∀ (n : Nat) a b, l[n]? = some a → m[n]? = some b →
      g b ≤ f a + if n = i then d else 0) :
    (m.map g).sum ≤ (l.map f).sum + if i < l.length then d else 0 := by
  induction l generalizing m i d with
  | nil =>
      cases List.length_eq_zero_iff.mp same
      simp
  | cons a l ih =>
      cases m with
      | nil => simp at same
      | cons b m =>
          have head := each 0 a b rfl rfl
          have tails : m.length = l.length := by simpa using same
          simp only [List.map_cons, List.sum_cons, List.length_cons]
          cases i with
          | zero =>
              have tail := ih (i := 0) (d := 0) tails fun n x y there there' => by
                simpa using each (n + 1) x y there there'
              simp only [if_true, ite_self, Nat.zero_lt_succ] at head tail ⊢
              omega
          | succ j =>
              have tail := ih (i := j) (d := d) tails fun n x y there there' => by
                simpa using each (n + 1) x y there there'
              simp only [Nat.add_lt_add_iff_right] at tail ⊢
              simp only [Nat.zero_ne_add_one, if_false] at head
              omega

theorem sum_le_pointwise {α : Type} {f g : α → Int} {l m : List α}
    (same : m.length = l.length)
    (each : ∀ (n : Nat) a b, l[n]? = some a → m[n]? = some b → g b ≤ f a) :
    (m.map g).sum ≤ (l.map f).sum := by
  have := sum_le_of_single (i := 0) (d := 0) same fun n a b there there' => by
    simpa using each n a b there there'
  simpa using this

theorem filling_nonneg {a : Status → Bool} (fills : ∀ job ∈ b.jobs, 0 ≤ job.fillAmount) :
    0 ≤ b.filling a h := by
  refine List.sum_nonneg fun x mem => ?_
  rcases List.mem_map.mp mem with ⟨job, there, rfl⟩
  split
  · exact fills job there
  · exact le_refl 0

/-- The jobs that may still use a fill and those that have. -/
theorem filling_queued : b.filling queued h = b.filling live h + b.filling isConfirmed h := by
  unfold Book.filling
  rw [← List.sum_map_add]
  congr 1
  refine List.map_congr_left fun job _ => ?_
  cases job.status <;> simp [queued, live, isConfirmed]

/-- An update of one job that does not add to the sum of those in some status. -/
theorem filling_setJob {among : Status → Bool} {f : Job → Job}
    (fewer : ∀ job, b.jobs[i]? = some job → (f job).takerHash = job.takerHash ∧
      (f job).makerHash = job.makerHash ∧ (f job).fillAmount = job.fillAmount ∧
        (among (f job).status = true → among job.status = true))
    (fills : ∀ job ∈ b.jobs, 0 ≤ job.fillAmount) :
    (b.setJob i f).filling among h ≤ b.filling among h := by
  refine sum_le_pointwise (by simp [Book.setJob]) fun n job job' there there' => ?_
  simp only [Book.setJob, List.getElem?_modify, there, Option.map_eq_map, Option.map_some,
    Option.some.injEq] at there'
  split at there'
  · next at_ =>
    subst at_
    subst there'
    rcases fewer job there with ⟨taker, maker, amount, status⟩
    have touches : (f job).touches h = job.touches h := by
      simp only [Job.touches, taker, maker]
    have positive := fills job (List.mem_of_getElem? there)
    rw [touches, amount]
    cases now : among (f job).status with
    | true =>
        rw [status now]
    | false =>
        simp only [Bool.false_and, Bool.false_eq_true, if_false]
        split
        · exact positive
        · exact le_refl 0
  · subst there'
    exact le_refl _

/-! ### The books -/

/-- Fills stay within amounts and cover the jobs and what is taken besides. -/
structure Balanced (b : Book) (taken : Bytes32 → Int) : Prop where
  bounds : ∀ h o, b.orders h = some o → 0 ≤ o.filled ∧ o.filled ≤ o.amount
  covered : ∀ h o, b.orders h = some o → b.filling queued h + taken h ≤ o.filled
  fills : ∀ job ∈ b.jobs, 0 ≤ job.fillAmount
  rows : ∀ job ∈ b.jobs, ∀ h, job.touches h = true → b.orders h ≠ none

namespace Balanced

variable {taken taken' : Bytes32 → Int}

theorem mono (balanced : Balanced b taken) (less : ∀ h, taken' h ≤ taken h) :
    Balanced b taken' where
  bounds := balanced.bounds
  covered := by
    intro h o there
    have := balanced.covered h o there
    have := less h
    omega
  fills := balanced.fills
  rows := balanced.rows

/-- An update of one order. -/
theorem setOrder {f : Order → Order} (balanced : Balanced b taken)
    (others : ∀ k, k ≠ h → taken' k ≤ taken k)
    (fine : ∀ o, b.orders h = some o → 0 ≤ (f o).filled ∧ (f o).filled ≤ (f o).amount ∧
      b.filling queued h + taken' h ≤ (f o).filled) : Balanced (b.setOrder h f) taken' where
  bounds := by
    intro k o there
    by_cases same : k = h
    · subst same
      simp only [Book.setOrder, Function.update_self, Option.map_eq_some_iff] at there
      rcases there with ⟨o, there, rfl⟩
      exact ⟨(fine o there).1, (fine o there).2.1⟩
    · simp only [Book.setOrder, Function.update_of_ne same] at there
      exact balanced.bounds k o there
  covered := by
    intro k o there
    by_cases same : k = h
    · subst same
      simp only [Book.setOrder, Function.update_self, Option.map_eq_some_iff] at there
      rcases there with ⟨o, there, rfl⟩
      exact (fine o there).2.2
    · simp only [Book.setOrder, Function.update_of_ne same] at there
      have := balanced.covered k o there
      have := others k same
      simp only [Book.setOrder, Book.filling] at this ⊢
      simp only [Book.filling] at *
      omega
  fills := balanced.fills
  rows := by
    intro job mem k touches
    have there := balanced.rows job mem k touches
    by_cases same : k = h
    · subst same
      simp only [Book.setOrder, Function.update_self]
      simpa using there
    · simpa only [Book.setOrder, Function.update_of_ne same] using there

theorem take (balanced : Balanced b taken) (positive : 0 < qty)
    (took : b.take h qty = some b') :
    Balanced b' fun k => taken k + if k = h then qty else 0 := by
  unfold Book.take at took
  split at took
  · next o there =>
    rw [Option.ite_none_right_eq_some] at took
    rcases took with ⟨room, took⟩
    cases took
    refine balanced.setOrder (fun k other => by simp [other]) fun o' there' => ?_
    cases there.symm.trans there'
    simp only [Order.takes, Bool.and_eq_true, decide_eq_true_eq] at room
    have bounds := balanced.bounds h o there
    have covered := balanced.covered h o there
    simp only [Order.raise, if_true]
    omega
  · cases took

theorem giveBack (balanced : Balanced b taken) (positive : 0 < qty) (held : qty ≤ taken h) :
    Balanced (b.giveBack h qty) fun k => taken k - if k = h then qty else 0 := by
  refine balanced.setOrder (fun k other => by simp [other]) fun o there => ?_
  have bounds := balanced.bounds h o there
  have covered := balanced.covered h o there
  have := filling_nonneg (a := queued) (h := h) balanced.fills
  have enough : o.filled ≥ qty := by omega
  simp only [enough, if_true]
  omega

theorem enqueue {takerHash makerHash : Bytes32} (balanced : Balanced b taken)
    (positive : 0 < qty) (taker : b.orders takerHash ≠ none) (maker : b.orders makerHash ≠ none) :
    Balanced { b with jobs := b.jobs ++ [Book.enqueued takerHash makerHash qty] }
      fun k => taken k - if k = makerHash ∨ k = takerHash then qty else 0 where
  bounds := balanced.bounds
  covered := by
    intro k o there
    have covered := balanced.covered k o there
    simp only [Book.filling, List.map_append, List.sum_append, List.map_cons, List.map_nil,
      List.sum_cons, List.sum_nil, Book.enqueued, queued, Bool.true_and, Job.touches,
      decide_eq_true_eq] at covered ⊢
    by_cases touched : takerHash = k ∨ makerHash = k
    · have touched' : k = makerHash ∨ k = takerHash := by tauto
      simp only [touched, touched', if_true]
      omega
    · have touched' : ¬ (k = makerHash ∨ k = takerHash) := by tauto
      simp only [touched, touched', if_false]
      omega
  fills := by
    intro job mem
    rcases List.mem_append.mp mem with mem | mem
    · exact balanced.fills job mem
    · cases List.mem_singleton.mp mem
      exact positive.le
  rows := by
    intro job mem k touches
    rcases List.mem_append.mp mem with mem | mem
    · exact balanced.rows job mem k touches
    · cases List.mem_singleton.mp mem
      rcases of_decide_eq_true touches with rfl | rfl
      · exact taker
      · exact maker

theorem insert {order : Order} (balanced : Balanced b taken) (fresh : b.orders h = none)
    (positive : 0 < order.amount) (unfilled : order.filled = 0) (free : taken' h ≤ 0)
    (others : ∀ k, k ≠ h → taken' k ≤ taken k) :
    Balanced { b with orders := Function.update b.orders h (some order) } taken' where
  bounds := by
    intro k o there
    by_cases same : k = h
    · subst same
      simp only [Function.update_self, Option.some.injEq] at there
      subst there
      omega
    · simp only [Function.update_of_ne same] at there
      exact balanced.bounds k o there
  covered := by
    intro k o there
    by_cases same : k = h
    · subst same
      simp only [Function.update_self, Option.some.injEq] at there
      subst there
      have none_ : b.filling queued k = 0 := by
        refine List.sum_eq_zero fun x mem => ?_
        rcases List.mem_map.mp mem with ⟨job, there, rfl⟩
        split
        · next touches =>
          rw [Bool.and_eq_true] at touches
          exact absurd fresh (balanced.rows job there k touches.2)
        · rfl
      simp only [Book.filling] at none_ ⊢
      omega
    · simp only [Function.update_of_ne same] at there
      have := balanced.covered k o there
      have := others k same
      simp only [Book.filling] at *
      omega
  fills := balanced.fills
  rows := by
    intro job mem k touches
    by_cases same : k = h
    · subst same
      simp
    · simpa only [Function.update_of_ne same] using balanced.rows job mem k touches

/-- An update of one job that does not revive it. -/
theorem setJob {f : Job → Job} (balanced : Balanced b taken)
    (fewer : ∀ job, b.jobs[i]? = some job → (f job).takerHash = job.takerHash ∧
      (f job).makerHash = job.makerHash ∧ (f job).fillAmount = job.fillAmount ∧
        (queued (f job).status = true → queued job.status = true)) :
    Balanced (b.setJob i f) taken where
  bounds := balanced.bounds
  covered := by
    intro k o there
    have := balanced.covered k o there
    have := filling_setJob (h := k) fewer balanced.fills
    omega
  fills := by
    intro job' mem
    rcases List.mem_iff_getElem?.mp mem with ⟨n, there'⟩
    simp only [Book.setJob, List.getElem?_modify, Option.map_eq_map, Option.map_eq_some_iff]
      at there'
    rcases there' with ⟨job, there, rfl⟩
    have positive := balanced.fills job (List.mem_of_getElem? there)
    split
    · next at_ =>
      subst at_
      rw [(fewer job there).2.2.1]
      exact positive
    · exact positive
  rows := by
    intro job' mem k touches
    rcases List.mem_iff_getElem?.mp mem with ⟨n, there'⟩
    simp only [Book.setJob, List.getElem?_modify, Option.map_eq_map, Option.map_eq_some_iff]
      at there'
    rcases there' with ⟨job, there, rfl⟩
    refine balanced.rows job (List.mem_of_getElem? there) k ?_
    split at touches
    · next at_ =>
      subst at_
      simpa only [Job.touches, (fewer job there).1, (fewer job there).2.1] using touches
    · exact touches

/-- The chain said at least what confirmed jobs have filled. -/
theorem resync {onchain : Int} (balanced : Balanced b taken) (free : taken' h ≤ 0)
    (others : ∀ k, k ≠ h → taken' k ≤ taken k) (held : 0 ≤ taken h)
    (truthful : b.filling isConfirmed h ≤ onchain) :
    Balanced (b.resyncFilled h onchain) taken' := by
  refine balanced.setOrder others fun o there => ?_
  have bounds := balanced.bounds h o there
  have covered := balanced.covered h o there
  have split_ := filling_queued (b := b) (h := h)
  have := filling_nonneg (a := live) (h := h) balanced.fills
  have := filling_nonneg (a := isConfirmed) (h := h) balanced.fills
  simp only
  split <;> omega

theorem cancelOrder (balanced : Balanced b taken) : Balanced (b.cancelOrder h) taken :=
  balanced.setOrder (fun _ _ => le_refl _) fun o there =>
    ⟨(balanced.bounds h o there).1, (balanced.bounds h o there).2, balanced.covered h o there⟩

/-- Both statements of a rollback of a queued job. -/
theorem lower {status : Status} (balanced : Balanced b taken) (there : b.jobs[i]? = some job)
    (alive : queued job.status = true) (ends : queued status = false) :
    Balanced ((b.setStatus i status).lowerFilled job) taken := by
  have retired : Balanced (b.setStatus i status) taken :=
    balanced.setJob fun _ _ => ⟨rfl, rfl, rfl, fun now => absurd now (by simp [ends])⟩
  have less : ∀ k, (b.setStatus i status).filling queued k ≤
      b.filling queued k - if job.touches k then job.fillAmount else 0 := by
    intro k
    have within := (List.getElem?_eq_some_iff.mp there).1
    have := sum_le_of_single (i := i) (l := b.jobs) (m := (b.setStatus i status).jobs)
      (f := fun job => if queued job.status && job.touches k then job.fillAmount else 0)
      (g := fun job => if queued job.status && job.touches k then job.fillAmount else 0)
      (d := - if job.touches k then job.fillAmount else 0)
      (by simp [Book.setStatus, Book.setJob]) fun n old new found found' => by
        simp only [Book.setStatus, Book.setJob, List.getElem?_modify, found, Option.map_eq_map,
          Option.map_some, Option.some.injEq] at found'
        by_cases at_ : i = n
        · subst at_
          cases there.symm.trans found
          simp only [if_true] at found'
          subst found'
          simp [ends, alive]
        · have at_' : ¬ n = i := fun same => at_ same.symm
          simp only [at_, if_false] at found'
          subst found'
          simp [at_']
    simp only [within, if_true] at this
    simp only [Book.filling] at this ⊢
    omega
  have positive := balanced.fills job (List.mem_of_getElem? there)
  constructor
  · intro k o found
    simp only [Book.lowerFilled] at found
    split at found
    · rw [Option.map_eq_some_iff] at found
      rcases found with ⟨o, found, rfl⟩
      have bounds := retired.bounds k o found
      simp only [Order.lower]
      split <;> omega
    · exact retired.bounds k o found
  · intro k o found
    have less := less k
    simp only [Book.lowerFilled] at found
    split at found
    · next touches =>
      rw [Option.map_eq_some_iff] at found
      rcases found with ⟨o, found, rfl⟩
      have covered := balanced.covered k o found
      simp only [touches, if_true] at less
      simp only [Order.lower]
      simp only [Book.lowerFilled, Book.filling] at less covered ⊢
      split <;> omega
    · exact retired.covered k o found
  · exact retired.fills
  · intro other mem k touches
    have row := retired.rows other mem k touches
    simp only [Book.lowerFilled]
    split
    · simpa using row
    · exact row

end Balanced

/-! ### The chain -/

/-- What the chain has filled for a job that landed. -/
def landedFill (c : Chain) (h : Bytes32) (job : Job) : Int :=
  if c.landed job && job.touches h then job.fillAmount else 0

/-- The chain has filled what landed, confirmed jobs have, and transactions are of one job. -/
structure Charged (jobs : List Job) (c : Chain) : Prop where
  charged : ∀ h, (jobs.map (landedFill c h)).sum ≤ c.filled h
  landed : ∀ job ∈ jobs, job.status = .confirmed → c.landed job = true
  signed : ∀ log ∈ c.logs, ∃ job ∈ jobs, log.1 ∈ job.txHashes
  apart : ∀ (i n : Nat) (job other : Job) (t : Bytes32), jobs[i]? = some job →
    jobs[n]? = some other → t ∈ job.txHashes → t ∈ other.txHashes → i = n

theorem modify_some {f : Job → Job} {n : Nat} {job' : Job}
    (there : (jobs.modify i f)[n]? = some job') :
    ∃ job, jobs[n]? = some job ∧ job' = if i = n then f job else job := by
  simp only [List.getElem?_modify, Option.map_eq_map, Option.map_eq_some_iff] at there
  rcases there with ⟨job, there, rfl⟩
  exact ⟨job, there, rfl⟩

namespace Charged

/-- A transaction recorded for no other job adds nothing that has landed. -/
theorem landed_append {t : Bytes32} {job' : Job} (charged : Charged jobs c)
    (there : jobs[i]? = some job)
    (own : ∀ (n : Nat) (other : Job), jobs[n]? = some other → t ∈ other.txHashes → n = i)
    (taker : job'.takerHash = job.takerHash) (maker : job'.makerHash = job.makerHash)
    (hashes : job'.txHashes = job.txHashes ++ [t]) : c.landed job' = c.landed job := by
  rw [Bool.eq_iff_iff]
  simp only [Chain.landed, List.any_eq_true, Bool.and_eq_true, decide_eq_true_eq, taker, maker,
    hashes, List.mem_append, List.mem_singleton]
  constructor
  · rintro ⟨log, mem, ⟨known | rfl, sides⟩, sides'⟩
    · exact ⟨log, mem, ⟨known, sides⟩, sides'⟩
    · rcases charged.signed log mem with ⟨other, mem', known⟩
      rcases List.mem_iff_getElem?.mp mem' with ⟨n, there'⟩
      cases own n other there' known
      cases there.symm.trans there'
      exact ⟨log, mem, ⟨known, sides⟩, sides'⟩
  · rintro ⟨log, mem, ⟨known, sides⟩, sides'⟩
    exact ⟨log, mem, ⟨.inl known, sides⟩, sides'⟩

/-- An update of one job that keeps what has landed of it. -/
theorem modify {f : Job → Job} (charged : Charged jobs c) (there : jobs[i]? = some job)
    (taker : (f job).takerHash = job.takerHash) (maker : (f job).makerHash = job.makerHash)
    (amount : (f job).fillAmount = job.fillAmount) (lands : c.landed (f job) = c.landed job)
    (confirms : (f job).status = .confirmed → c.landed job = true)
    (keeps : ∀ t ∈ job.txHashes, t ∈ (f job).txHashes)
    (own : ∀ t ∈ (f job).txHashes, t ∈ job.txHashes ∨
      ∀ (n : Nat) (other : Job), jobs[n]? = some other → t ∈ other.txHashes → n = i) :
    Charged (jobs.modify i f) c where
  charged := by
    intro h
    refine le_trans (sum_le_pointwise (by simp) fun n old new found found' => ?_)
      (charged.charged h)
    rcases modify_some found' with ⟨old', found'', rfl⟩
    cases found.symm.trans found''
    split
    · next at_ =>
      subst at_
      cases there.symm.trans found
      have touches : (f job).touches h = job.touches h := by
        simp only [Job.touches, taker, maker]
      simp only [landedFill, lands, touches, amount, le_refl]
    · exact le_refl _
  landed := by
    intro job' mem confirmed
    rcases List.mem_iff_getElem?.mp mem with ⟨n, found⟩
    rcases modify_some found with ⟨old, found', rfl⟩
    split at confirmed
    · next at_ =>
      subst at_
      cases there.symm.trans found'
      simp only [if_true, lands]
      exact confirms confirmed
    · next other =>
      simp only [other, if_false]
      exact charged.landed old (List.mem_of_getElem? found') confirmed
  signed := by
    intro log mem
    rcases charged.signed log mem with ⟨old, mem', known⟩
    rcases List.mem_iff_getElem?.mp mem' with ⟨n, found⟩
    have new : (jobs.modify i f)[n]? = some (if i = n then f old else old) := by
      simp only [List.getElem?_modify, found, Option.map_eq_map, Option.map_some]
    refine ⟨_, List.mem_of_getElem? new, ?_⟩
    split
    · next at_ =>
      subst at_
      cases there.symm.trans found
      exact keeps _ known
    · exact known
  apart := by
    have origin : ∀ (n : Nat) (job' : Job) (t : Bytes32), (jobs.modify i f)[n]? = some job' →
        t ∈ job'.txHashes → (∃ old, jobs[n]? = some old ∧ t ∈ old.txHashes) ∨
          n = i ∧ ∀ (n : Nat) (other : Job), jobs[n]? = some other → t ∈ other.txHashes →
            n = i := by
      intro n job' t found known
      rcases modify_some found with ⟨old, found', rfl⟩
      split at known
      · next at_ =>
        subst at_
        cases there.symm.trans found'
        rcases own t known with known | own
        · exact .inl ⟨_, there, known⟩
        · exact .inr ⟨rfl, own⟩
      · exact .inl ⟨old, found', known⟩
    intro m n job' other t found found' known known'
    rcases origin m job' t found known with ⟨old, there, known⟩ | ⟨at_, own⟩
    · rcases origin n other t found' known' with ⟨old', there', known'⟩ | ⟨at_, own⟩
      · exact charged.apart m n old old' t there there' known known'
      · exact (own m old there known).trans at_.symm
    · rcases origin n other t found' known' with ⟨old', there', known'⟩ | ⟨at_', -⟩
      · exact at_.trans (own n old' there' known').symm
      · exact at_.trans at_'.symm

/-- A job that was never signed joins. -/
theorem append (charged : Charged jobs c) (unsigned : job.txHashes = [])
    (pending : job.status = .pending) : Charged (jobs ++ [job]) c where
  charged := by
    intro h
    have unlanded : c.landed job = false := by
      simp [Chain.landed, unsigned]
    simpa [landedFill, unlanded] using charged.charged h
  landed := by
    intro other mem confirmed
    rcases List.mem_append.mp mem with mem | mem
    · exact charged.landed other mem confirmed
    · cases List.mem_singleton.mp mem
      rw [pending] at confirmed
      cases confirmed
  signed := by
    intro log mem
    rcases charged.signed log mem with ⟨other, mem', known⟩
    exact ⟨other, List.mem_append_left _ mem', known⟩
  apart := by
    have origin : ∀ (n : Nat) (other : Job) (t : Bytes32), (jobs ++ [job])[n]? = some other →
        t ∈ other.txHashes → jobs[n]? = some other := by
      intro n other t found known
      rw [List.getElem?_append] at found
      split at found
      · exact found
      · rw [List.getElem?_singleton, Option.ite_none_right_eq_some] at found
        rcases found with ⟨-, found⟩
        cases found
        rw [unsigned] at known
        cases known
    intro m n one other t found found' known known'
    exact charged.apart m n one other t (origin m one t found known)
      (origin n other t found' known') known known'

/-- More is filled on the chain. -/
theorem more (charged : Charged jobs c) (logs : c'.logs = c.logs)
    (more : ∀ h, c.filled h ≤ c'.filled h) : Charged jobs c' where
  charged := by
    intro h
    have same : landedFill c' h = landedFill c h := by
      funext job
      have landed : c'.landed job = c.landed job := by
        simp only [Chain.landed, logs]
      simp only [landedFill, landed]
    rw [same]
    exact le_trans (charged.charged h) (more h)
  landed := by
    intro job mem confirmed
    simpa only [Chain.landed, logs] using charged.landed job mem confirmed
  signed := logs ▸ charged.signed
  apart := charged.apart

theorem landed_log {log : Bytes32 × Bytes32 × Bytes32} (logs : c'.logs = c.logs ++ [log])
    (landed : c.landed job = true) : c'.landed job = true := by
  simp only [Chain.landed, logs, List.any_append, Bool.or_eq_true] at landed ⊢
  exact .inl landed

/-- A transaction of a job is mined. -/
theorem mined {t : Bytes32} (charged : Charged jobs c)
    (fills : ∀ job ∈ jobs, 0 ≤ job.fillAmount) (there : jobs[i]? = some job)
    (known : t ∈ job.txHashes)
    (filled : ∀ h, c'.filled h = c.filled h + if job.touches h then job.fillAmount else 0)
    (logs : c'.logs = c.logs ++ [(t, job.takerHash, job.makerHash)]) : Charged jobs c' where
  charged := by
    intro h
    have within := (List.getElem?_eq_some_iff.mp there).1
    have one := sum_le_of_single (l := jobs) (f := landedFill c h) (g := landedFill c' h)
      (i := i) (d := if job.touches h then job.fillAmount else 0) rfl
      fun n old new found found' => by
        cases found.symm.trans found'
        by_cases at_ : n = i
        · subst at_
          cases there.symm.trans found
          have positive := fills job (List.mem_of_getElem? there)
          simp only [landedFill, if_true]
          cases c.landed job <;> cases c'.landed job <;> cases job.touches h <;> simp <;> omega
        · have other : c'.landed old = c.landed old := by
            simp only [Chain.landed, logs, List.any_append, List.any_cons, List.any_nil,
              Bool.or_false, Bool.or_eq_left_iff_imp, Bool.and_eq_true, decide_eq_true_eq]
            rintro ⟨⟨known', -⟩, -⟩
            exact absurd (charged.apart n i old job t found there known' known) at_
          simp only [landedFill, other, at_, if_false, add_zero, le_refl]
    have := charged.charged h
    rw [if_pos within] at one
    rw [filled h]
    omega
  landed := fun job mem confirmed => landed_log logs (charged.landed job mem confirmed)
  signed := by
    intro log mem
    rw [logs] at mem
    rcases List.mem_append.mp mem with mem | mem
    · exact charged.signed log mem
    · cases List.mem_singleton.mp mem
      exact ⟨job, List.mem_of_getElem? there, known⟩
  apart := charged.apart

/-- Confirmed jobs have filled no more than the chain says. -/
theorem truthful (charged : Charged b.jobs c) (fills : ∀ job ∈ b.jobs, 0 ≤ job.fillAmount) :
    b.filling isConfirmed h ≤ c.filled h := by
  refine le_trans (sum_le_pointwise rfl fun n old new found found' => ?_) (charged.charged h)
  cases found.symm.trans found'
  have mem := List.mem_of_getElem? found
  have positive := fills old mem
  simp only [landedFill]
  cases status : isConfirmed old.status with
  | true =>
      rw [charged.landed old mem (of_decide_eq_true status)]
  | false =>
      simp only [Bool.false_and, Bool.false_eq_true, if_false]
      split
      · exact positive
      · exact le_refl 0

end Charged

/-! ### Rollbacks -/

/-- Each job's fill is undone once, and the job has ended then. -/
structure Undone (jobs : List Job) (undone : List Nat) : Prop where
  once : undone.Nodup
  ended : ∀ i ∈ undone, ∃ job, jobs[i]? = some job ∧ queued job.status = false

namespace Undone

variable {undone : List Nat}

theorem modify {f : Job → Job} (all : Undone jobs undone)
    (dead : ∀ job, jobs[i]? = some job → queued job.status = false →
      queued (f job).status = false) : Undone (jobs.modify i f) undone where
  once := all.once
  ended := by
    intro n mem
    rcases all.ended n mem with ⟨job, there, ended⟩
    refine ⟨if i = n then f job else job, ?_, ?_⟩
    · simp only [List.getElem?_modify, there, Option.map_eq_map, Option.map_some]
    · split
      · next at_ =>
        subst at_
        exact dead job there ended
      · exact ended

theorem append (all : Undone jobs undone) : Undone (jobs ++ [job]) undone where
  once := all.once
  ended := by
    intro n mem
    rcases all.ended n mem with ⟨job, there, ended⟩
    have within := (List.getElem?_eq_some_iff.mp there).1
    exact ⟨job, by simp only [List.getElem?_append, within, if_true, there], ended⟩

/-- A queued job is undone. -/
theorem undo {f : Job → Job} (all : Undone jobs undone) (there : jobs[i]? = some job)
    (alive : queued job.status = true) (dead : ∀ job, queued (f job).status = false) :
    Undone (jobs.modify i f) (undone ++ [i]) where
  once := by
    refine List.nodup_append.mpr ⟨all.once, by simp, ?_⟩
    rintro n mem _ mem' rfl
    cases List.mem_singleton.mp mem'
    rcases all.ended _ mem with ⟨old, found, ended⟩
    cases there.symm.trans found
    rw [alive] at ended
    cases ended
  ended := by
    intro n mem
    rcases List.mem_append.mp mem with mem | mem
    · exact (all.modify (i := i) (f := f) fun job _ _ => dead job).ended n mem
    · cases List.mem_singleton.mp mem
      refine ⟨f job, ?_, dead job⟩
      simp [there]

end Undone

/-! ### What a party relies on -/

/-- What is taken of an order and is not a job yet. -/
def Fill.taken (takerHash h : Bytes32) : Fill → Int
  | .between => 0
  | .maker makerHash qty | .refused makerHash qty => if h = makerHash then qty else 0
  | .both makerHash qty => if h = makerHash ∨ h = takerHash then qty else 0

def Pc.taken (h : Bytes32) : Pc → Int
  | .matching takerHash fill => fill.taken takerHash h
  | _ => 0

/-- Only the party that has an order locked can have taken of it. -/
def State.taken (s : State) (h : Bytes32) : Int :=
  (s.orderLocks h).elim 0 fun p => (s.pcs p).taken h

/-- The rows a fill stands on are there, and locked once they are taken of. -/
def Fill.Fits (s : State) (p : Party) (takerHash : Bytes32) : Fill → Prop
  | .between => True
  | .maker makerHash qty | .refused makerHash qty =>
      0 < qty ∧ makerHash ≠ takerHash ∧ s.orderLocks makerHash = some p ∧
        s.book.orders makerHash ≠ none
  | .both makerHash qty =>
      0 < qty ∧ s.orderLocks makerHash = some p ∧ s.orderLocks takerHash = some p ∧
        s.book.orders makerHash ≠ none

/-- What a party has seen and still holds. -/
def Pc.Fits (s : State) (p : Party) : Pc → Prop
  | .matching takerHash fill => s.book.orders takerHash ≠ none ∧ fill.Fits s p takerHash
  | .lowering i status _ => s.jobLocks i = some p ∧ queued status = false ∧
      status ≠ .confirmed ∧ ∃ job, s.book.jobs[i]? = some job ∧ queued job.status = true ∧
        (p ≠ .worker → job.status = .pending)
  | .reconcile i => p = .worker ∧ ∃ job, s.book.jobs[i]? = some job ∧ job.status.inFlight = true
  | .confirming i => p = .worker ∧ ∃ job, s.book.jobs[i]? = some job ∧ s.chain.landed job = true
  | .resyncing i _ side onchain _ => p = .worker ∧ ∃ job, s.book.jobs[i]? = some job ∧
      s.book.filling isConfirmed (job.hash side) ≤ onchain
  | _ => True

/-- What a step of `p` leaves to the others. -/
structure Undisturbed (p : Party) (s s' : State) : Prop where
  pcs : ∀ q, q ≠ p → s'.pcs q = s.pcs q
  orderLocks : ∀ h q, q ≠ p → (s'.orderLocks h = some q ↔ s.orderLocks h = some q)
  jobLocks : ∀ i q, q ≠ p → (s'.jobLocks i = some q ↔ s.jobLocks i = some q)
  orders : ∀ h, s.book.orders h ≠ none → s'.book.orders h ≠ none
  jobs : ∀ (i : Nat) (job : Job), s.book.jobs[i]? = some job →
    ∃ job', s'.book.jobs[i]? = some job' ∧ (∀ side, job'.hash side = job.hash side) ∧
      (∀ q, q ≠ p → s.jobLocks i = some q → job'.status = job.status) ∧
      (p ≠ .worker → job.status ≠ .pending → job'.status = job.status) ∧
      (s.chain.landed job = true → s'.chain.landed job' = true)
  confirmed : p ≠ .worker → ∀ h,
    s'.book.filling isConfirmed h ≤ s.book.filling isConfirmed h

namespace Undisturbed

theorem refl : Undisturbed p s s where
  pcs := fun _ _ => rfl
  orderLocks := fun _ _ _ => Iff.rfl
  jobLocks := fun _ _ _ => Iff.rfl
  orders := fun _ => id
  jobs := fun _ job there =>
    ⟨job, there, fun _ => rfl, fun _ _ _ => rfl, fun _ _ => rfl, id⟩
  confirmed := fun _ _ => le_refl _

theorem trans {t : State} (first : Undisturbed p s s') (second : Undisturbed p s' t) :
    Undisturbed p s t where
  pcs := fun q other => (second.pcs q other).trans (first.pcs q other)
  orderLocks := fun h q other => (second.orderLocks h q other).trans (first.orderLocks h q other)
  jobLocks := fun i q other => (second.jobLocks i q other).trans (first.jobLocks i q other)
  orders := fun h there => second.orders h (first.orders h there)
  jobs := by
    intro i job there
    rcases first.jobs i job there with ⟨mid, there', hashes, locked, pending, landed⟩
    rcases second.jobs i mid there' with ⟨last, there'', hashes', locked', pending', landed'⟩
    refine ⟨last, there'', fun side => (hashes' side).trans (hashes side), ?_, ?_,
      fun known => landed' (landed known)⟩
    · intro q other lock
      have same := locked q other lock
      exact (locked' q other ((first.jobLocks i q other).mpr lock)).trans same
    · intro request status
      have same := pending request status
      exact (pending' request (by rw [same]; exact status)).trans same
  confirmed := fun request h => le_trans (second.confirmed request h) (first.confirmed request h)

theorem goto {x : Pc} : Undisturbed p s (s.goto p x) :=
  { refl (p := p) (s := s) with
    pcs := fun q other => by simp only [State.goto, Function.update_of_ne other] }

theorem lockOrder (free : s.orderFree p h = true) : Undisturbed p s (s.lockOrder p h) :=
  { refl (p := p) (s := s) with
    orderLocks := by
      intro k q other
      by_cases same : k = h
      · subst same
        simp only [State.orderFree] at free
        simp only [State.lockOrder, Function.update_self]
        constructor
        · rintro ⟨⟩
          exact absurd rfl other
        · intro lock
          rw [lock] at free
          exact absurd (by simpa using free) other
      · simp only [State.lockOrder, Function.update_of_ne same] }

theorem lockJob (free : s.jobFree p i = true) : Undisturbed p s (s.lockJob p i) :=
  { refl (p := p) (s := s) with
    jobLocks := by
      intro n q other
      by_cases same : n = i
      · subst same
        simp only [State.jobFree] at free
        simp only [State.lockJob, Function.update_self]
        constructor
        · rintro ⟨⟩
          exact absurd rfl other
        · intro lock
          rw [lock] at free
          exact absurd (by simpa using free) other
      · simp only [State.lockJob, Function.update_of_ne same] }

theorem commit : Undisturbed p s (s.commit p) :=
  { refl (p := p) (s := s) with
    pcs := fun q other => by simp only [State.commit, Function.update_of_ne other]
    orderLocks := by
      intro h q other
      simp only [State.commit]
      split
      · next mine =>
        simp only [mine, Option.some.injEq, reduceCtorEq, false_iff]
        exact fun same => other same.symm
      · rfl
    jobLocks := by
      intro i q other
      simp only [State.commit]
      split
      · next mine =>
        simp only [mine, Option.some.injEq, reduceCtorEq, false_iff]
        exact fun same => other same.symm
      · rfl }

/-- Only orders are written. -/
theorem orders_ {book : Book} (rows : ∀ h, s.book.orders h ≠ none → book.orders h ≠ none)
    (jobs : book.jobs = s.book.jobs) : Undisturbed p s { s with book } :=
  { refl (p := p) (s := s) with
    orders := rows
    jobs := by
      intro i job there
      exact ⟨job, by rw [jobs]; exact there, fun _ => rfl, fun _ _ _ => rfl, fun _ _ => rfl, id⟩
    confirmed := by
      intro _ h
      simp only [Book.filling, jobs, le_refl] }

theorem setOrder {f : Order → Order} :
    Undisturbed p s { s with book := s.book.setOrder h f } :=
  orders_ (fun k there => by
    by_cases same : k = h
    · subst same
      simpa [Book.setOrder] using there
    · simpa only [Book.setOrder, Function.update_of_ne same] using there) rfl

theorem undone {u : List Nat} : Undisturbed p s { s with undone := u } :=
  { refl (p := p) (s := s) with }

theorem enqueue {new : Job} (pending : new.status = .pending) :
    Undisturbed p s { s with book.jobs := s.book.jobs ++ [new] } :=
  { refl (p := p) (s := s) with
    jobs := by
      intro i job there
      have within := (List.getElem?_eq_some_iff.mp there).1
      refine ⟨job, ?_, fun _ => rfl, fun _ _ _ => rfl, fun _ _ => rfl, id⟩
      simp only [List.getElem?_append, within, if_true, there]
    confirmed := by
      intro _ h
      simp [Book.filling, isConfirmed, pending] }

/-- A job that no other party has locked is written. -/
theorem setJob {f : Job → Job} (free : s.jobFree p i = true)
    (hashes : ∀ job side, (f job).hash side = job.hash side)
    (lands : ∀ job, s.book.jobs[i]? = some job → s.chain.landed job = true →
      s.chain.landed (f job) = true)
    (pending : p ≠ .worker → ∀ job, s.book.jobs[i]? = some job → job.status = .pending)
    (confirmed : p ≠ .worker → ∀ h,
      (s.book.setJob i f).filling isConfirmed h ≤ s.book.filling isConfirmed h) :
    Undisturbed p s { s with book := s.book.setJob i f } :=
  { refl (p := p) (s := s) with
    jobs := by
      intro n job there
      refine ⟨if i = n then f job else job, ?_, ?_, ?_, ?_, ?_⟩
      · simp only [Book.setJob, List.getElem?_modify, there, Option.map_eq_map, Option.map_some]
      · intro side
        split
        · exact hashes job side
        · rfl
      · intro q other lock
        split
        · next at_ =>
          subst at_
          simp only [State.jobFree, lock] at free
          exact absurd (by simpa using free) other
        · rfl
      · intro request status
        split
        · next at_ =>
          subst at_
          exact absurd (pending request job there) status
        · rfl
      · intro known
        split
        · next at_ =>
          subst at_
          exact lands job there known
        · exact known
    confirmed := confirmed }

/-- What another party has seen still holds. -/
theorem fits {pc : Pc} (und : Undisturbed p s s') (other : q ≠ p) (fits : pc.Fits s q) :
    pc.Fits s' q := by
  cases pc with
  | matching takerHash fill =>
      refine ⟨und.orders _ fits.1, ?_⟩
      cases fill with
      | between => trivial
      | maker makerHash qty | refused makerHash qty =>
          rcases fits.2 with ⟨positive, apart, lock, row⟩
          exact ⟨positive, apart, (und.orderLocks _ _ other).mpr lock, und.orders _ row⟩
      | both makerHash qty =>
          rcases fits.2 with ⟨positive, lock, lock', row⟩
          exact ⟨positive, (und.orderLocks _ _ other).mpr lock,
            (und.orderLocks _ _ other).mpr lock', und.orders _ row⟩
  | lowering i status next =>
      rcases fits with ⟨lock, ends, unconfirmed, job, there, alive, pending⟩
      rcases und.jobs i job there with ⟨job', there', -, locked, -, -⟩
      have same := locked q other lock
      refine ⟨(und.jobLocks _ _ other).mpr lock, ends, unconfirmed, job', there', ?_, ?_⟩
      · rw [same]
        exact alive
      · rw [same]
        exact pending
  | reconcile i =>
      rcases fits with ⟨rfl, job, there, flying⟩
      rcases und.jobs i job there with ⟨job', there', -, -, unmoved, -⟩
      refine ⟨rfl, job', there', ?_⟩
      rw [unmoved (Ne.symm other) (by rintro pending; rw [pending] at flying; cases flying)]
      exact flying
  | confirming i =>
      rcases fits with ⟨rfl, job, there, landed⟩
      rcases und.jobs i job there with ⟨job', there', -, -, -, still⟩
      exact ⟨rfl, job', there', still landed⟩
  | resyncing i reasons side onchain sides =>
      rcases fits with ⟨rfl, job, there, truthful⟩
      rcases und.jobs i job there with ⟨job', there', hashes, -, -, -⟩
      refine ⟨rfl, job', there', ?_⟩
      rw [hashes side]
      exact le_trans (und.confirmed (Ne.symm other) _) truthful
  | idle | deleting _ _ | cancelling _ | send _ | retiring _ _ _ => trivial

end Undisturbed

theorem taken_locked (lock : s.orderLocks h = some p) : s.taken h = (s.pcs p).taken h := by
  simp only [State.taken, lock, Option.elim_some]

theorem Pc.taken_nonneg {pc : Pc} (fits : pc.Fits s p) : 0 ≤ pc.taken h := by
  cases pc with
  | matching takerHash fill =>
      cases fill with
      | between => exact le_refl 0
      | maker makerHash qty | refused makerHash qty | both makerHash qty =>
          have positive := fits.2.1
          simp only [Pc.taken, Fill.taken]
          split <;> omega
  | _ => exact le_refl 0

/-! ### The invariant -/

/-- The accounts of a state. -/
structure Accounts (s : State) : Prop where
  balanced : Balanced s.book s.taken
  charged : Charged s.book.jobs s.chain
  undone : Undone s.book.jobs s.undone
  fits : ∀ p, (s.pcs p).Fits s p

namespace Accounts

theorem nonneg (acc : Accounts s) (h : Bytes32) : 0 ≤ s.taken h := by
  unfold State.taken
  cases s.orderLocks h with
  | none => exact le_refl 0
  | some p => exact Pc.taken_nonneg (acc.fits p)

/-- What is taken after a step of `p`, from what `p` has locked. -/
theorem taken_le {d : Bytes32 → Int} (acc : Accounts s) (und : Undisturbed p s s')
    (mine : ∀ k, s'.orderLocks k = some p → (s'.pcs p).taken k ≤ s.taken k + d k)
    (rest : ∀ k, s'.orderLocks k ≠ some p → 0 ≤ d k) : ∀ k, s'.taken k ≤ s.taken k + d k := by
  intro k
  cases lock : s'.orderLocks k with
  | none =>
      have := rest k (by rw [lock]; exact Option.some_ne_none p |>.symm)
      have := acc.nonneg k
      simp only [State.taken, lock, Option.elim_none]
      simp only [State.taken] at this
      omega
  | some q =>
      by_cases same : q = p
      · subst same
        rw [taken_locked lock]
        exact mine k lock
      · have := rest k (by rw [lock]; simpa using same)
        rw [taken_locked lock, taken_locked ((und.orderLocks k q same).mp lock),
          und.pcs q same]
        omega

/-- A step of `p` keeps the accounts when it keeps each of them. -/
theorem next (acc : Accounts s) (und : Undisturbed p s s') (mine : (s'.pcs p).Fits s' p)
    (balanced : Balanced s'.book s'.taken) (charged : Charged s'.book.jobs s'.chain)
    (undone : Undone s'.book.jobs s'.undone) : Accounts s' where
  balanced := balanced
  charged := charged
  undone := undone
  fits := by
    intro q
    by_cases same : q = p
    · subst same
      exact mine
    · rw [und.pcs q same]
      exact und.fits same (acc.fits q)

/-- A step that writes no row. -/
theorem move (acc : Accounts s) (und : Undisturbed p s s') (mine : (s'.pcs p).Fits s' p)
    (book : s'.book = s.book) (chain : s'.chain = s.chain) (undone : s'.undone = s.undone)
    (less : ∀ k, s'.orderLocks k = some p → (s'.pcs p).taken k ≤ s.taken k) : Accounts s' := by
  refine acc.next und mine ?_ (by rw [book, chain]; exact acc.charged)
    (by rw [book, undone]; exact acc.undone)
  rw [book]
  refine acc.balanced.mono fun k => ?_
  simpa using acc.taken_le (d := fun _ => 0) und (fun k lock => by simpa using less k lock)
    (fun _ _ => le_refl 0) k

theorem commit (acc : Accounts s) : Accounts (s.commit p) :=
  acc.move .commit (by simp only [State.commit, Function.update_self]; trivial) rfl rfl rfl
    fun k _ => by
      simp only [State.commit, Function.update_self]
      exact acc.nonneg k

end Accounts

/-! ### Careful steps -/

/-- The job the worker has at hand. -/
def Pc.atHand : Pc → Option Nat
  | .send i | .reconcile i => some i
  | _ => none

/-- No confirmation is written over a rollback, and no transaction is recorded for two jobs. -/
def Careful (s : State) : Event → Prop
  | .confirmed => ∀ (i : Nat) (job : Job), s.pcs .worker = .confirming i →
      s.book.jobs[i]? = some job → job.status ≠ .failed ∧ job.status ≠ .cancelled
  | .claimed txHash | .bumped txHash => ∀ (n : Nat) (other : Job),
      s.book.jobs[n]? = some other → txHash ∈ other.txHashes →
        (s.pcs .worker).atHand = some n
  | _ => True

theorem orderFree_lock (free : s.orderFree p k = true) :
    (s.lockOrder p h).orderFree p k = true := by
  simp only [State.orderFree, State.lockOrder] at free ⊢
  by_cases same : k = h
  · simp [same]
  · simpa only [Function.update_of_ne same] using free

/-! ### Matching -/

/-- What `_take` does. -/
theorem take_spec (done : take s p h qty = some s') :
    s.orderFree p h = true ∧ ∃ book, s.book.take h qty = some book ∧
      s' = { s with book }.lockOrder p h ∧ s.book.orders h ≠ none := by
  unfold take at done
  rw [Option.ite_none_right_eq_some, Option.map_eq_some_iff] at done
  rcases done with ⟨free, book, took, rfl⟩
  refine ⟨free, book, took, rfl, ?_⟩
  intro missing
  simp [Book.take, missing] at took

theorem take_jobs (took : b.take h qty = some b') : b'.jobs = b.jobs := by
  unfold Book.take at took
  split at took
  · rw [Option.ite_none_right_eq_some] at took
    rcases took with ⟨-, took⟩
    cases took
    rfl
  · cases took

theorem take_rows (took : b.take h qty = some b') (k : Bytes32) (there : b.orders k ≠ none) :
    b'.orders k ≠ none := by
  unfold Book.take at took
  split at took
  · rw [Option.ite_none_right_eq_some] at took
    rcases took with ⟨-, took⟩
    cases took
    by_cases same : k = h
    · subst same
      simpa [Book.setOrder] using there
    · simpa only [Book.setOrder, Function.update_of_ne same] using there
  · cases took

namespace Accounts

/-- A take, and the fill it makes. -/
theorem took {takerHash : Bytes32} {fill fill' : Fill} (acc : Accounts s)
    (at_ : s.pcs p = .matching takerHash fill) (positive : 0 < qty)
    (done : take s p h qty = some s') (fits : fill'.Fits (s'.goto p (.matching takerHash fill')) p
      takerHash)
    (more : ∀ k, fill'.taken takerHash k ≤ fill.taken takerHash k + if k = h then qty else 0) :
    Accounts (s'.goto p (.matching takerHash fill')) := by
  rcases take_spec done with ⟨free, book, took, rfl, -⟩
  have mid : Undisturbed p s { s with book } := .orders_ (take_rows took) (take_jobs took)
  have und := (mid.trans (.lockOrder free)).trans
    (.goto (x := .matching takerHash fill'))
  have known := acc.fits p
  rw [at_] at known
  refine acc.next und ?_ ?_ ?_ ?_
  · simp only [State.goto, Function.update_self]
    exact ⟨take_rows took _ known.1, fits⟩
  · refine (acc.balanced.take positive took).mono fun k => ?_
    refine acc.taken_le (d := fun k => if k = h then qty else 0) und (fun k lock => ?_)
      (fun k _ => by split <;> omega) k
    simp only [State.goto, Function.update_self, Pc.taken]
    refine le_trans (more k) ?_
    simp only [State.goto, State.lockOrder] at lock
    by_cases same : k = h
    · subst same
      have nonneg := acc.nonneg k
      cases held : s.orderLocks k with
      | none =>
          have : fill.taken takerHash k ≤ 0 := by
            cases fill with
            | between => exact le_refl 0
            | maker makerHash qty | refused makerHash qty =>
                simp only [Fill.taken]
                split
                · next same =>
                  subst same
                  rw [known.2.2.2.1] at held
                  cases held
                · exact le_refl 0
            | both makerHash qty =>
                simp only [Fill.taken]
                split
                · next same =>
                  rcases same with rfl | rfl
                  · rw [known.2.2.1] at held
                    cases held
                  · rw [known.2.2.2.1] at held
                    cases held
                · exact le_refl 0
          omega
      | some q =>
          have mine : q = p := by
            simp only [State.orderFree, held] at free
            simpa using free
          subst mine
          rw [taken_locked held, at_]
          exact le_refl _
    · simp only [Function.update_of_ne same] at lock
      rw [taken_locked lock, at_]
      exact le_refl _
  · have jobs : book.jobs = s.book.jobs := take_jobs took
    simp only [State.goto, State.lockOrder, jobs]
    exact acc.charged
  · have jobs : book.jobs = s.book.jobs := take_jobs took
    simp only [State.goto, State.lockOrder, jobs]
    exact acc.undone

end Accounts

theorem accounts_match {event : Event} (acc : Accounts s) (taken : matchStep s event = some s') :
    Accounts s' := by
  cases event with
  | posted n h order =>
      simp only [matchStep, Option.ite_none_right_eq_some, Option.some.injEq] at taken
      rcases taken with ⟨⟨idle, fresh, free, positive, unfilled, -⟩, rfl⟩
      have rows : ∀ k, s.book.orders k ≠ none →
          Function.update s.book.orders h (some order) k ≠ none := by
        intro k there
        by_cases same : k = h
        · subst same
          simp
        · simpa only [Function.update_of_ne same] using there
      have mid : Undisturbed (.request n) s { s with
          book.orders := Function.update s.book.orders h (some order) } := .orders_ rows rfl
      have und := (mid.trans (.lockOrder free)).trans
        (.goto (x := .matching h .between))
      refine acc.next und ?_ ?_ acc.charged acc.undone
      · simp only [State.goto, Function.update_self]
        exact ⟨by simp [State.lockOrder], trivial⟩
      · refine acc.balanced.insert fresh positive unfilled ?_ fun k other => ?_
        · have lock : (({ s with
              book.orders := Function.update s.book.orders h (some order) } : State).lockOrder
                (.request n) h).orderLocks h = some (.request n) := by
            simp [State.lockOrder]
          rw [State.goto, State.taken, lock]
          simp [Pc.taken, Fill.taken]
        · simpa using acc.taken_le (d := fun _ => 0) und (fun k _ => by
            simpa [State.goto, Pc.taken, Fill.taken] using acc.nonneg k)
            (fun _ _ => le_refl 0) k
  | makerTaken p makerHash qty =>
      simp only [matchStep] at taken
      split at taken
      · next takerHash at_ =>
        rw [Option.ite_none_right_eq_some, Option.map_eq_some_iff] at taken
        rcases taken with ⟨⟨positive, apart⟩, mid, done, rfl⟩
        rcases take_spec done with ⟨-, book, took, rfl, row⟩
        refine acc.took at_ positive done ⟨positive, apart, ?_, take_rows took _ row⟩ fun k => ?_
        · simp [State.goto, State.lockOrder]
        · simp [Fill.taken]
      · cases taken
  | takerTaken p =>
      simp only [matchStep] at taken
      split at taken
      · next takerHash makerHash qty at_ =>
        rw [Option.map_eq_some_iff] at taken
        rcases taken with ⟨mid, done, rfl⟩
        have known := acc.fits p
        rw [at_] at known
        rcases known with ⟨-, positive, apart, lock, row⟩
        rcases take_spec done with ⟨-, book, took, rfl, -⟩
        refine acc.took at_ positive done ⟨positive, ?_, ?_, take_rows took _ row⟩ fun k => ?_
        · simpa only [State.goto, State.lockOrder, Function.update_of_ne apart] using lock
        · simp [State.goto, State.lockOrder]
        · simp only [Fill.taken]
          split
          · next same =>
            rcases same with rfl | rfl
            · simp [apart]
            · simp [Ne.symm apart]
          · next other =>
            rw [not_or] at other
            simp [other.1, other.2]
      · cases taken
  | takerRefused p =>
      simp only [matchStep] at taken
      split at taken
      · next takerHash makerHash qty at_ =>
        rw [Option.ite_none_right_eq_some] at taken
        rcases taken with ⟨-, taken⟩
        cases taken
        have known := acc.fits p
        rw [at_] at known
        refine acc.move .goto ?_ rfl rfl rfl fun k lock => ?_
        · simp only [State.goto, Function.update_self]
          exact known
        · simp only [State.goto] at lock
          rw [taken_locked lock, at_]
          simp [State.goto, Pc.taken, Fill.taken]
      · cases taken
  | gaveBack p =>
      simp only [matchStep] at taken
      split at taken
      · next takerHash makerHash qty at_ =>
        cases taken
        have known := acc.fits p
        rw [at_] at known
        rcases known with ⟨row, positive, -, lock, -⟩
        have und : Undisturbed p s ({ s with book := s.book.giveBack makerHash qty }.goto p
            (.matching takerHash .between)) := Undisturbed.setOrder.trans .goto
        have held : s.taken makerHash = qty := by
          rw [taken_locked lock, at_]
          simp [Pc.taken, Fill.taken]
        refine acc.next und ?_ ?_ acc.charged acc.undone
        · simp only [State.goto, Function.update_self]
          exact ⟨und.orders _ row, trivial⟩
        · refine (acc.balanced.giveBack positive (le_of_eq held.symm)).mono fun k => ?_
          refine acc.taken_le (d := fun k => - if k = makerHash then qty else 0) und
            (fun k lock' => ?_) (fun k unlocked => ?_) k
          · simp only [State.goto] at lock'
            rw [taken_locked lock', at_]
            simp [State.goto, Pc.taken, Fill.taken]
          · have other : k ≠ makerHash := by
              rintro rfl
              exact unlocked lock
            simp [other]
      · cases taken
  | enqueued p =>
      simp only [matchStep] at taken
      split at taken
      · next takerHash makerHash qty at_ =>
        cases taken
        have known := acc.fits p
        rw [at_] at known
        rcases known with ⟨row, positive, lock, lock', row'⟩
        have und : Undisturbed p s ({ s with
            book.jobs := s.book.jobs ++ [Book.enqueued takerHash makerHash qty] }.goto p
              (.matching takerHash .between)) := (Undisturbed.enqueue rfl).trans .goto
        refine acc.next und ?_ ?_ (acc.charged.append rfl rfl) acc.undone.append
        · simp only [State.goto, Function.update_self]
          exact ⟨row, trivial⟩
        · refine (acc.balanced.enqueue positive row row').mono fun k => ?_
          refine acc.taken_le (d := fun k => - if k = makerHash ∨ k = takerHash then qty else 0)
            und (fun k lock' => ?_) (fun k unlocked => ?_) k
          · simp only [State.goto] at lock'
            rw [taken_locked lock', at_]
            simp [State.goto, Pc.taken, Fill.taken]
          · have other : ¬ (k = makerHash ∨ k = takerHash) := by
              rintro (rfl | rfl)
              · exact unlocked lock
              · exact unlocked lock'
            simp [other]
      · cases taken
  | offchain p =>
      simp only [matchStep] at taken
      split at taken
      · next takerHash makerHash qty at_ =>
        cases taken
        have known := acc.fits p
        rw [at_] at known
        refine acc.move .goto ?_ rfl rfl rfl fun k _ => ?_
        · simp only [State.goto, Function.update_self]
          exact ⟨known.1, trivial⟩
        · simpa [State.goto, Pc.taken, Fill.taken] using acc.nonneg k
      · cases taken
  | _ => cases taken

/-! ### Rolling back -/

theorem accounts_idle {pc : Pc} (acc : Accounts s) (fits : pc.Fits (s.goto p pc) p)
    (free : ∀ k, pc.taken k = 0) : Accounts (s.goto p pc) :=
  acc.move .goto (by simpa only [State.goto, Function.update_self] using fits) rfl rfl rfl
    fun k _ => by
      simp only [State.goto, Function.update_self, free k]
      exact acc.nonneg k

theorem accounts_retire {expected status : Status} {after : After} {missed : Pc}
    (acc : Accounts s) (ends : status = .failed ∨ status = .cancelled)
    (waits : p ≠ .worker → expected = .pending) (fits : ∀ s : State, missed.Fits s p)
    (free : ∀ k, missed.taken k = 0)
    (done : retire s p i expected status after missed = some s') : Accounts s' := by
  unfold retire at done
  rw [Option.ite_none_right_eq_some] at done
  rcases done with ⟨unlocked, done⟩
  split at done
  · next job there =>
    split at done
    · next seen =>
      cases done
      rcases seen with ⟨alive, rfl⟩
      have und : Undisturbed p s ((s.lockJob p i).goto p (.lowering i status after)) :=
        (Undisturbed.lockJob unlocked).trans .goto
      refine acc.move und ?_ rfl rfl rfl fun k _ => ?_
      · simp only [State.goto, Function.update_self]
        refine ⟨by simp [State.lockJob], ?_, ?_, job, there, ?_, waits⟩
        · rcases ends with rfl | rfl <;> rfl
        · rcases ends with rfl | rfl <;> rintro ⟨⟩
        · cases now : job.status <;> simp_all [RelayNonces.Status.terminal, queued]
      · simp only [State.goto, Function.update_self, Pc.taken]
        exact acc.nonneg k
    · cases done
      exact accounts_idle acc (fits _) free
  · cases done

theorem accounts_lower (acc : Accounts s) (done : lower s p = some s') : Accounts s' := by
  unfold lower at done
  split at done
  · next i status after at_ =>
    have known := acc.fits p
    rw [at_] at known
    rcases known with ⟨lock, ends, unconfirmed, job, there, alive, pending⟩
    rw [there] at done
    simp only [Option.ite_none_right_eq_some, Option.some.injEq] at done
    rcases done with ⟨⟨free, free'⟩, rfl⟩
    have unlocked : s.jobFree p i = true := by
      simp [State.jobFree, lock]
    have written : Undisturbed p s { s with book := s.book.setStatus i status } := by
      refine .setJob unlocked (fun _ side => by cases side <;> rfl) (fun _ _ known => known)
        (fun request old found => ?_) fun request h => ?_
      · cases there.symm.trans found
        exact pending request
      · exact filling_setJob (fun _ _ => ⟨rfl, rfl, rfl, fun now =>
          absurd (of_decide_eq_true now) unconfirmed⟩) acc.balanced.fills
    have lowered : Undisturbed p { s with book := s.book.setStatus i status }
        { s with book := (s.book.setStatus i status).lowerFilled job } := by
      refine .orders_ (s := { s with book := s.book.setStatus i status }) (fun k row => ?_) rfl
      simp only [Book.lowerFilled]
      split
      · simpa using row
      · exact row
    have und := ((((written.trans lowered).trans (.undone (u := s.undone ++ [i]))).trans
      (.lockOrder free)).trans (.lockOrder (orderFree_lock free'))).trans
        (.goto (x := after.pc))
    refine acc.next und ?_ ?_ ?_ ?_
    · simp only [State.goto, Function.update_self]
      cases after <;> trivial
    · refine (acc.balanced.lower there alive ends).mono fun k => ?_
      simpa using acc.taken_le (d := fun _ => 0) und (fun k _ => by
        have nonneg := acc.nonneg k
        simp only [State.goto, Function.update_self]
        cases after <;> simpa [After.pc, Pc.taken] using nonneg) (fun _ _ => le_refl 0) k
    · exact acc.charged.modify there rfl rfl rfl rfl
        (fun confirmed => absurd confirmed unconfirmed) (fun _ => id) fun _ => .inl
    · exact acc.undone.undo there alive fun _ => ends
  · cases done

theorem accounts_delete {event : Event} (acc : Accounts s)
    (taken : deleteStep s event = some s') : Accounts s' := by
  cases event with
  | deleting n h =>
      simp only [deleteStep, Option.ite_none_right_eq_some, Option.some.injEq] at taken
      rcases taken with ⟨-, rfl⟩
      exact accounts_idle acc trivial fun _ => rfl
  | cancelFlushed n =>
      simp only [deleteStep] at taken
      split at taken
      · next h rows _ =>
        rw [Option.ite_none_right_eq_some] at taken
        rcases taken with ⟨free, taken⟩
        cases taken
        have mid : Undisturbed (.request n) s { s with book := s.book.cancelOrder h } :=
          .setOrder
        have und := (mid.trans (.lockOrder free)).trans (.goto (x := .cancelling rows))
        refine acc.next und ?_ ?_ acc.charged acc.undone
        · simp only [State.goto, Function.update_self]
          trivial
        · refine acc.balanced.cancelOrder.mono fun k => ?_
          simpa using acc.taken_le (d := fun _ => 0) und (fun k _ => by
            simpa [State.goto, Pc.taken] using acc.nonneg k) (fun _ _ => le_refl 0) k
      · cases taken
  | jobCancelled n =>
      simp only [deleteStep] at taken
      split at taken
      · split at taken
        · exact accounts_retire acc (.inr rfl) (fun _ => rfl) (fun _ => by trivial)
            (fun _ => by rfl) taken
        · cases taken
          exact accounts_idle acc trivial fun _ => rfl
      · cases taken
  | _ => cases taken

theorem accounts_commit (acc : Accounts s) (taken : commitStep s p = some s') :
    Accounts s' := by
  have done : s' = s.commit p := by
    unfold commitStep at taken
    generalize s.pcs p = pc at taken
    cases pc with
    | matching takerHash fill =>
        cases fill with
        | between =>
            cases taken
            rfl
        | _ => cases taken
    | cancelling rows =>
        cases rows with
        | nil =>
            cases taken
            rfl
        | cons row rest => cases taken
    | send i | reconcile i =>
        cases taken
        rfl
    | _ => cases taken
  rw [done]
  exact acc.commit

/-! ### The worker -/

/-- The worker writes its job, which is queued, and goes on. -/
theorem Accounts.write {f : Job → Job} (acc : Accounts s) (free : s.jobFree .worker i = true)
    (there : s.book.jobs[i]? = some job) (alive : queued job.status = true)
    (sides : ∀ job, (f job).takerHash = job.takerHash ∧ (f job).makerHash = job.makerHash ∧
      (f job).fillAmount = job.fillAmount)
    (lands : s.chain.landed (f job) = s.chain.landed job)
    (confirms : (f job).status = .confirmed → s.chain.landed job = true)
    (keeps : ∀ t ∈ job.txHashes, t ∈ (f job).txHashes)
    (own : ∀ t ∈ (f job).txHashes, t ∈ job.txHashes ∨
      ∀ (n : Nat) (other : Job), s.book.jobs[n]? = some other → t ∈ other.txHashes → n = i)
    (rest : Undisturbed .worker { s with book := s.book.setJob i f } s')
    (book : s'.book = s.book.setJob i f) (chain : s'.chain = s.chain)
    (undone : s'.undone = s.undone) (mine : (s'.pcs .worker).Fits s' .worker)
    (idle : ∀ k, (s'.pcs .worker).taken k = 0) : Accounts s' := by
  have written : Undisturbed .worker s { s with book := s.book.setJob i f } := by
    refine .setJob free (fun job side => ?_) (fun old found known => ?_)
      (fun request => absurd rfl request) fun request => absurd rfl request
    · cases side with
      | taker => exact (sides job).1
      | maker => exact (sides job).2.1
    · cases there.symm.trans found
      rw [lands]
      exact known
  have und := written.trans rest
  refine acc.next und mine ?_ ?_ ?_
  · rw [book]
    have same : Balanced (s.book.setJob i f) s.taken := by
      refine acc.balanced.setJob fun old found => ?_
      cases there.symm.trans found
      exact ⟨(sides job).1, (sides job).2.1, (sides job).2.2, fun _ => alive⟩
    refine same.mono fun k => ?_
    simpa using acc.taken_le (d := fun _ => 0) und (fun k _ => by
      rw [idle k]
      simpa using acc.nonneg k) (fun _ _ => le_refl 0) k
  · rw [book, chain]
    exact acc.charged.modify there (sides job).1 (sides job).2.1 (sides job).2.2 lands confirms
      keeps own
  · rw [book, undone]
    refine acc.undone.modify fun old found dead => ?_
    cases there.symm.trans found
    rw [alive] at dead
    cases dead

/-- The commit of a status that leaves the job queued. -/
theorem Accounts.status {status : Status} (acc : Accounts s)
    (there : s.book.jobs[i]? = some job) (alive : queued job.status = true)
    (confirms : status = .confirmed → s.chain.landed job = true)
    (done : (writeJob s i fun job => { job with status }).map (·.commit .worker) = some s') :
    Accounts s' := by
  rw [Option.map_eq_some_iff] at done
  rcases done with ⟨mid, done, rfl⟩
  unfold writeJob at done
  rw [Option.ite_none_right_eq_some] at done
  rcases done with ⟨free, done⟩
  cases done
  refine acc.write (f := fun job => { job with status }) free there alive
    (fun _ => ⟨rfl, rfl, rfl⟩) rfl confirms (fun _ => id) (fun _ => .inl) .commit rfl rfl rfl
    ?_ ?_
  · simp only [State.commit, Function.update_self]
    trivial
  · intro k
    simp only [State.commit, Function.update_self]
    rfl

theorem queued_of_inFlight {status : Status} (flying : status.inFlight = true) :
    queued status = true := by
  cases status <;> simp_all [queued, RelayNonces.Status.inFlight]

theorem culprits_cancelled {sides : List Side} {taken : Bytes32 → Int}
    (balanced : Balanced b taken) :
    Balanced (sides.foldl (fun b side => b.cancelOrder (job.hash side)) b) taken := by
  induction sides generalizing b with
  | nil => exact balanced
  | cons side rest ih => exact ih balanced.cancelOrder

theorem undisturbed_culprits {sides : List Side} :
    Undisturbed p s
      { s with book := sides.foldl (fun b side => b.cancelOrder (job.hash side)) s.book } := by
  induction sides generalizing s with
  | nil => exact .refl
  | cons side rest ih =>
      exact Undisturbed.setOrder.trans
        (ih (s := { s with book := s.book.cancelOrder (job.hash side) }))

theorem culprits_jobs {sides : List Side} :
    (sides.foldl (fun b side => b.cancelOrder (job.hash side)) b).jobs = b.jobs := by
  induction sides generalizing b with
  | nil => rfl
  | cons side rest ih => exact ih

/-- A step that writes orders only, after which the worker has taken nothing. -/
theorem Accounts.cancel {sides : List Side} (acc : Accounts s)
    (und : Undisturbed .worker { s with
      book := sides.foldl (fun b side => b.cancelOrder (job.hash side)) s.book } s')
    (book : s'.book = sides.foldl (fun b side => b.cancelOrder (job.hash side)) s.book)
    (chain : s'.chain = s.chain) (undone : s'.undone = s.undone)
    (mine : (s'.pcs .worker).Fits s' .worker) (idle : ∀ k, (s'.pcs .worker).taken k = 0) :
    Accounts s' := by
  have und := undisturbed_culprits.trans und
  refine acc.next und mine ?_ ?_ ?_
  · rw [book]
    refine (culprits_cancelled acc.balanced).mono fun k => ?_
    simpa using acc.taken_le (d := fun _ => 0) und (fun k _ => by
      rw [idle k]
      simpa using acc.nonneg k) (fun _ _ => le_refl 0) k
  · rw [book, chain, culprits_jobs]
    exact acc.charged
  · rw [book, undone, culprits_jobs]
    exact acc.undone

/-- The filled of an order is set to what the chain said and what is live. -/
theorem Accounts.resync {reasons : List Reason} {side : Side} {onchain : Int}
    {sides : List Side} (acc : Accounts s)
    (at_ : s.pcs .worker = .resyncing i reasons side onchain sides)
    (there : s.book.jobs[i]? = some job)
    (free : s.orderFree .worker (job.hash side) = true) :
    Accounts (({ s with book := s.book.resyncFilled (job.hash side) onchain }.lockOrder .worker
      (job.hash side)).goto .worker (.retiring i reasons sides)) := by
  have known := acc.fits .worker
  rw [at_] at known
  rcases known with ⟨-, seen, found, truthful⟩
  cases there.symm.trans found
  have written : Undisturbed .worker s
      { s with book := s.book.resyncFilled (job.hash side) onchain } := .setOrder
  have und := (written.trans (.lockOrder free)).trans
    (.goto (x := .retiring i reasons sides))
  have less := fun k => acc.taken_le (d := fun _ => 0) und (fun k _ => by
    simpa [State.goto, Pc.taken] using acc.nonneg k) (fun _ _ => le_refl 0) k
  refine acc.next und ?_ ?_ acc.charged acc.undone
  · simp only [State.goto, Function.update_self]
    trivial
  · refine acc.balanced.resync (le_of_eq ?_) (fun k _ => by simpa using less k)
      (acc.nonneg _) truthful
    simp [State.taken, State.goto, State.lockOrder, Pc.taken]

theorem accounts_worker {event : Event} (acc : Accounts s) (careful : Careful s event)
    (taken : workerStep s event = some s') : Accounts s' := by
  have known := acc.fits .worker
  cases event with
  | picked n =>
      simp only [workerStep] at taken
      split at taken
      · next job _ there =>
        split at taken
        · cases taken
          exact accounts_idle acc trivial fun _ => rfl
        · rw [Option.ite_none_right_eq_some] at taken
          rcases taken with ⟨flying, taken⟩
          cases taken
          exact accounts_idle acc ⟨rfl, job, there, flying⟩ fun _ => rfl
      · cases taken
  | gaveUp status reasons =>
      simp only [workerStep] at taken
      split at taken
      · rw [Option.ite_none_right_eq_some] at taken
        exact accounts_retire acc taken.1 (fun request => absurd rfl request)
          (fun _ => by trivial) (fun _ => by rfl) taken.2
      · cases taken
  | reverted reasons =>
      simp only [workerStep] at taken
      split at taken
      · split at taken
        · exact accounts_retire acc (.inl rfl) (fun request => absurd rfl request)
            (fun _ => by trivial) (fun _ => by rfl) taken
        · cases taken
      · cases taken
  | landed =>
      simp only [workerStep] at taken
      split at taken
      rotate_right
      · cases taken
      all_goals
        rw [Option.ite_none_right_eq_some, Option.any_eq_true] at taken
        rcases taken with ⟨⟨job, there, landed⟩, taken⟩
        cases taken
        exact accounts_idle acc ⟨rfl, job, there, landed⟩ fun _ => rfl
  | confirmed =>
      simp only [workerStep] at taken
      split at taken
      · next n at_ =>
        rw [at_] at known
        rcases known with ⟨-, job, there, landed⟩
        have fresh := careful n job at_ there
        refine acc.status there ?_ (fun _ => landed) taken
        cases now : job.status <;> simp_all [queued]
      · cases taken
  | claimed txHash =>
      simp only [workerStep] at taken
      split at taken
      · next n at_ =>
        rw [Option.ite_none_right_eq_some] at taken
        rcases taken with ⟨free, taken⟩
        split at taken
        · next book claims =>
          cases taken
          unfold Book.claim at claims
          split at claims
          · next job there =>
            rw [Option.ite_none_right_eq_some] at claims
            rcases claims with ⟨pending, claims⟩
            cases claims
            have own : ∀ (m : Nat) (other : Job), s.book.jobs[m]? = some other →
                txHash ∈ other.txHashes → m = n := by
              intro m other found known
              have hand := careful m other found known
              rw [at_] at hand
              exact (Option.some.inj hand).symm
            refine acc.write (f := fun job => { job with
                status := .sending, txHashes := job.txHashes ++ [txHash] }) free there
              (by rw [pending]; rfl) (fun _ => ⟨rfl, rfl, rfl⟩) (acc.charged.landed_append there
                own rfl rfl rfl) (by rintro ⟨⟩) (fun _ => List.mem_append_left _) (fun t mem => ?_)
              (.goto (x := .reconcile n)) rfl rfl rfl ?_ ?_
            · rcases List.mem_append.mp mem with mem | mem
              · exact .inl mem
              · cases List.mem_singleton.mp mem
                exact .inr own
            · simp only [State.goto, Function.update_self]
              exact ⟨rfl, { job with status := .sending, txHashes := job.txHashes ++ [txHash] },
                by simp [Book.setJob, there], rfl⟩
            · intro k
              simp only [State.goto, Function.update_self]
              rfl
          · cases claims
        · cases taken
          exact acc.commit
      · cases taken
  | bumped txHash =>
      simp only [workerStep] at taken
      split at taken
      · next n at_ =>
        rw [at_] at known
        rcases known with ⟨-, job, there, flying⟩
        unfold writeJob at taken
        rw [Option.ite_none_right_eq_some] at taken
        rcases taken with ⟨free, taken⟩
        cases taken
        have own : ∀ (m : Nat) (other : Job), s.book.jobs[m]? = some other →
            txHash ∈ other.txHashes → m = n := by
          intro m other found known
          have hand := careful m other found known
          rw [at_] at hand
          exact (Option.some.inj hand).symm
        refine acc.write (f := fun job => { job with txHashes := job.txHashes ++ [txHash] })
          free there (queued_of_inFlight flying) (fun _ => ⟨rfl, rfl, rfl⟩)
          (acc.charged.landed_append there own rfl rfl rfl) (fun confirmed => ?_)
          (fun _ => List.mem_append_left _) (fun t mem => ?_) .refl rfl rfl rfl ?_ ?_
        · simp only at confirmed
          rw [confirmed] at flying
          cases flying
        · rcases List.mem_append.mp mem with mem | mem
          · exact .inl mem
          · cases List.mem_singleton.mp mem
            exact .inr own
        · simp only [at_]
          exact ⟨rfl, { job with txHashes := job.txHashes ++ [txHash] },
            by simp [Book.setJob, there], flying⟩
        · intro k
          simp only [at_]
          rfl
      · cases taken
  | settled write =>
      simp only [workerStep] at taken
      split at taken
      · next n at_ =>
        rw [at_] at known
        rcases known with ⟨-, job, there, flying⟩
        exact acc.status there (queued_of_inFlight flying) (by rintro ⟨⟩) taken
      · next n at_ =>
        rw [at_] at known
        rcases known with ⟨-, job, there, flying⟩
        exact acc.status there (queued_of_inFlight flying) (by rintro ⟨⟩) taken
      · cases taken
  | filledRead =>
      simp only [workerStep] at taken
      split at taken
      · split at taken
        · next job there =>
          cases taken
          exact accounts_idle acc ⟨rfl, job, there, acc.charged.truthful acc.balanced.fills⟩
            fun _ => rfl
        · cases taken
      · cases taken
  | readFailed =>
      simp only [workerStep] at taken
      split at taken
      · cases taken
        exact accounts_idle acc trivial fun _ => rfl
      · cases taken
  | resynced =>
      simp only [workerStep] at taken
      split at taken
      · next at_ =>
        split at taken
        · next job there =>
          rw [Option.ite_none_right_eq_some] at taken
          rcases taken with ⟨free, taken⟩
          cases taken
          exact acc.resync at_ there free
        · cases taken
      · cases taken
  | culpritsCancelled =>
      simp only [workerStep] at taken
      split at taken
      · next n reasons at_ =>
        split at taken
        · next job there =>
          split at taken
          · cases taken
            refine acc.cancel .goto rfl rfl rfl ?_ ?_
            · simp only [State.goto, Function.update_self]
              refine ⟨?_, trivial⟩
              have row := acc.balanced.rows job (List.mem_of_getElem? there) job.takerHash
                (by simp [Job.touches])
              exact (undisturbed_culprits (p := .worker)).orders _ row
            · intro k
              simp only [State.goto, Function.update_self]
              rfl
          · cases taken
            refine acc.cancel .commit rfl rfl rfl ?_ ?_
            · simp only [State.commit, Function.update_self]
              trivial
            · intro k
              simp only [State.commit, Function.update_self]
              rfl
        · cases taken
      · cases taken
  | _ => cases taken

/-! ### The chain and the runs -/

/-- What the chain does disturbs nobody. -/
theorem Accounts.onChain {chain : Chain} (acc : Accounts s)
    (charged : Charged s.book.jobs chain)
    (landed : ∀ job, s.chain.landed job = true → chain.landed job = true) :
    Accounts { s with chain } where
  balanced := acc.balanced
  charged := charged
  undone := acc.undone
  fits := by
    have und : ∀ p, Undisturbed p s { s with chain } := fun p =>
      { Undisturbed.refl (p := p) (s := s) with
        jobs := fun _ job there =>
          ⟨job, there, fun _ => rfl, fun _ _ _ => rfl, fun _ _ => rfl, landed job⟩ }
    intro q
    cases q with
    | worker => exact (und (.request 0)).fits (by rintro ⟨⟩) (acc.fits _)
    | request n => exact (und .worker).fits (by rintro ⟨⟩) (acc.fits _)

theorem accounts_chain {event : Event} (acc : Accounts s) (taken : chainStep s event = some s') :
    Accounts s' := by
  cases event with
  | mined n txHash =>
      simp only [chainStep] at taken
      split at taken
      · next job there =>
        rw [Option.ite_none_right_eq_some] at taken
        rcases taken with ⟨⟨known, -⟩, taken⟩
        cases taken
        exact acc.onChain (acc.charged.mined acc.balanced.fills there known (fun _ => rfl) rfl)
          fun _ => Charged.landed_log rfl
      · cases taken
  | filledElsewhere h qty =>
      simp only [chainStep, Option.ite_none_right_eq_some, Option.some.injEq] at taken
      rcases taken with ⟨positive, rfl⟩
      refine acc.onChain (acc.charged.more rfl fun k => ?_) fun _ => id
      by_cases same : k = h
      · subst same
        simp [positive]
      · simp [Function.update_of_ne same]
  | _ => cases taken

/-- A careful step keeps the accounts. -/
theorem accounts_step {event : Event} (acc : Accounts s) (careful : Careful s event)
    (taken : step s event = some s') : Accounts s' := by
  unfold step at taken
  split at taken
  · exact accounts_match acc taken
  · exact accounts_match acc taken
  · exact accounts_match acc taken
  · exact accounts_match acc taken
  · exact accounts_match acc taken
  · exact accounts_match acc taken
  · exact accounts_match acc taken
  · exact accounts_delete acc taken
  · exact accounts_delete acc taken
  · exact accounts_delete acc taken
  · exact accounts_lower acc taken
  · exact accounts_commit acc taken
  · exact accounts_chain acc taken
  · exact accounts_chain acc taken
  · exact accounts_worker acc careful taken

theorem Accounts.initially : Accounts .initial where
  balanced :=
    { bounds := by rintro h o ⟨⟩
      covered := by rintro h o ⟨⟩
      fills := by rintro job ⟨⟩
      rows := by rintro job ⟨⟩ }
  charged :=
    { charged := fun _ => le_refl 0
      landed := by rintro job ⟨⟩
      signed := by rintro log ⟨⟩
      apart := by
        intro i n job other t there
        simp [State.initial] at there }
  undone :=
    { once := List.nodup_nil
      ended := by rintro n ⟨⟩ }
  fits := fun _ => trivial

/-- Fills stay within amounts and cover the jobs that may use them or have, and none is undone
twice. -/
def Sums (s : State) : Prop :=
  (∀ h o, s.book.orders h = some o → 0 ≤ o.filled ∧ o.filled ≤ o.amount ∧
    s.book.filling queued h ≤ o.filled) ∧ s.undone.Nodup

theorem Accounts.sums (acc : Accounts s) : Sums s := by
  refine ⟨fun h o there => ?_, acc.undone.once⟩
  have bounds := acc.balanced.bounds h o there
  have covered := acc.balanced.covered h o there
  have nonneg := acc.nonneg h
  exact ⟨bounds.1, bounds.2, by omega⟩

/-- In a run of careful steps the accounts of orders add up. -/
theorem fills_add_up {events : List Event}
    (path : Run (fun s event s' => Careful s event ∧ step s event = some s') .initial events s) :
    Sums s :=
  (path.invariant Accounts.initially fun _ _ _ acc taken =>
    accounts_step acc taken.1 taken.2).sums

/-! ### A rollback between a verdict and its commit -/

def restingOrder (maker : OverUnder.Vyper.Address) (isBuy : Bool) : Order where
  id := 0
  maker := maker
  conditionId := 1
  isBuy := isBuy
  outcome := 0
  price := 500000
  amount := 100
  filled := 0
  expiry := 2000000000
  cancelled := false

/-- Orders 7 and 8 are posted and matched. -/
def Event.matched : List Event :=
  [.posted 0 7 (restingOrder 1 false), .committed (.request 0),
    .posted 1 8 (restingOrder 2 true), .makerTaken (.request 1) 7 100,
    .takerTaken (.request 1), .enqueued (.request 1), .committed (.request 1)]

/-- The match is signed, set back to pending and mined after all. Order 7 is cancelled between
the look at the chain and the commit of what it showed. -/
def Event.overwritten : List Event :=
  Event.matched ++ [.picked 0, .claimed 99, .settled .pending, .mined 0 99, .picked 0, .landed,
    .deleting 2 7, .cancelFlushed 2, .jobCancelled 2, .lowered (.request 2),
    .committed (.request 2), .confirmed]

/-- A confirmed match fills more of order 7 than its row says. -/
theorem fills_fall_short : ∃ s : State,
    Run (fun s event s' => step s event = some s') .initial Event.overwritten s ∧ ¬ Sums s := by
  have ends : (Event.overwritten.foldlM step State.initial).map (fun s =>
      (s.book.orders 7).any fun o => decide (o.filled < s.book.filling queued 7)) =
        some true := by decide +kernel
  rw [Option.map_eq_some_iff] at ends
  rcases ends with ⟨s, ran, found⟩
  rw [Option.any_eq_true] at found
  rcases found with ⟨o, there, short⟩
  refine ⟨s, Run.of_foldlM (fun _ _ _ taken => taken) ran, fun sums => ?_⟩
  have covered := (sums.1 7 o there).2.2
  have short := of_decide_eq_true short
  omega

/-- Order 7 is matched twice. The first match is signed, mined and seen on the chain; a DELETE of
order 7 rolls the second back, and meanwhile the worker confirms the first. -/
def Event.confirming : List Event :=
  [.posted 0 7 (restingOrder 1 false), .committed (.request 0),
    .posted 1 8 { restingOrder 2 true with amount := 60 }, .makerTaken (.request 1) 7 60,
    .takerTaken (.request 1), .enqueued (.request 1), .committed (.request 1),
    .posted 2 9 { restingOrder 3 true with amount := 40 }, .makerTaken (.request 2) 7 40,
    .takerTaken (.request 2), .enqueued (.request 2), .committed (.request 2),
    .picked 0, .claimed 99, .settled .sent, .mined 0 99, .picked 0, .landed,
    .deleting 3 7, .cancelFlushed 3, .jobCancelled 3, .jobCancelled 3, .confirmed,
    .lowered (.request 3), .committed (.request 3)]

/-- A new transaction hash, or a confirmation of a job that is not given up. -/
def Event.tame (s : State) : Event → Bool
  | .confirmed =>
      match s.pcs .worker with
      | .confirming i => (s.book.jobs[i]?).all fun job =>
          decide (job.status ≠ .failed ∧ job.status ≠ .cancelled)
      | _ => true
  | .claimed txHash | .bumped txHash => s.book.jobs.all fun job => job.txHashes.all (· != txHash)
  | _ => true

theorem Event.tame_careful {event : Event} (tame : event.tame s = true) : Careful s event := by
  cases event with
  | confirmed =>
      intro i job at_ there
      simpa [Event.tame, at_, there] using tame
  | claimed txHash | bumped txHash =>
      intro n other there recorded
      have unused := List.all_eq_true.mp tame other (List.mem_of_getElem? there)
      have other := List.all_eq_true.mp unused txHash recorded
      exact absurd rfl (bne_iff_ne.mp other)
  | _ => trivial

theorem fills_add_up_matched : ∃ s : State,
    s.book.jobs.map Job.status = [.confirmed, .cancelled] ∧
      (s.book.orders 7).map Order.filled = some 60 ∧ Sums s := by
  have ends : (Event.confirming.foldlM (fun (s : State) (event : Event) =>
      if event.tame s then step s event else none) State.initial).map
        (fun s => decide (s.book.jobs.map Job.status = [.confirmed, .cancelled] ∧
          (s.book.orders 7).map Order.filled = some 60)) = some true := by decide +kernel
  rw [Option.map_eq_some_iff] at ends
  rcases ends with ⟨s, ran, reached⟩
  rcases of_decide_eq_true reached with ⟨statuses, filled⟩
  have path : Run (fun s event s' => Careful s event ∧ step s event = some s')
      State.initial Event.confirming s :=
    .of_tested (fun _ _ => Event.tame_careful) ran
  exact ⟨s, statuses, filled, fills_add_up path⟩

end OverUnder.Backend.FillRuns
