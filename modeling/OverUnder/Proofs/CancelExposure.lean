/-
Module: OverUnder.Proofs.CancelExposure
Purpose: An order whose cancel was answered without an on-chain cancel has never been
  published and never will be, whatever interleaves, as long as the worker claims jobs of live
  orders only, and of orders whose cancel has not read its jobs without them.
Trusted boundary: none
Main exports: Hashed, Moved, Quiet, Dead, Covers, Cancelling, Exposure, Careful, exposure_step,
  Reported, cancel_never_underreports, cancel_underreports
-/
import OverUnder.Backend.CancelRuns
import OverUnder.Library.Reachable

namespace OverUnder.Backend.CancelRuns

open OverUnder.Vyper (Bytes32)
open OverUnder.Library
open RelayNonces (Status JobWrite)
open OrderBook

variable {b b' : Book} {s s' : State} {h : Bytes32} {i : Nat} {job : Job}

/-! ### What statements leave alone -/

/-- A signed transaction is on record for the job. -/
def Hashed (b : Book) (i : Nat) : Prop := ∃ job, b.jobs[i]? = some job ∧ job.txHashes ≠ []

/-- Jobs that are under way or through have a transaction on record. -/
def Moved (b : Book) : Prop :=
  ∀ (i : Nat) (job : Job), b.jobs[i]? = some job →
    job.status = .sending ∨ job.status = .sent ∨ job.status = .confirmed → job.txHashes ≠ []

/-- What every statement does but the claim of a job: no job gets its first transaction, none
that never had one comes back from its end, and no order is uncancelled. -/
structure Quiet (b b' : Book) : Prop where
  kept : ∀ (i : Nat) (job : Job), b.jobs[i]? = some job → ∃ job', b'.jobs[i]? = some job' ∧
    (job.txHashes ≠ [] → job'.txHashes ≠ []) ∧
      (job.txHashes = [] → job.status.terminal = true → job'.status.terminal = true)
  unhashed : ∀ (i : Nat) (job' : Job), b'.jobs[i]? = some job' → job'.txHashes ≠ [] →
    ∃ job, b.jobs[i]? = some job ∧ job.txHashes ≠ [] ∧
      job.takerHash = job'.takerHash ∧ job.makerHash = job'.makerHash
  moved : Moved b → Moved b'
  orders : ∀ h o, b.orders h = some o → ∃ o', b'.orders h = some o' ∧
    (o.cancelled = true → o'.cancelled = true)

namespace Quiet

theorem refl : Quiet b b where
  kept := fun _ job there => ⟨job, there, id, fun _ => id⟩
  unhashed := fun _ job there hashed => ⟨job, there, hashed, rfl, rfl⟩
  moved := id
  orders := fun _ o there => ⟨o, there, id⟩

theorem trans {c : Book} (first : Quiet b b') (second : Quiet b' c) : Quiet b c where
  kept := by
    intro i job there
    rcases first.kept i job there with ⟨mid, there', hashed, ended⟩
    rcases second.kept i mid there' with ⟨last, there'', hashed', ended'⟩
    refine ⟨last, there'', fun known => hashed' (hashed known), fun unknown ended'' => ?_⟩
    refine ended' ?_ (ended unknown ended'')
    by_contra known
    rcases first.unhashed i mid there' known with ⟨old, same, knew, -⟩
    cases there.symm.trans same
    exact knew unknown
  unhashed := by
    intro i last there hashed
    rcases second.unhashed i last there hashed with ⟨mid, there', known, taker, maker⟩
    rcases first.unhashed i mid there' known with ⟨job, there'', knew, taker', maker'⟩
    exact ⟨job, there'', knew, taker'.trans taker, maker'.trans maker⟩
  moved := fun before => second.moved (first.moved before)
  orders := by
    intro h o there
    rcases first.orders h o there with ⟨mid, there', cancelled⟩
    rcases second.orders h mid there' with ⟨last, there'', cancelled'⟩
    exact ⟨last, there'', fun before => cancelled' (cancelled before)⟩

theorem hashed (quiet : Quiet b b') (known : Hashed b i) : Hashed b' i := by
  rcases known with ⟨job, there, hashed⟩
  rcases quiet.kept i job there with ⟨job', there', still, -⟩
  exact ⟨job', there', still hashed⟩

end Quiet

/-- An update of one order that leaves it cancelled. -/
theorem quiet_setOrder {f : Order → Order}
    (keeps : ∀ o, o.cancelled = true → (f o).cancelled = true) : Quiet b (b.setOrder h f) where
  kept := fun _ job there => ⟨job, there, id, fun _ => id⟩
  unhashed := fun _ job there hashed => ⟨job, there, hashed, rfl, rfl⟩
  moved := id
  orders := by
    intro k o there
    by_cases same : k = h
    · subst same
      refine ⟨f o, ?_, keeps o⟩
      simp only [Book.setOrder, Function.update_self, there, Option.map_some]
    · refine ⟨o, ?_, id⟩
      simp only [Book.setOrder, Function.update_of_ne same, there]

theorem quiet_resyncFilled {onchain : Int} : Quiet b (b.resyncFilled h onchain) :=
  quiet_setOrder fun _ => id

theorem quiet_cancelOrder : Quiet b (b.cancelOrder h) :=
  quiet_setOrder fun _ _ => rfl

theorem quiet_lowerFilled : Quiet b (b.lowerFilled job) where
  kept := fun _ job there => ⟨job, there, id, fun _ => id⟩
  unhashed := fun _ job there hashed => ⟨job, there, hashed, rfl, rfl⟩
  moved := id
  orders := by
    intro k o there
    by_cases touched : job.touches k = true
    · refine ⟨o.lower job.fillAmount, ?_, id⟩
      simp only [Book.lowerFilled, touched, if_true, there, Option.map_some]
    · refine ⟨o, ?_, id⟩
      simp only [Book.lowerFilled, touched, if_false, there, Bool.false_eq_true]

/-- An update of one job that has a transaction on record, or that ends one that has none. -/
theorem quiet_setJob {f : Job → Job}
    (sides : ∀ job, (f job).takerHash = job.takerHash ∧ (f job).makerHash = job.makerHash)
    (fine : ∀ job, b.jobs[i]? = some job →
      job.txHashes ≠ [] ∧ (f job).txHashes ≠ [] ∨
        (f job).txHashes = job.txHashes ∧
          ((f job).status = .failed ∨ (f job).status = .cancelled)) :
    Quiet b (b.setJob i f) where
  kept := by
    intro k job there
    by_cases same : i = k
    · subst same
      refine ⟨f job, by simp [Book.setJob, there], ?_, ?_⟩
      · rcases fine job there with ⟨-, hashed⟩ | ⟨hashes, -⟩
        · exact fun _ => hashed
        · rw [hashes]
          exact id
      · intro unknown _
        rcases fine job there with ⟨known, -⟩ | ⟨-, ended | ended⟩
        · exact absurd unknown known
        · rw [ended]
          rfl
        · rw [ended]
          rfl
    · refine ⟨job, ?_, id, fun _ => id⟩
      simp [Book.setJob, same, there]
  unhashed := by
    intro k job' there hashed
    simp only [Book.setJob, List.getElem?_modify, Option.map_eq_map, Option.map_eq_some_iff]
      at there
    rcases there with ⟨job, there, rfl⟩
    by_cases same : i = k
    · subst same
      simp only [if_true] at hashed ⊢
      refine ⟨job, there, ?_, (sides job).1.symm, (sides job).2.symm⟩
      rcases fine job there with ⟨known, -⟩ | ⟨hashes, -⟩
      · exact known
      · exact hashes ▸ hashed
    · simp only [same, if_false] at hashed ⊢
      exact ⟨job, there, hashed, rfl, rfl⟩
  moved := by
    intro moved k job' there status
    simp only [Book.setJob, List.getElem?_modify, Option.map_eq_map, Option.map_eq_some_iff]
      at there
    rcases there with ⟨job, there, rfl⟩
    by_cases same : i = k
    · subst same
      simp only [if_true] at status ⊢
      rcases fine job there with ⟨-, hashed⟩ | ⟨-, ended | ended⟩
      · exact hashed
      · rw [ended] at status
        simp at status
      · rw [ended] at status
        simp at status
    · simp only [same, if_false] at status ⊢
      exact moved k job there status
  orders := fun _ o there => ⟨o, there, id⟩

theorem quiet_setStatus {status : Status}
    (fine : Hashed b i ∨ status = .failed ∨ status = .cancelled) :
    Quiet b (b.setStatus i status) := by
  refine quiet_setJob (f := fun job => { job with status }) (fun _ => ⟨rfl, rfl⟩)
    fun job there => ?_
  rcases fine with ⟨known, found, hashed⟩ | ends
  · cases there.symm.trans found
    exact .inl ⟨hashed, hashed⟩
  · exact .inr ⟨rfl, ends⟩

/-- A job is rolled back from the status the caller saw. -/
theorem rollbackJob_spec {expected status : Status}
    (done : b.rollbackJob i expected status = some b') :
    ∃ job, b.jobs[i]? = some job ∧ job.status = expected ∧
      b' = (b.setStatus i status).lowerFilled job := by
  unfold Book.rollbackJob at done
  split at done
  · next retired job moved there =>
    cases done
    unfold Book.retireJob at moved
    split at moved
    · cases moved
    · simp only [there, Option.ite_none_right_eq_some, Option.some.injEq] at moved
      rcases moved with ⟨seen, rfl⟩
      exact ⟨job, there, seen, rfl⟩
  · cases done

theorem quiet_rollbackJob {expected status : Status}
    (ends : status = .failed ∨ status = .cancelled)
    (done : b.rollbackJob i expected status = some b') : Quiet b b' := by
  rcases rollbackJob_spec done with ⟨job, -, -, rfl⟩
  exact (quiet_setStatus (.inr ends)).trans quiet_lowerFilled

theorem quiet_foldl {α : Type} {f : Book → α → Book} (each : ∀ b a, Quiet b (f b a))
    {items : List α} : Quiet b (items.foldl f b) := by
  induction items generalizing b with
  | nil => exact .refl
  | cons a rest ih => exact (each b a).trans ih

theorem quiet_retireFailedSide {reasons : List Reason} {onchain : Side → Int} :
    Quiet b (retireFailedSide b job reasons onchain) :=
  (quiet_foldl fun _ _ => quiet_resyncFilled).trans (quiet_foldl fun _ _ => quiet_cancelOrder)

/-- A job of a committed match is an old one, or was never signed. -/
theorem postCommit_job {post : Post} {job' : Job}
    (there : (post.commit b).jobs[i]? = some job') :
    b.jobs[i]? = some job' ∨ job'.txHashes = [] ∧ job'.status = .pending := by
  simp only [Post.commit, List.getElem?_append] at there
  split at there
  · exact .inl there
  · rw [List.getElem?_map, Option.map_eq_some_iff] at there
    rcases there with ⟨fill, -, rfl⟩
    exact .inr ⟨rfl, rfl⟩

theorem quiet_postCommit {post : Post}
    (fresh : post.inserts.isSome = true → b.orders post.takerHash = none) :
    Quiet b (post.commit b) where
  kept := by
    intro i job there
    refine ⟨job, ?_, id, fun _ => id⟩
    have within := (List.getElem?_eq_some_iff.mp there).1
    simp only [Post.commit, List.getElem?_append, within, if_true, there]
  unhashed := by
    intro i job' there hashed
    rcases postCommit_job there with old | ⟨unsigned, -⟩
    · exact ⟨job', old, hashed, rfl, rfl⟩
    · exact absurd unsigned hashed
  moved := by
    intro moved i job' there status
    rcases postCommit_job there with old | ⟨-, pending⟩
    · exact moved i job' old status
    · rw [pending] at status
      simp at status
  orders := by
    intro k o there
    refine ⟨o.raise (post.taken k), ?_, id⟩
    simp only [Post.commit]
    cases inserts : post.inserts with
    | none => simp only [there, Option.map_some]
    | some o' =>
        have other : k ≠ post.takerHash := by
          rintro rfl
          rw [fresh (by rw [inserts]; rfl)] at there
          cases there
        simp only [Function.update_of_ne other, there, Option.map_some]

/-! ### The loop of a DELETE -/

/-- Rolling back a pending job leaves those in flight as they are. -/
theorem rollbackJob_inFlight {status : Status} {k : Nat}
    (done : b.rollbackJob k .pending status = some b') (there : b.jobs[i]? = some job)
    (flying : job.status.inFlight = true) : k ≠ i ∧ b'.jobs[i]? = some job := by
  rcases rollbackJob_spec done with ⟨rolled, found, pending, rfl⟩
  have apart : k ≠ i := by
    rintro rfl
    cases found.symm.trans there
    rw [pending] at flying
    cases flying
  refine ⟨apart, ?_⟩
  simp [Book.lowerFilled, Book.setStatus, Book.setJob, apart, there]

theorem quiet_rollbacks {rows : List (Nat × Job)} : Quiet b (rollbacks b rows).1 := by
  induction rows generalizing b with
  | nil => exact .refl
  | cons row rest ih =>
      rcases row with ⟨k, seen⟩
      simp only [rollbacks]
      split
      · next b' rolled =>
        rw [Option.ite_none_right_eq_some] at rolled
        exact (quiet_rollbackJob (.inr rfl) rolled.2).trans ih
      · exact ih

/-- A job that is in flight by the time of the loop is found to be. -/
theorem rollbacks_finds {rows : List (Nat × Job)} {seen : Job} (mem : (i, seen) ∈ rows)
    (pending : seen.status = .pending) (there : b.jobs[i]? = some job)
    (flying : job.status.inFlight = true) : (rollbacks b rows).2 ≠ [] := by
  induction rows generalizing b with
  | nil => cases mem
  | cons row rest ih =>
      rcases row with ⟨k, other⟩
      simp only [rollbacks]
      split
      · next b' rolled =>
        rw [Option.ite_none_right_eq_some] at rolled
        have ⟨apart, still⟩ := rollbackJob_inFlight rolled.2 there flying
        rcases List.mem_cons.mp mem with head | later
        · cases head
          exact absurd rfl apart
        · exact ih later still
      · rcases List.mem_cons.mp mem with head | later
        · cases head
          simp only [pending, if_true, there, Option.map_some, Option.getD_some, flying]
          exact List.cons_ne_nil _ _
        · have found := ih later there
          generalize Status.inFlight _ = flag
          cases flag with
          | true => exact List.cons_ne_nil _ _
          | false => exact found

/-! ### The invariant -/

/-- An order that is cancelled, and none of whose jobs has a transaction on record. -/
structure Dead (b : Book) (h : Bytes32) : Prop where
  cancelled : ∃ o, b.orders h = some o ∧ o.cancelled = true
  unsigned : ∀ (i : Nat) (job : Job), b.jobs[i]? = some job → job.touches h = true →
    job.txHashes = []

/-- A DELETE's jobs, as it read them: those of the order that have a transaction on record are
among them, and those that had ended without one still are. -/
structure Covers (b : Book) (h : Bytes32) (rows : List (Nat × Job)) : Prop where
  listed : ∀ (i : Nat) (job : Job), b.jobs[i]? = some job → job.touches h = true →
    job.txHashes ≠ [] → ∃ seen, (i, seen) ∈ rows
  ended : ∀ (i : Nat) (seen : Job), (i, seen) ∈ rows → seen.txHashes = [] →
    seen.status.terminal = true → ∃ job, b.jobs[i]? = some job ∧ job.txHashes = [] ∧
      job.status.terminal = true

/-- What holds of a running DELETE. -/
structure Cancelling (b : Book) (cancel : Cancel) : Prop where
  there : ∃ o, b.orders cancel.orderHash = some o
  covers : ∀ rows, cancel.jobs = some rows → Covers b cancel.orderHash rows

/-- What holds where the worker stands: the transaction at hand is on record. -/
def AtHand (b : Book) : Pc → Prop
  | .broadcast i | .settle i | .reconcile i => Hashed b i
  | .giveUp _ status _ => status = .failed ∨ status = .cancelled
  | _ => True

structure Exposure (s : State) : Prop where
  moved : Moved s.book
  published : ∀ i ∈ s.published, Hashed s.book i
  worker : AtHand s.book s.worker
  answers : ∀ h, (h, false) ∈ s.answers → Dead s.book h
  cancels : ∀ cancel ∈ s.cancels, Cancelling s.book cancel

theorem touches_congr {job' : Job} (taker : job.takerHash = job'.takerHash)
    (maker : job.makerHash = job'.makerHash) : job.touches h = job'.touches h := by
  simp only [Job.touches, taker, maker]

theorem Dead.quiet (dead : Dead b h) (quiet : Quiet b b') : Dead b' h where
  cancelled := by
    rcases dead.cancelled with ⟨o, there, cancelled⟩
    rcases quiet.orders h o there with ⟨o', there', still⟩
    exact ⟨o', there', still cancelled⟩
  unsigned := by
    intro i job' there touches
    by_contra hashed
    rcases quiet.unhashed i job' there hashed with ⟨job, there, known, taker, maker⟩
    exact known (dead.unsigned i job there (touches_congr taker maker ▸ touches))

theorem Covers.quiet {rows : List (Nat × Job)} (covers : Covers b h rows) (quiet : Quiet b b') :
    Covers b' h rows where
  listed := by
    intro i job' there touches hashed
    rcases quiet.unhashed i job' there hashed with ⟨job, there, known, taker, maker⟩
    exact covers.listed i job there (touches_congr taker maker ▸ touches) known
  ended := by
    intro i seen mem unsigned finished
    rcases covers.ended i seen mem unsigned finished with ⟨job, there, still, ended⟩
    rcases quiet.kept i job there with ⟨job', there', -, stays⟩
    refine ⟨job', there', ?_, stays still ended⟩
    by_contra hashed
    rcases quiet.unhashed i job' there' hashed with ⟨old, same, known, -⟩
    cases there.symm.trans same
    exact known still

theorem Cancelling.quiet {cancel : Cancel} (cancelling : Cancelling b cancel)
    (quiet : Quiet b b') : Cancelling b' cancel where
  there := by
    rcases cancelling.there with ⟨o, there⟩
    rcases quiet.orders _ o there with ⟨o', there', -⟩
    exact ⟨o', there'⟩
  covers := fun rows read => (cancelling.covers rows read).quiet quiet

theorem AtHand.quiet {pc : Pc} (known : AtHand b pc) (quiet : Quiet b b') : AtHand b' pc := by
  cases pc with
  | broadcast | settle | reconcile => exact quiet.hashed known
  | _ => exact known

theorem Exposure.at_hand {pc : Pc} (inv : Exposure s) (at_ : s.worker = pc) : AtHand s.book pc :=
  at_ ▸ inv.worker

/-- A step that is quiet on the book and adds nothing that is not accounted for. -/
theorem Exposure.quiet (inv : Exposure s) (quiet : Quiet s.book s'.book)
    (published : ∀ i ∈ s'.published, i ∈ s.published ∨ Hashed s.book i)
    (worker : AtHand s.book s'.worker)
    (answers : ∀ h, (h, false) ∈ s'.answers → (h, false) ∈ s.answers ∨ Dead s'.book h)
    (cancels : ∀ cancel ∈ s'.cancels, cancel ∈ s.cancels ∨ Cancelling s.book cancel) :
    Exposure s' where
  moved := quiet.moved inv.moved
  published := by
    intro i mem
    rcases published i mem with mem | known
    · exact quiet.hashed (inv.published i mem)
    · exact quiet.hashed known
  worker := worker.quiet quiet
  answers := by
    intro h mem
    rcases answers h mem with mem | dead
    · exact (inv.answers h mem).quiet quiet
    · exact dead
  cancels := by
    intro cancel mem
    rcases cancels cancel mem with mem | cancelling
    · exact (inv.cancels cancel mem).quiet quiet
    · exact cancelling.quiet quiet

/-! ### Careful steps -/

/-- A job is claimed when neither of its orders is cancelled, and no running DELETE of one has
read its jobs without it; a DELETE commits when the jobs it read as never signed have not been
signed, unless they are in flight. -/
def Careful (s : State) : Event → Prop
  | .claimed _ => ∀ (i : Nat) (job : Job), s.worker = .preflight i →
      s.book.jobs[i]? = some job → job.status = .pending → ∀ h, job.touches h = true →
        (∀ o, s.book.orders h = some o → o.cancelled = false) ∧
        ∀ cancel ∈ s.cancels, cancel.orderHash = h → ∀ rows, cancel.jobs = some rows →
          ∃ seen, (i, seen) ∈ rows
  | .deleteCommitted i => ∀ cancel rows, s.cancels[i]? = some cancel →
      cancel.jobs = some rows → ∀ (k : Nat) (seen job : Job), (k, seen) ∈ rows →
        seen.status = .pending → seen.txHashes = [] → s.book.jobs[k]? = some job →
          job.txHashes = [] ∨ job.status.inFlight = true
  | _ => True

/-- The claim of a job whose orders are live, and that running DELETEs know of. -/
theorem Exposure.claimed {txHash : Bytes32} {book : Book} (inv : Exposure s)
    (careful : Careful s (.claimed txHash)) (at_ : s.worker = .preflight i)
    (claims : s.book.claim i txHash = some book) :
    Exposure { s with book, worker := .broadcast i } := by
  unfold Book.claim at claims
  split at claims
  · next job found =>
    rw [Option.ite_none_right_eq_some] at claims
    rcases claims with ⟨pending, claims⟩
    cases claims
    have careful := careful i job at_ found pending
    have other : ∀ k, k ≠ i → ∀ job', (s.book.setJob i fun job => { job with
        status := .sending, txHashes := job.txHashes ++ [txHash] }).jobs[k]? = some job' ↔
          s.book.jobs[k]? = some job' := by
      intro k apart job'
      simp [Book.setJob, Ne.symm apart]
    have itself : (s.book.setJob i fun job => { job with
        status := .sending, txHashes := job.txHashes ++ [txHash] }).jobs[i]? =
          some { job with status := .sending, txHashes := job.txHashes ++ [txHash] } := by
      simp [Book.setJob, found]
    have hashed : Hashed (s.book.setJob i fun job => { job with
        status := .sending, txHashes := job.txHashes ++ [txHash] }) i :=
      ⟨_, itself, by simp⟩
    have keeps : ∀ k, Hashed s.book k → Hashed (s.book.setJob i fun job => { job with
        status := .sending, txHashes := job.txHashes ++ [txHash] }) k := by
      intro k known
      by_cases same : k = i
      · exact same ▸ hashed
      · rcases known with ⟨job', there, known⟩
        exact ⟨job', (other k same job').mpr there, known⟩
    refine ⟨?_, fun k mem => keeps k (inv.published k mem), hashed, ?_, ?_⟩
    · intro k job' there status
      by_cases same : k = i
      · subst same
        cases itself.symm.trans there
        simp
      · exact inv.moved k job' ((other k same job').mp there) status
    · intro h mem
      have dead := inv.answers h mem
      refine ⟨dead.cancelled, fun k job' there touches => ?_⟩
      by_cases same : k = i
      · subst same
        cases itself.symm.trans there
        rcases dead.cancelled with ⟨o, there, cancelled⟩
        rw [(careful h touches).1 o there] at cancelled
        cases cancelled
      · exact dead.unsigned k job' ((other k same job').mp there) touches
    · intro cancel mem
      have cancelling := inv.cancels cancel mem
      refine ⟨cancelling.there, fun rows read => ?_⟩
      have covers := cancelling.covers rows read
      constructor
      · intro k job' there touches known
        by_cases same : k = i
        · subst same
          cases itself.symm.trans there
          exact (careful _ touches).2 cancel mem rfl rows read
        · exact covers.listed k job' ((other k same job').mp there) touches known
      · intro k seen listed unsigned ended
        rcases covers.ended k seen listed unsigned ended with ⟨old, there, still, finished⟩
        by_cases same : k = i
        · subst same
          cases found.symm.trans there
          rw [pending] at finished
          cases finished
        · exact ⟨old, (other k same old).mpr there, still, finished⟩
  · cases claims

/-- A DELETE reads its jobs. -/
theorem Covers.read : Covers b h (b.jobsOf h) := by
  have mem : ∀ {i : Nat} {job : Job}, (i, job) ∈ b.jobsOf h ↔
      b.jobs[i]? = some job ∧ job.touches h = true := by
    intro i job
    simp [Book.jobsOf, List.mk_mem_zipIdx_iff_getElem?]
  constructor
  · intro i job there touches _
    exact ⟨job, mem.mpr ⟨there, touches⟩⟩
  · intro i seen listed unsigned ended
    exact ⟨seen, (mem.mp listed).1, unsigned, ended⟩

/-- What a DELETE that answers that nothing was exposed has read. -/
theorem exposed_false {order : Order} {rows : List (Nat × Job)} {seen : Job}
    (answer : exposed order rows = false) (mem : (i, seen) ∈ rows) :
    seen.txHashes = [] ∧
      (seen.status = .pending ∨ seen.status = .failed ∨ seen.status = .cancelled) := by
  simp only [exposed, Bool.or_eq_false_iff, List.any_eq_false, Bool.not_eq_true] at answer
  have row := answer.2 (i, seen) mem
  simp only [Bool.not_eq_false', List.isEmpty_iff, decide_eq_false_iff_not, not_or] at row
  refine ⟨row.1, ?_⟩
  cases status : seen.status <;> simp_all

/-- A DELETE that answers that no cancel on the chain is needed leaves its order dead. -/
theorem Cancelling.commit {order : Order} {rows : List (Nat × Job)}
    (cancelling : Cancelling b ⟨h, order, some rows⟩)
    (careful : ∀ (k : Nat) (seen job : Job), (k, seen) ∈ rows → seen.status = .pending →
      seen.txHashes = [] → b.jobs[k]? = some job →
        job.txHashes = [] ∨ job.status.inFlight = true)
    (answer : (Cancel.commit b ⟨h, order, some rows⟩ rows).2 = false) :
    Dead (Cancel.commit b ⟨h, order, some rows⟩ rows).1 h := by
  simp only [Cancel.commit, Bool.or_eq_false_iff, Bool.not_eq_false', List.isEmpty_iff]
    at answer ⊢
  have quiet : Quiet (b.cancelOrder h) (rollbacks (b.cancelOrder h) rows).1 := quiet_rollbacks
  constructor
  · rcases cancelling.there with ⟨o, there⟩
    have now : (b.cancelOrder h).orders h = some { o with cancelled := true } := by
      simp only [Book.cancelOrder, Book.setOrder, Function.update_self]
      rw [there, Option.map_some]
    rcases quiet.orders h _ now with ⟨o', there', still⟩
    exact ⟨o', there', still rfl⟩
  · intro k job' there touches
    by_contra hashed
    rcases (quiet_cancelOrder.trans quiet).unhashed k job' there hashed with
      ⟨job, there, known, taker, maker⟩
    have covers := cancelling.covers rows rfl
    rcases covers.listed k job there (touches_congr taker maker ▸ touches) known with
      ⟨seen, mem⟩
    have ⟨unsigned, status⟩ := exposed_false answer.1 mem
    rcases status with pending | ended
    · rcases careful k seen job mem pending unsigned there with still | flying
      · exact known still
      · exact rollbacks_finds mem pending (b := b.cancelOrder h) there flying answer.2
    · have terminal : seen.status.terminal = true := by
        rcases ended with ended | ended <;> rw [ended] <;> rfl
      rcases covers.ended k seen mem unsigned terminal with ⟨old, same, still, -⟩
      cases there.symm.trans same
      exact known still

/-! ### Steps -/

/-- A step that is quiet on the book and moves the worker. -/
theorem Exposure.turn {book : Book} {posts : List Post} {pc : Pc} (inv : Exposure s)
    (quiet : Quiet s.book book) (known : AtHand s.book pc) :
    Exposure { s with book, posts, worker := pc } :=
  inv.quiet quiet (fun _ => .inl) known (fun _ => .inl) fun _ => .inl

theorem Exposure.post {book : Book} {posts : List Post} (inv : Exposure s)
    (quiet : Quiet s.book book) : Exposure { s with book, posts } :=
  inv.turn quiet inv.worker

theorem Exposure.giveUp {expected status : Status} {reasons : List Reason} {onchain : Side → Int}
    (inv : Exposure s) (ends : status = .failed ∨ status = .cancelled) :
    Exposure (giveUp s i expected status reasons onchain) := by
  unfold CancelRuns.giveUp
  split
  · next rolled _ =>
    exact inv.turn ((quiet_rollbackJob ends rolled).trans quiet_retireFailedSide) trivial
  · exact inv.turn .refl trivial

theorem exposure_post {event : Event} (inv : Exposure s) (taken : postStep s event = some s') :
    Exposure s' := by
  cases event with
  | posted h order =>
      simp only [postStep, Option.ite_none_right_eq_some, Option.some.injEq] at taken
      rcases taken with ⟨-, rfl⟩
      exact inv.post .refl
  | matched k makerHash qty =>
      simp only [postStep] at taken
      split at taken
      · rw [Option.ite_none_right_eq_some] at taken
        rcases taken with ⟨-, taken⟩
        cases taken
        exact inv.post .refl
      · cases taken
  | postCommitted k =>
      simp only [postStep] at taken
      split at taken
      · next post _ =>
        split at taken
        · cases taken
          exact inv.post .refl
        · next unique =>
          cases taken
          refine inv.post (quiet_postCommit fun inserts => ?_)
          rw [inserts, Bool.true_and, Option.not_isSome_iff_eq_none] at unique
          exact unique
      · cases taken
  | postDied k =>
      cases taken
      exact inv.post .refl
  | _ => cases taken

theorem exposure_cancel {event : Event} (inv : Exposure s) (careful : Careful s event)
    (taken : cancelStep s event = some s') : Exposure s' := by
  cases event with
  | deleting h =>
      simp only [cancelStep] at taken
      split at taken
      · next order there =>
        cases taken
        refine inv.quiet .refl (fun _ => .inl) inv.worker (fun _ => .inl) fun cancel mem => ?_
        rcases List.mem_append.mp mem with mem | mem
        · exact .inl mem
        · cases List.mem_singleton.mp mem
          exact .inr ⟨⟨order, there⟩, by rintro _ ⟨⟩⟩
      · cases taken
  | jobsRead k =>
      simp only [cancelStep] at taken
      split at taken
      · next h order found =>
        cases taken
        refine inv.quiet .refl (fun _ => .inl) inv.worker (fun _ => .inl) fun cancel mem => ?_
        rcases List.mem_or_eq_of_mem_set mem with mem | rfl
        · exact .inl mem
        · have cancelling := inv.cancels _ (List.mem_of_getElem? found)
          exact .inr ⟨cancelling.there, by rintro _ ⟨⟩; exact .read⟩
      · cases taken
  | deleteCommitted k =>
      simp only [cancelStep] at taken
      split at taken
      · next h order rows found =>
        cases taken
        have cancelling := inv.cancels _ (List.mem_of_getElem? found)
        refine inv.quiet (quiet_cancelOrder.trans quiet_rollbacks) (fun _ => .inl) inv.worker
          (fun other mem => ?_) fun cancel mem => .inl (List.mem_of_mem_eraseIdx mem)
        rcases List.mem_append.mp mem with mem | mem
        · exact .inl mem
        · simp only [List.mem_singleton, Prod.mk.injEq] at mem
          rcases mem with ⟨rfl, answer⟩
          exact .inr (cancelling.commit (careful _ rows found rfl) answer.symm)
      · cases taken
  | deleteDied k =>
      cases taken
      exact inv.quiet .refl (fun _ => .inl) inv.worker (fun _ => .inl)
        fun cancel mem => .inl (List.mem_of_mem_eraseIdx mem)
  | _ => cases taken

theorem exposure_worker {event : Event} (inv : Exposure s) (careful : Careful s event)
    (taken : workerStep s event = some s') : Exposure s' := by
  cases event with
  | picked k =>
      simp only [workerStep] at taken
      split at taken
      · next job _ found =>
        split at taken
        · cases taken
          exact inv.turn .refl trivial
        · rw [Option.ite_none_right_eq_some] at taken
          rcases taken with ⟨flying, taken⟩
          cases taken
          refine inv.turn .refl ⟨job, found, inv.moved k job found ?_⟩
          cases status : job.status <;> simp_all [RelayNonces.Status.inFlight]
      · cases taken
  | landed =>
      simp only [workerStep] at taken
      split at taken
      · next k _ =>
        split at taken
        · next job found =>
          rw [Option.ite_none_left_eq_some] at taken
          rcases taken with ⟨known, taken⟩
          cases taken
          exact inv.turn (quiet_setStatus (.inl ⟨job, found, known⟩)) trivial
        · cases taken
      · cases taken
  | ordersRead =>
      simp only [workerStep] at taken
      split at taken
      · split at taken
        · split at taken
          · cases taken
            exact inv.turn .refl trivial
          · cases taken
            exact inv.turn .refl (.inr rfl)
        · cases taken
      · cases taken
  | refused reasons =>
      simp only [workerStep] at taken
      split at taken
      · cases taken
        exact inv.turn .refl (.inl rfl)
      · cases taken
  | claimed txHash =>
      simp only [workerStep] at taken
      split at taken
      · next k at_ =>
        split at taken
        · next book claims =>
          cases taken
          exact inv.claimed careful at_ claims
        · cases taken
          exact inv.turn .refl trivial
      · cases taken
  | answered reached | rebroadcast reached =>
      simp only [workerStep] at taken
      split at taken
      · next k at_ =>
        cases taken
        have known : Hashed s.book k := inv.at_hand at_
        refine inv.quiet .refl (fun i mem => ?_) known (fun _ => .inl) fun _ => .inl
        simp only at mem
        split at mem
        · rcases List.mem_append.mp mem with mem | mem
          · exact .inl mem
          · cases List.mem_singleton.mp mem
            exact .inr known
        · exact .inl mem
      · cases taken
  | bumped txHash =>
      simp only [workerStep] at taken
      split at taken
      · next k at_ =>
        cases taken
        have known : Hashed s.book k := inv.at_hand at_
        refine inv.turn (quiet_setJob (fun _ => ⟨rfl, rfl⟩) fun job there => .inl ?_) known
        rcases known with ⟨other, found, hashed⟩
        cases there.symm.trans found
        exact ⟨hashed, by simp⟩
      · cases taken
  | settled write reasons onchain =>
      simp only [workerStep] at taken
      split at taken
      rotate_right
      · cases taken
      all_goals
        next k at_ =>
          have known : Hashed s.book k := inv.at_hand at_
          split at taken
          · cases taken
            exact inv.turn .refl trivial
          · cases taken
            exact inv.turn (quiet_setStatus (.inl known)) trivial
          · cases taken
            exact inv.turn (quiet_setStatus (.inl known)) trivial
          · cases taken
            exact inv.turn (quiet_setStatus (.inl known)) trivial
          · cases taken
            exact inv.giveUp (.inl rfl)
          · cases taken
  | gaveUp onchain =>
      simp only [workerStep] at taken
      split at taken
      · next k status reasons at_ =>
        cases taken
        exact inv.giveUp (inv.at_hand at_)
      · cases taken
  | dropped =>
      cases taken
      exact inv.turn .refl trivial
  | _ => cases taken

/-- A careful step keeps the invariant. -/
theorem exposure_step {event : Event} (inv : Exposure s) (careful : Careful s event)
    (taken : step s event = some s') : Exposure s' := by
  unfold step at taken
  split at taken
  · exact exposure_post inv taken
  · exact exposure_post inv taken
  · exact exposure_post inv taken
  · exact exposure_post inv taken
  · exact exposure_cancel inv careful taken
  · exact exposure_cancel inv careful taken
  · exact exposure_cancel inv careful taken
  · exact exposure_cancel inv careful taken
  · exact exposure_worker inv careful taken

theorem Exposure.initially : Exposure .initial where
  moved := by intro i job there; simp [State.initial] at there
  published := by intro i mem; cases mem
  worker := trivial
  answers := by intro h mem; cases mem
  cancels := by intro cancel mem; cases mem

/-- No order whose cancel was answered without a cancel on the chain is in a published match. -/
def Reported (s : State) : Prop :=
  ∀ h, (h, false) ∈ s.answers → ∀ i ∈ s.published, ∀ job, s.book.jobs[i]? = some job →
    job.touches h = false

theorem Exposure.reported (inv : Exposure s) : Reported s := by
  intro h answered i mem job there
  rcases inv.published i mem with ⟨other, found, hashed⟩
  cases there.symm.trans found
  rw [← Bool.not_eq_true]
  exact fun touches => hashed ((inv.answers h answered).unsigned i job there touches)

/-- In a run of careful steps a cancel never under-reports exposure. -/
theorem cancel_never_underreports {events : List Event}
    (path : Run (fun s event s' => Careful s event ∧ step s event = some s') .initial events s) :
    Reported s :=
  (path.invariant Exposure.initially fun _ _ _ inv taken =>
    exposure_step inv taken.1 taken.2).reported

/-! ### A match between the read and the answer -/

def sampleOrder (maker : OverUnder.Vyper.Address) (isBuy : Bool) : Order where
  id := 0
  maker := maker
  conditionId := 1
  isBuy := isBuy
  outcome := 0
  price := 500000
  amount := 100
  filled := 0
  expiry := 2000000000
  cancelled := false

/-- The jobs of order 7 are read before order 8 matches it; the match is sent before the
answer. -/
def Event.raced : List Event :=
  [.posted 7 (sampleOrder 1 false), .postCommitted 0, .deleting 7, .jobsRead 0,
    .posted 8 (sampleOrder 2 true), .matched 0 7 100, .postCommitted 0,
    .picked 0, .ordersRead, .claimed 99, .answered true, .deleteCommitted 0]

/-- The cancel of order 7 is answered as if it had never been published. -/
theorem cancel_underreports : ∃ s : State,
    Run (fun s event s' => step s event = some s') .initial Event.raced s ∧ ¬ Reported s := by
  have ends : (Event.raced.foldlM step State.initial).map (fun s =>
      decide ((7, false) ∈ s.answers ∧ 0 ∈ s.published) &&
        (s.book.jobs[0]?).any fun job => job.touches 7) = some true := by decide +kernel
  rw [Option.map_eq_some_iff] at ends
  rcases ends with ⟨s, ran, found⟩
  simp only [Bool.and_eq_true, decide_eq_true_eq, Option.any_eq_true] at found
  rcases found with ⟨⟨answered, published⟩, job, there, touches⟩
  refine ⟨s, Run.of_foldlM (fun _ _ _ taken => taken) ran, fun reported => ?_⟩
  rw [reported 7 answered 0 published job there] at touches
  cases touches

/-- Orders 7 and 10 are matched. A DELETE of each reads its pending job, the worker sends the match
of order 10, and both DELETEs commit: order 7's rolls its job back. -/
def Event.quietly : List Event :=
  [.posted 7 (sampleOrder 1 false), .postCommitted 0,
    .posted 8 (sampleOrder 2 true), .matched 0 7 100, .postCommitted 0,
    .posted 10 (sampleOrder 1 false), .postCommitted 0,
    .posted 11 (sampleOrder 2 true), .matched 0 10 100, .postCommitted 0,
    .deleting 7, .jobsRead 0, .deleting 10, .jobsRead 1,
    .picked 1, .ordersRead, .claimed 99, .answered true,
    .deleteCommitted 0, .deleteCommitted 0]

/-- A claim is of live orders whose DELETEs have read the job, and the jobs that a committing
DELETE read are unsigned or in flight. -/
def Event.tame (s : State) : Event → Bool
  | .claimed _ =>
      match s.worker with
      | .preflight i => (s.book.jobs[i]?).all fun job =>
          [job.takerHash, job.makerHash].all fun h =>
            ((s.book.orders h).all fun o => !o.cancelled) &&
              s.cancels.all fun cancel => cancel.orderHash != h ||
                cancel.jobs.all fun rows => rows.any fun row => row.1 == i
      | _ => true
  | .deleteCommitted i => (s.cancels[i]?).all fun cancel => cancel.jobs.all fun rows =>
      rows.all fun row => (s.book.jobs[row.1]?).all fun job =>
        job.txHashes.isEmpty || job.status.inFlight
  | _ => true

theorem Event.tame_careful {event : Event} (tame : event.tame s = true) : Careful s event := by
  cases event with
  | claimed txHash =>
      intro i job at_ there _ h touches
      simp only [Event.tame, at_, there, Option.all_some, List.all_eq_true, List.mem_cons,
        List.not_mem_nil, or_false, Bool.and_eq_true, Bool.or_eq_true, bne_iff_ne] at tame
      have mine : h = job.takerHash ∨ h = job.makerHash := by
        rcases of_decide_eq_true touches with taker | maker
        · exact .inl taker.symm
        · exact .inr maker.symm
      rcases tame h mine with ⟨live, known⟩
      constructor
      · intro o found
        simpa [found] using live
      · intro cancel running same rows read
        rcases known cancel running with other | all
        · exact absurd same other
        · rw [read, Option.all_some, List.any_eq_true] at all
          rcases all with ⟨⟨k, seen⟩, mem, same⟩
          rw [beq_iff_eq] at same
          exact ⟨seen, same ▸ mem⟩
  | deleteCommitted i =>
      intro cancel rows found read k seen job mem _ _ there
      simp only [Event.tame, found, read, Option.all_some, List.all_eq_true] at tame
      have calm := tame _ mem
      rw [there, Option.all_some, Bool.or_eq_true, List.isEmpty_iff] at calm
      exact calm
  | _ => trivial

theorem cancel_never_underreports_quietly : ∃ s : State,
    (7, false) ∈ s.answers ∧ (10, true) ∈ s.answers ∧ s.published = [1] ∧
      s.book.jobs.map Job.status = [.cancelled, .sending] ∧ Reported s := by
  have ends : (Event.quietly.foldlM (fun (s : State) (event : Event) =>
      if event.tame s then step s event else none) State.initial).map
        (fun s => decide ((7, false) ∈ s.answers ∧ (10, true) ∈ s.answers ∧ s.published = [1] ∧
          s.book.jobs.map Job.status = [.cancelled, .sending])) = some true := by
    decide +kernel
  rw [Option.map_eq_some_iff] at ends
  rcases ends with ⟨s, ran, reached⟩
  rcases of_decide_eq_true reached with ⟨quiet, loud, published, statuses⟩
  have path : Run (fun s event s' => Careful s event ∧ step s event = some s')
      State.initial Event.quietly s :=
    .of_tested (fun _ _ => Event.tame_careful) ran
  exact ⟨s, quiet, loud, published, statuses, cancel_never_underreports path⟩

end OverUnder.Backend.CancelRuns
