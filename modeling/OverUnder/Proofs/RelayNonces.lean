/-
Module: OverUnder.Proofs.RelayNonces
Purpose: No two in-flight records of the relayer key hold one nonce, as long as the
  worker never reserves below a record that went in flight after it read its nonce
  floor, and no duplicate request puts a settled row back in flight. The floor is
  read before the lock is taken, so a run exists that signs one nonce twice.
Trusted boundary: none
Main exports: Careful, Guarded, Guarded.step, in_flight_nonces_unique, nonce_held_twice
-/
import OverUnder.Backend.RelayNonces
import OverUnder.Library.Reachable

namespace OverUnder.Backend.RelayNonces

open OverUnder.Library

/-! ### Careful steps -/

def CoveredBy (bound : Option Nat) (m : Nat) : Prop := ∃ f ∈ bound, m < f

/-- The nonces of the records in flight. -/
def State.heldNonces (s : State) : List Nat :=
  s.jobs.filterMap Job.held ++ s.distributions.filterMap Distribution.held

/-- The floor the worker reserves with still covers every nonce in flight, or the cached
counter does; and a duplicate request marks a row sent only while it is in flight. -/
def Careful (s : State) : Event → Prop
  | .worker (.reserved _) =>
      match s.worker with
      | .reserve _ floor =>
          ∀ m ∈ s.heldNonces, CoveredBy floor m ∨ CoveredBy s.manager.next m
      | _ => True
  | .request i .committed =>
      match s.requests[i]?.map Request.pc with
      | some (.markSent _ row) =>
          s.distributions[row]?.map (fun d => d.status.inFlight) = some true
      | _ => True
  | _ => True

instance decidableCoveredBy (bound : Option Nat) (m : Nat) : Decidable (CoveredBy bound m) :=
  inferInstanceAs (Decidable (∃ f ∈ bound, m < f))

instance decidableCareful (s : State) (event : Event) : Decidable (Careful s event) := by
  unfold Careful
  split
  · split <;> infer_instance
  · split <;> infer_instance
  · infer_instance

/-- One step, and the careful ones among them. -/
def Step (s : State) (event : Event) (next : State) : Prop := step s event = some next

structure CarefulStep (s : State) (event : Event) (next : State) : Prop where
  careful : Careful s event
  taken : step s event = some next

/-! ### The invariant -/

/-- No two records hold one nonce. -/
def Unique (s : State) : Prop :=
  ∀ id id' n, s.held id = some n → s.held id' = some n → id = id'

/-- Every nonce in flight is below `n`. -/
def Above (s : State) (n : Nat) : Prop := ∀ id m, s.held id = some m → m < n

def Flying (s : State) (id : Nat) : Prop :=
  ∃ job, s.jobs[id]? = some job ∧ job.status.inFlight = true

/-- What the worker relies on. -/
def WorkerKnows (s : State) : WorkerPc → Prop
  | .reserve id _ => id < s.jobs.length
  | .record id n => id < s.jobs.length ∧ Above s n
  | .broadcast id _ | .resync id _ | .consumed id | .enterResync id _ | .lockedResync id _
  | .commit id _ => Flying s id
  | .idle | .floorJobs _ | .floorDistributions .. | .enter .. | .claim .. => True

/-- The row is the one this request recorded with nonce `n`. -/
structure Owns (s : State) (row n : Nat) : Prop where
  recorded : s.distributions[row]?.map Distribution.nonce = some n
  above : ∀ id m, id ≠ .distribution row → s.held id = some m → m < n

/-- What a request relies on, all of it while it holds the lock. -/
def RequestKnows (s : State) : RequestPc → Prop
  | .floorDistributions top => ∀ id m, s.held (.job id) = some m → ∃ t ∈ top, m ≤ t
  | .reserve floor => ∀ id m, s.held id = some m → CoveredBy floor m
  | .record n => Above s n
  | .broadcast row n | .store row n _ => Owns s row n
  | .refresh .. | .estimate | .enter | .floorJobs | .resync _ | .earlier _ | .rebroadcast ..
  | .markSent .. | .finished => True

structure Guarded (s : State) : Prop where
  unique : Unique s
  workerLock : s.worker.holds = true → s.lock = some .worker
  requestLock : ∀ (i : Nat) (r : Request), s.requests[i]? = some r → r.pc.holds = true →
    s.lock = some (.request i)
  worker : WorkerKnows s s.worker
  requests : ∀ (i : Nat) (r : Request), s.requests[i]? = some r → RequestKnows s r.pc

variable {s t next : State} {pc : WorkerPc} {rpc : RequestPc} {i row n m : Nat} {id : RecordId}
  {request : Request}

theorem Guarded.initial : Guarded initial := by
  constructor
  · intro id id' n held
    cases id <;> cases held
  · intro holds
    cases holds
  · intro i r here
    cases here
  · trivial
  · intro i r here
    cases here

/-! ### Tables in which nothing new is in flight -/

/-- Nothing new is in flight, and every distribution keeps its nonce. -/
structure Shrinks (s t : State) : Prop where
  jobs : s.jobs.length ≤ t.jobs.length
  held : ∀ id m, t.held id = some m → s.held id = some m
  nonces : ∀ (row n : Nat), s.distributions[row]?.map Distribution.nonce = some n →
    t.distributions[row]?.map Distribution.nonce = some n

theorem Shrinks.of_same (jobs : t.jobs = s.jobs)
    (distributions : t.distributions = s.distributions) :
    Shrinks s t := by
  constructor
  · rw [jobs]
  · intro id m held
    cases id with
    | job id =>
        simp only [State.held, jobs] at held ⊢
        exact held
    | distribution id =>
        simp only [State.held, distributions] at held ⊢
        exact held
  · intro row n recorded
    rw [distributions]
    exact recorded

theorem Unique.shrinks (unique : Unique s) (fewer : Shrinks s t) : Unique t :=
  fun id id' n held held' => unique id id' n (fewer.held _ _ held) (fewer.held _ _ held')

theorem Above.shrinks (above : Above s n) (fewer : Shrinks s t) : Above t n :=
  fun id m held => above id m (fewer.held id m held)

theorem RequestKnows.shrinks (knows : RequestKnows s rpc) (fewer : Shrinks s t) :
    RequestKnows t rpc := by
  cases rpc with
  | floorDistributions top => exact fun id m held => knows id m (fewer.held _ _ held)
  | reserve floor => exact fun id m held => knows id m (fewer.held _ _ held)
  | record n => exact Above.shrinks knows fewer
  | broadcast row n =>
      exact ⟨fewer.nonces _ _ knows.recorded,
        fun id m other held => knows.above id m other (fewer.held _ _ held)⟩
  | store row n status =>
      exact ⟨fewer.nonces _ _ knows.recorded,
        fun id m other held => knows.above id m other (fewer.held _ _ held)⟩
  | refresh | estimate | enter | floorJobs | resync | earlier | rebroadcast | markSent
  | finished => trivial

theorem WorkerKnows.shrinks (knows : WorkerKnows s pc) (fewer : Shrinks s t)
    (flying : ∀ id, Flying s id → Flying t id) : WorkerKnows t pc := by
  cases pc with
  | reserve id floor => exact Nat.lt_of_lt_of_le knows fewer.jobs
  | record id n => exact ⟨Nat.lt_of_lt_of_le knows.1 fewer.jobs, Above.shrinks knows.2 fewer⟩
  | broadcast | resync | consumed | enterResync | lockedResync | commit => exact flying _ knows
  | idle | floorJobs | floorDistributions | enter | claim => trivial

/-- A request without the lock relies on nothing. -/
theorem RequestKnows.of_free (free : rpc.holds = false) : RequestKnows s rpc := by
  cases rpc with
  | floorDistributions | reserve | record | broadcast | store => cases free
  | refresh | estimate | enter | floorJobs | resync | earlier | rebroadcast | markSent
  | finished => trivial

/-! ### Moving one of the senders on -/

/-- `t` has the senders and the lock of `s`. -/
structure SameSenders (s t : State) : Prop where
  lock : t.lock = s.lock
  worker : t.worker = s.worker
  requests : t.requests = s.requests

theorem Guarded.request_free (inv : Guarded s) (here : s.requests[i]? = some request)
    (other : s.lock ≠ some (.request i)) : request.pc.holds = false := by
  by_contra holds
  exact other (inv.requestLock i request here (by simpa using holds))

theorem Guarded.toWorker (inv : Guarded s) (same : SameSenders s t) (unique : Unique t)
    (may : pc.holds = true → s.lock = none ∨ s.worker.holds = true) (knows : WorkerKnows t pc)
    (others : ∀ (i : Nat) (r : Request), s.requests[i]? = some r → RequestKnows t r.pc) :
    Guarded (t.toWorker pc) := by
  constructor
  · exact unique
  · intro holds
    exact if_pos holds
  · intro i r here holds
    have here' : s.requests[i]? = some r := by
      rw [← same.requests]
      exact here
    have theirs := inv.requestLock i r here' holds
    have no_worker : s.worker.holds = false := by
      by_contra mine
      have lock := inv.workerLock (by simpa using mine)
      rw [theirs] at lock
      cases lock
    have no_entry : pc.holds = false := by
      by_contra mine
      rcases may (by simpa using mine) with free | mine
      · rw [theirs] at free
        cases free
      · rw [no_worker] at mine
        cases mine
    simp only [State.toWorker, no_entry, same.worker, no_worker, same.lock, Bool.false_eq_true,
      if_false]
    exact theirs
  · exact knows
  · intro i r here
    have here' : s.requests[i]? = some r := by
      rw [← same.requests]
      exact here
    exact (others i r here').shrinks (.of_same rfl rfl)

theorem Guarded.toRequest (inv : Guarded s) (same : SameSenders s t) (unique : Unique t)
    (here : s.requests[i]? = some request)
    (may : rpc.holds = true → s.lock = none ∨ request.pc.holds = true)
    (worker : WorkerKnows t s.worker) (knows : RequestKnows t rpc)
    (others : ∀ (j : Nat) (r : Request), j ≠ i → s.requests[j]? = some r → RequestKnows t r.pc) :
    Guarded (t.toRequest i request rpc) := by
  -- The lock stays with whoever else has it.
  have kept : ∀ owner, owner ≠ .request i → s.lock = some owner →
      (t.toRequest i request rpc).lock = some owner := by
    intro owner other theirs
    have not_mine : request.pc.holds = false := by
      apply inv.request_free here
      rw [theirs]
      exact fun eq => other (Option.some.inj eq)
    have no_entry : rpc.holds = false := by
      by_contra mine
      rcases may (by simpa using mine) with free | mine
      · rw [theirs] at free
        cases free
      · rw [not_mine] at mine
        cases mine
    simp only [State.toRequest, no_entry, not_mine, same.lock, Bool.false_eq_true, if_false]
    exact theirs
  have moved : ∀ (j : Nat) (r : Request),
      (t.toRequest i request rpc).requests[j]? = some r →
      j = i ∧ r.pc = rpc ∨ j ≠ i ∧ s.requests[j]? = some r := by
    intro j r there
    simp only [State.toRequest, same.requests, List.getElem?_set] at there
    by_cases mine : i = j
    · subst mine
      rw [if_pos rfl] at there
      split at there
      · cases there
        exact .inl ⟨rfl, rfl⟩
      · cases there
    · rw [if_neg mine] at there
      exact .inr ⟨Ne.symm mine, there⟩
  constructor
  · exact unique
  · intro holds
    have holds' : s.worker.holds = true := by
      rw [← same.worker]
      exact holds
    exact kept .worker (by simp) (inv.workerLock holds')
  · intro j r there holds
    rcases moved j r there with ⟨rfl, rfl⟩ | ⟨other, there⟩
    · exact if_pos holds
    · exact kept (.request j) (fun eq => other (Owner.request.inj eq))
        (inv.requestLock j r there holds)
  · change WorkerKnows t t.worker
    rw [same.worker]
    exact worker
  · intro j r there
    rcases moved j r there with ⟨rfl, rfl⟩ | ⟨other, there⟩
    · exact knows.shrinks (.of_same rfl rfl)
    · exact (others j r other there).shrinks (.of_same rfl rfl)

/-- A move over tables in which nothing new is in flight. -/
theorem Guarded.worker_moves (inv : Guarded s) (same : SameSenders s t) (fewer : Shrinks s t)
    (may : pc.holds = true → s.lock = none ∨ s.worker.holds = true) (knows : WorkerKnows t pc) :
    Guarded (t.toWorker pc) :=
  inv.toWorker same (inv.unique.shrinks fewer) may knows
    fun i r here => (inv.requests i r here).shrinks fewer

theorem Guarded.request_moves (inv : Guarded s) (same : SameSenders s t) (fewer : Shrinks s t)
    (jobs : t.jobs = s.jobs) (here : s.requests[i]? = some request)
    (may : rpc.holds = true → s.lock = none ∨ request.pc.holds = true)
    (knows : RequestKnows t rpc) : Guarded (t.toRequest i request rpc) := by
  apply inv.toRequest same (inv.unique.shrinks fewer) here may _ knows
  · exact fun j r _ there => (inv.requests j r there).shrinks fewer
  · apply inv.worker.shrinks fewer
    intro id flying
    unfold Flying
    rw [jobs]
    exact flying

/-! ### Updates of the tables -/

theorem Job.held_pending {job : Job} (idle : job.status.inFlight = false) : job.held = none := by
  simp [Job.held, idle]

theorem held_job {job : Job} {k : Nat} (here : s.jobs[k]? = some job) :
    s.held (.job k) = job.held := by
  simp [State.held, here]

theorem held_setJob {k : Nat} {job : Job} (held : (s.setJob k job).held id = some m) :
    id = .job k ∧ job.held = some m ∨ id ≠ .job k ∧ s.held id = some m := by
  cases id with
  | distribution id => exact .inr ⟨by simp, held⟩
  | job id =>
      simp only [State.held, State.setJob, List.getElem?_set] at held
      by_cases same : k = id
      · subst same
        rw [if_pos rfl] at held
        split at held
        · exact .inl ⟨rfl, held⟩
        · cases held
      · rw [if_neg same] at held
        exact .inr ⟨fun eq => same (RecordId.job.inj eq).symm, held⟩

theorem Shrinks.setJob {k : Nat} {job job' : Job} (here : s.jobs[k]? = some job)
    (less : job'.held = none ∨ job'.held = job.held) : Shrinks s (s.setJob k job') := by
  constructor
  · simp [State.setJob]
  · intro id m held
    rcases held_setJob held with ⟨rfl, mine⟩ | ⟨-, held⟩
    · rw [held_job here]
      rcases less with none | same
      · rw [none] at mine
        cases mine
      · rw [← same]
        exact mine
    · exact held
  · exact fun row n recorded => recorded

theorem Shrinks.enqueue : Shrinks s { s with jobs := s.jobs ++ [⟨.pending, none⟩] } := by
  constructor
  · simp
  · intro id m held
    cases id with
    | distribution id => exact held
    | job id =>
        simp only [State.held, List.getElem?_append, List.getElem?_singleton] at held
        split at held
        · exact held
        · split at held <;> cases held
  · exact fun row n recorded => recorded

theorem JobWrite.held_apply {job : Job} (write : JobWrite) (flying : job.status.inFlight = true) :
    (write.apply job).held = none ∨ (write.apply job).held = job.held := by
  cases write with
  | unchanged => exact .inr rfl
  | sent =>
      have up : (JobWrite.sent.apply job).status.inFlight = true := rfl
      apply Or.inr
      rw [Job.held, Job.held, if_pos up, if_pos flying]
      rfl
  | confirmed => exact .inl rfl
  | failed => exact .inl rfl
  | pending => exact .inl rfl

theorem Flying.setJob {k k' : Nat} {job job' : Job} (flying : Flying s k')
    (here : s.jobs[k]? = some job) (idle : job.status.inFlight = false) :
    Flying (s.setJob k job') k' := by
  rcases flying with ⟨other, there, up⟩
  have apart : k ≠ k' := by
    rintro rfl
    rw [here] at there
    cases there
    rw [idle] at up
    cases up
  refine ⟨other, ?_, up⟩
  simp only [State.setJob, List.getElem?_set_ne apart]
  exact there

/-- Distributions with other statuses, none of them newly in flight. -/
structure Settles (rows later : List Distribution) : Prop where
  held : ∀ (k m : Nat), (later[k]?.bind Distribution.held) = some m →
    (rows[k]?.bind Distribution.held) = some m
  nonces : ∀ (k n : Nat), rows[k]?.map Distribution.nonce = some n →
    later[k]?.map Distribution.nonce = some n

theorem Settles.refl (rows : List Distribution) : Settles rows rows :=
  ⟨fun _ _ held => held, fun _ _ recorded => recorded⟩

theorem Settles.trans {a b c : List Distribution} (first : Settles a b) (second : Settles b c) :
    Settles a c :=
  ⟨fun k m held => first.held k m (second.held k m held),
    fun k n recorded => second.nonces k n (first.nonces k n recorded)⟩

theorem Shrinks.settles {later : List Distribution} (settles : Settles s.distributions later) :
    Shrinks s { s with distributions := later } := by
  constructor
  · exact Nat.le_refl _
  · intro id m held
    cases id with
    | job id => exact held
    | distribution id => exact settles.held id m held
  · exact settles.nonces

theorem setStatus_nonce (rows : List Distribution) (write : Nat × Status) (k : Nat) :
    (setStatus rows write)[k]?.map Distribution.nonce = rows[k]?.map Distribution.nonce := by
  unfold setStatus
  split
  next d here =>
    by_cases same : write.1 = k
    · subst same
      rw [List.getElem?_set_self' , here]
      rfl
    · rw [List.getElem?_set_ne same]
  next => rfl

theorem setStatus_held (rows : List Distribution) (write : Nat × Status) (k : Nat) :
    ((setStatus rows write)[k]?.bind Distribution.held) =
      if write.1 = k then (if write.2.inFlight then rows[k]?.map Distribution.nonce else none)
      else (rows[k]?.bind Distribution.held) := by
  unfold setStatus
  split
  next d here =>
    by_cases same : write.1 = k
    · subst same
      rw [List.getElem?_set_self', here, if_pos rfl]
      rfl
    · rw [List.getElem?_set_ne same, if_neg same]
  next missing =>
    by_cases same : write.1 = k
    · subst same
      simp [missing]
    · rw [if_neg same]

/-- A settled status, or `sent` on a row in flight. -/
theorem Settles.setStatus {rows : List Distribution} {write : Nat × Status}
    (calm : write.2.inFlight = false ∨
      rows[write.1]?.map (fun d => d.status.inFlight) = some true) :
    Settles rows (RelayNonces.setStatus rows write) := by
  constructor
  · intro k m held
    rw [setStatus_held] at held
    by_cases same : write.1 = k
    · rw [if_pos same] at held
      rcases calm with settled | flying
      · rw [settled] at held
        cases held
      · rw [same] at flying
        split at held
        · simp only [Option.map_eq_some_iff] at flying held
          rcases flying with ⟨d, here, up⟩
          rcases held with ⟨d', here', rfl⟩
          rw [here] at here'
          cases here'
          simp [here, Distribution.held, up]
        · cases held
    · rw [if_neg same] at held
      exact held
  · intro k n recorded
    rw [setStatus_nonce]
    exact recorded

theorem Settles.foldl {writes : Writes} (settled : ∀ w ∈ writes, w.2.inFlight = false)
    (rows : List Distribution) : Settles rows (writes.foldl RelayNonces.setStatus rows) := by
  induction writes generalizing rows with
  | nil => exact .refl rows
  | cons w rest ih =>
      rw [List.foldl_cons]
      exact (Settles.setStatus (.inl (settled w (.head _)))).trans
        (ih (fun w later => settled w (.tail _ later)) _)

theorem Settles.commit {rows later : List Distribution} {writes : Writes}
    (settled : ∀ w ∈ writes, w.2.inFlight = false)
    (done : commitWrites rows writes = some later) : Settles rows later := by
  unfold commitWrites at done
  dsimp only at done
  split at done
  · cases done
    exact .foldl settled rows
  · cases done

theorem refreshWrites_settled {prior : List (Nat × Status)} {statuses : List Status}
    (fine : ((prior.zip statuses).all fun p => refreshes p.1.2 p.2) = true) :
    ∀ w ∈ refreshWrites prior statuses, w.2.inFlight = false := by
  intro w written
  simp only [refreshWrites, List.mem_filterMap] at written
  rcases written with ⟨⟨old, new⟩, here, written⟩
  have one := List.all_eq_true.mp fine _ here
  split at written
  · cases written
  · next changed =>
    cases written
    simp only [refreshes, Bool.or_eq_true, decide_eq_true_eq, changed, false_or,
      Bool.and_eq_true] at one
    rcases one.2 with rfl | rfl <;> rfl

/-! ### Floors -/

theorem le_max?_of_mem {l : List Nat} (here : m ∈ l) : ∃ top ∈ l.max?, m ≤ top := by
  rcases Option.isSome_iff_exists.mp (List.isSome_max?_of_mem here) with ⟨top, eq⟩
  exact ⟨top, eq, (List.max?_eq_some_iff.mp eq).2 m here⟩

theorem mem_heldNonces (held : s.held id = some m) : m ∈ s.heldNonces := by
  cases id with
  | job id =>
      simp only [State.held, Option.bind_eq_some_iff] at held
      rcases held with ⟨job, here, held⟩
      exact List.mem_append_left _ (List.mem_filterMap.mpr ⟨job, List.mem_of_getElem? here, held⟩)
  | distribution id =>
      simp only [State.held, Option.bind_eq_some_iff] at held
      rcases held with ⟨d, here, held⟩
      exact List.mem_append_right _ (List.mem_filterMap.mpr ⟨d, List.mem_of_getElem? here, held⟩)

theorem le_topJob {k : Nat} (held : s.held (.job k) = some m) : ∃ top ∈ s.topJob, m ≤ top := by
  simp only [State.held, Option.bind_eq_some_iff] at held
  rcases held with ⟨job, here, held⟩
  exact le_max?_of_mem (List.mem_filterMap.mpr ⟨job, List.mem_of_getElem? here, held⟩)

theorem le_topDistribution {k : Nat} (held : s.held (.distribution k) = some m) :
    ∃ top ∈ s.topDistribution, m ≤ top := by
  simp only [State.held, Option.bind_eq_some_iff] at held
  rcases held with ⟨d, here, held⟩
  exact le_max?_of_mem (List.mem_filterMap.mpr ⟨d, List.mem_of_getElem? here, held⟩)

theorem nonceFloor_covers {a b : Option Nat} (le : (∃ top ∈ a, m ≤ top) ∨ ∃ top ∈ b, m ≤ top) :
    CoveredBy (nonceFloor a b) m := by
  have inside : ∃ top ∈ a.toList ++ b.toList, m ≤ top := by
    rcases le with ⟨top, here, le⟩ | ⟨top, here, le⟩
    · exact ⟨top, List.mem_append_left _ (Option.mem_toList.mpr here), le⟩
    · exact ⟨top, List.mem_append_right _ (Option.mem_toList.mpr here), le⟩
  rcases inside with ⟨top, here, le⟩
  rcases le_max?_of_mem here with ⟨most, eq, le'⟩
  exact ⟨most + 1, Option.mem_map_of_mem (· + 1) eq, by omega⟩

/-- What `reserve` hands out is above everything its floor or its counter covers. -/
theorem reserve_above {nm nm' : NonceManager} {pending floor : Option Nat}
    (done : nm.reserve pending floor = some (n, nm'))
    (covered : CoveredBy floor m ∨ CoveredBy nm.next m) : m < n := by
  unfold NonceManager.reserve at done
  split at done
  · cases done
  next cached eq =>
    simp only [Option.some.injEq, Prod.mk.injEq] at done
    rcases covered with ⟨f, rfl, below⟩ | ⟨x, counter, below⟩
    · rw [← done.1]
      dsimp only
      split <;> omega
    · have same : x = cached := by
        rw [Option.mem_def.mp counter] at eq
        exact Option.some.inj eq
      subst same
      rw [← done.1]
      split
      · split <;> omega
      · exact below

/-! ### Steps of the worker -/

/-- A new nonce above all others, in the hands of the lock owner. -/
theorem Unique.add {k : RecordId} (unique : Unique s) (above : Above s n)
    (held : ∀ id m, t.held id = some m → id = k ∧ m = n ∨ s.held id = some m) : Unique t := by
  intro id id' m one two
  rcases held id m one with ⟨rfl, rfl⟩ | one <;> rcases held id' m two with ⟨rfl, eq⟩ | two
  · rfl
  · exact absurd (above id' m two) (Nat.lt_irrefl m)
  · subst eq
    exact absurd (above id m one) (Nat.lt_irrefl m)
  · exact unique id id' m one two

theorem Guarded.others_free (inv : Guarded s) (holds : s.worker.holds = true) (i : Nat)
    (r : Request) (here : s.requests[i]? = some r) : r.pc.holds = false := by
  apply inv.request_free here
  rw [inv.workerLock holds]
  exact fun eq => nomatch eq

theorem Guarded.recorded {k : Nat} (inv : Guarded s) (at_record : s.worker = .record k n) :
    Guarded ((s.setJob k ⟨.sending, some n⟩).toWorker (.broadcast k n)) := by
  have holds : s.worker.holds = true := by
    rw [at_record]
    rfl
  have knows := inv.worker
  rw [at_record] at knows
  rcases knows with ⟨inside, above⟩
  apply inv.toWorker (t := s.setJob k ⟨.sending, some n⟩) ⟨rfl, rfl, rfl⟩
  · apply inv.unique.add above
    intro id m held
    rcases held_setJob held with ⟨rfl, mine⟩ | ⟨-, held⟩
    · cases mine
      exact .inl ⟨rfl, rfl⟩
    · exact .inr held
  · exact fun _ => .inr holds
  · exact ⟨⟨.sending, some n⟩, List.getElem?_set_self inside, rfl⟩
  · exact fun i r here => .of_free (inv.others_free holds i r here)

/-- A move over the same tables, with any counter. -/
theorem Guarded.worker_turns (inv : Guarded s) {manager : NonceManager}
    (may : pc.holds = true → s.lock = none ∨ s.worker.holds = true) (knows : WorkerKnows s pc) :
    Guarded ({ s with manager }.toWorker pc) := by
  apply inv.worker_moves (t := { s with manager }) ⟨rfl, rfl, rfl⟩ (.of_same rfl rfl) may
  exact knows.shrinks (.of_same rfl rfl) fun id flying => flying

theorem WorkerKnows.of_flying {k : Nat} (flying : Flying s k)
    (job : pc = .resync k none ∨ (∃ write, pc = .resync k (some write)) ∨
      ∃ write, pc = .commit k write) : WorkerKnows s pc := by
  rcases job with rfl | ⟨write, rfl⟩ | ⟨write, rfl⟩ <;> exact flying

theorem workerAnswered_cases (k : Nat) (answer : Answer) :
    workerAnswered k answer = .resync k none ∨
      (∃ write, workerAnswered k answer = .resync k (some write)) ∨
      ∃ write, workerAnswered k answer = .commit k write := by
  rcases answer with _ | ⟨_ | _ | _ | _ | _ | _⟩ <;> simp [workerAnswered]

theorem Guarded.worker_step {event : WorkerEvent} (inv : Guarded s)
    (careful : Careful s (.worker event)) (done : workerStep s event = some next) :
    Guarded next := by
  have knows := inv.worker
  cases event with
  | send k =>
      simp only [workerStep] at done
      split at done
      · split at done
        · cases done
          exact inv.worker_turns (by rintro ⟨⟩) trivial
        · cases done
      · cases done
  | reconcile k write resyncs =>
      simp only [workerStep] at done
      split at done
      next job idle here =>
        split at done
        next flying =>
          cases done
          apply inv.worker_turns
          · cases resyncs <;> rintro ⟨⟩
          · cases resyncs <;> exact ⟨job, here, flying⟩
        next => cases done
      next => cases done
  | floorRead =>
      simp only [workerStep] at done
      split at done
      · cases done
        exact inv.worker_turns (by rintro ⟨⟩) trivial
      · cases done
        exact inv.worker_turns (by rintro ⟨⟩) trivial
      · cases done
  | entered =>
      simp only [workerStep] at done
      split at done
      next free =>
        split at done
        next k floor stands =>
          cases done
          exact inv.worker_turns (fun _ => .inl free) trivial
        next k write stands =>
          rw [stands] at knows
          cases done
          exact inv.worker_turns (fun _ => .inl free) knows
        next => cases done
      next => cases done
  | claimed =>
      simp only [workerStep] at done
      split at done
      next k floor stands =>
        split at done
        next pending =>
          cases done
          apply inv.worker_turns
          · exact fun _ => .inr (by rw [stands]; rfl)
          · simp only [Option.map_eq_some_iff] at pending
            rcases pending with ⟨job, here, -⟩
            exact (List.getElem?_eq_some_iff.mp here).1
        next =>
          cases done
          exact inv.worker_turns (by rintro ⟨⟩) trivial
      next => cases done
  | reserved pending =>
      simp only [workerStep] at done
      split at done
      next k floor stands =>
        rw [stands] at knows
        simp only [Careful, stands] at careful
        split at done
        next n manager reserved =>
          cases done
          apply inv.worker_turns
          · exact fun _ => .inr (by rw [stands]; rfl)
          · exact ⟨knows, fun id m held => reserve_above reserved (careful m (mem_heldNonces held))⟩
        next =>
          cases done
          exact inv.worker_turns (by rintro ⟨⟩) trivial
      next => cases done
  | unsigned =>
      simp only [workerStep] at done
      split at done
      · cases done
        exact inv.worker_turns (by rintro ⟨⟩) trivial
      · cases done
  | recorded =>
      simp only [workerStep] at done
      split at done
      next k n stands =>
        cases done
        exact inv.recorded stands
      next => cases done
  | answered answer =>
      simp only [workerStep] at done
      split at done
      next k n stands =>
        rw [stands] at knows
        cases done
        apply inv.worker_turns
        · exact fun _ => .inr (by rw [stands]; rfl)
        · exact .of_flying knows (workerAnswered_cases k answer)
      next => cases done
  | resynced pending =>
      simp only [workerStep] at done
      split at done
      next k manager stands _ =>
        rw [stands] at knows
        cases done
        exact inv.worker_turns (fun _ => .inr (by rw [stands]; rfl)) knows
      next k write manager stands _ =>
        rw [stands] at knows
        cases done
        exact inv.worker_turns (by rintro ⟨⟩) knows
      next k write manager stands _ =>
        rw [stands] at knows
        cases done
        exact inv.worker_turns (by rintro ⟨⟩) knows
      next =>
        cases done
        exact inv.worker_turns (by rintro ⟨⟩) trivial
      next =>
        cases done
        exact inv.worker_turns (by rintro ⟨⟩) trivial
      next => cases done
  | settled write =>
      simp only [workerStep] at done
      split at done
      next k stands =>
        rw [stands] at knows
        cases done
        exact inv.worker_turns (by rintro ⟨⟩) knows
      next => cases done
  | committed =>
      simp only [workerStep] at done
      split at done
      next k write stands =>
        rw [stands] at knows
        rcases knows with ⟨job, here, flying⟩
        rw [here] at done
        cases done
        apply inv.worker_moves (t := s.setJob k (write.apply job)) ⟨rfl, rfl, rfl⟩
          (.setJob here (write.held_apply flying))
        · rintro ⟨⟩
        · trivial
      next => cases done
  | dropped =>
      cases done
      exact inv.worker_turns (by rintro ⟨⟩) trivial
  | invalidated =>
      simp only [workerStep] at done
      split at done
      next stands =>
        cases done
        have fewer : Shrinks s { s with manager := .fresh } := .of_same rfl rfl
        exact ⟨inv.unique.shrinks fewer, inv.workerLock, inv.requestLock,
          inv.worker.shrinks fewer fun id flying => flying,
          fun i r here => (inv.requests i r here).shrinks fewer⟩
      next => cases done

/-! ### Steps of the requests -/

/-- A move over the same tables, with any counter. -/
theorem Guarded.request_turns (inv : Guarded s) {manager : NonceManager}
    (here : s.requests[i]? = some request)
    (may : rpc.holds = true → s.lock = none ∨ request.pc.holds = true)
    (knows : RequestKnows s rpc) : Guarded ({ s with manager }.toRequest i request rpc) := by
  apply inv.request_moves (t := { s with manager }) ⟨rfl, rfl, rfl⟩ (.of_same rfl rfl) rfl here may
  exact knows.shrinks (.of_same rfl rfl)

theorem Guarded.request_commits (inv : Guarded s) {writes : Writes}
    (here : s.requests[i]? = some request)
    (settles : ∀ later, commitWrites s.distributions writes = some later →
      Settles s.distributions later)
    (may : rpc.holds = true → s.lock = none ∨ request.pc.holds = true)
    (free : ∀ t, RequestKnows t rpc) : Guarded (s.commitThen i request writes rpc) := by
  unfold State.commitThen
  split
  next later done =>
    exact inv.request_moves (t := { s with distributions := later }) ⟨rfl, rfl, rfl⟩
      (.settles (settles later done)) rfl here may (free _)
  next => exact inv.request_turns here (fun holds => nomatch holds) trivial

theorem Guarded.worker_free (inv : Guarded s) (here : s.requests[i]? = some request)
    (holds : request.pc.holds = true) : s.worker.holds = false := by
  by_contra mine
  have lock := inv.workerLock (by simpa using mine)
  rw [inv.requestLock i request here holds] at lock
  cases lock

/-- A worker without the lock relies on its own job alone. -/
theorem WorkerKnows.of_free (knows : WorkerKnows s pc) (free : pc.holds = false)
    (jobs : t.jobs = s.jobs) : WorkerKnows t pc := by
  cases pc with
  | reserve | record => cases free
  | broadcast | resync | consumed | enterResync | lockedResync | commit =>
      simp only [WorkerKnows, Flying, jobs] at knows ⊢
      exact knows
  | idle | floorJobs | floorDistributions | enter | claim => trivial

theorem Guarded.rivals_free (inv : Guarded s) (here : s.requests[i]? = some request)
    (holds : request.pc.holds = true) (j : Nat) (r : Request) (other : j ≠ i)
    (there : s.requests[j]? = some r) : r.pc.holds = false := by
  apply inv.request_free there
  rw [inv.requestLock i request here holds]
  exact fun eq => other (Owner.request.inj (Option.some.inj eq)).symm

theorem held_append {d : Distribution}
    (held : State.held { s with distributions := s.distributions ++ [d] } id = some m) :
    id = .distribution s.distributions.length ∧ d.held = some m ∨
      id ≠ .distribution s.distributions.length ∧ s.held id = some m := by
  cases id with
  | job id => exact .inr ⟨by simp, held⟩
  | distribution id =>
      simp only [State.held] at held
      by_cases inside : id < s.distributions.length
      · rw [List.getElem?_append_left inside] at held
        exact .inr ⟨fun eq => Nat.ne_of_lt inside (RecordId.distribution.inj eq), held⟩
      · rw [List.getElem?_append_right (Nat.le_of_not_lt inside)] at held
        by_cases last : id = s.distributions.length
        · subst last
          simp only [Nat.sub_self, List.getElem?_cons_zero, Option.bind_some] at held
          exact .inl ⟨rfl, held⟩
        · rw [List.getElem?_eq_none (by simp; omega)] at held
          cases held

theorem Guarded.inserted (inv : Guarded s) (here : s.requests[i]? = some request)
    (stands : request.pc = .record n) :
    Guarded (State.toRequest
      { s with distributions := s.distributions ++ [⟨request.payload, .sending, n⟩] } i request
      (.broadcast s.distributions.length n)) := by
  have holds : request.pc.holds = true := by
    rw [stands]
    rfl
  have above : Above s n := by
    have knows := inv.requests i request here
    rw [stands] at knows
    exact knows
  apply inv.toRequest (t := { s with
    distributions := s.distributions ++ [⟨request.payload, .sending, n⟩] }) ⟨rfl, rfl, rfl⟩ _ here
  · exact fun _ => .inr holds
  · exact inv.worker.of_free (inv.worker_free here holds) rfl
  · constructor
    · simp
    · intro id m other held
      rcases held_append held with ⟨rfl, -⟩ | ⟨-, held⟩
      · exact absurd rfl other
      · exact above id m held
  · exact fun j r other there => .of_free (inv.rivals_free here holds j r other there)
  · apply inv.unique.add above
    intro id m held
    rcases held_append held with ⟨rfl, mine⟩ | ⟨-, held⟩
    · cases mine
      exact .inl ⟨rfl, rfl⟩
    · exact .inr held

/-- Only the row of a committed status can be newly in flight. -/
theorem held_setStatus {status : Status}
    (held : State.held { s with distributions := setStatus s.distributions (row, status) } id =
      some m) :
    id = .distribution row ∧ s.distributions[row]?.map Distribution.nonce = some m ∨
      s.held id = some m := by
  cases id with
  | job id => exact .inr held
  | distribution id =>
      simp only [State.held] at held
      rw [setStatus_held] at held
      dsimp only at held
      by_cases same : row = id
      · subst same
        rw [if_pos rfl] at held
        split at held
        · exact .inl ⟨rfl, held⟩
        · cases held
      · rw [if_neg same] at held
        exact .inr held

/-- The commit after the first broadcast: the row is the request's own. -/
theorem Guarded.stored {status : Status} (inv : Guarded s) (here : s.requests[i]? = some request)
    (stands : request.pc = .store row n status) :
    Guarded (s.commitThen i request [(row, status)] .finished) := by
  have holds : request.pc.holds = true := by
    rw [stands]
    rfl
  have owns : Owns s row n := by
    have knows := inv.requests i request here
    rw [stands] at knows
    exact knows
  unfold State.commitThen
  split
  next later done =>
    unfold commitWrites at done
    dsimp only at done
    split at done
    next =>
      cases done
      apply inv.toRequest (t := { s with
        distributions := setStatus s.distributions (row, status) }) ⟨rfl, rfl, rfl⟩ _ here
      · exact fun holds => nomatch holds
      · exact inv.worker.of_free (inv.worker_free here holds) rfl
      · trivial
      · exact fun j r other there => .of_free (inv.rivals_free here holds j r other there)
      · have cases : ∀ id m,
            State.held { s with distributions := setStatus s.distributions (row, status) } id =
              some m → id = .distribution row ∧ m = n ∨ id ≠ .distribution row ∧
                s.held id = some m ∧ m < n := by
          intro id m held
          by_cases mine : id = .distribution row
          · subst mine
            refine .inl ⟨rfl, ?_⟩
            rcases held_setStatus held with ⟨-, recorded⟩ | held
            · rw [owns.recorded] at recorded
              exact (Option.some.inj recorded).symm
            · simp only [State.held, Option.bind_eq_some_iff] at held
              rcases held with ⟨d, there, held⟩
              have nonce := owns.recorded
              rw [there] at nonce
              simp only [Option.map_some, Option.some.injEq] at nonce
              unfold Distribution.held at held
              split at held
              · exact (Option.some.inj held).symm.trans nonce
              · cases held
          · rcases held_setStatus held with ⟨eq, -⟩ | held
            · exact absurd eq mine
            · exact .inr ⟨mine, held, owns.above id m mine held⟩
        intro id id' m one two
        rcases cases id m one with ⟨rfl, rfl⟩ | ⟨-, one, below⟩ <;>
          rcases cases id' m two with ⟨rfl, eq⟩ | ⟨-, two, below'⟩
        · rfl
        · exact absurd below' (Nat.lt_irrefl m)
        · exact absurd (eq ▸ below) (Nat.lt_irrefl n)
        · exact inv.unique id id' m one two
    next => cases done
  next => exact inv.request_turns here (fun holds => nomatch holds) trivial

theorem afterRefresh_cases (purpose : Purpose) (rows : List (Nat × Status)) :
    (afterRefresh purpose rows = .finished ∨ afterRefresh purpose rows = .estimate ∨
      ∃ k, afterRefresh purpose rows = .rebroadcast purpose.holds k) ∨
      purpose.holds = true ∧ afterRefresh purpose rows = .floorJobs := by
  unfold afterRefresh
  split
  · exact .inl (.inl rfl)
  · unfold duplicate
    split
    · exact .inl (.inr (.inr ⟨_, rfl⟩))
    · exact .inl (.inl rfl)
  · exact .inl (.inr (.inl rfl))
  · exact .inr ⟨rfl, rfl⟩
  · exact .inl (.inl rfl)

theorem Guarded.request_step {event : RequestEvent} (inv : Guarded s)
    (here : s.requests[i]? = some request) (careful : Careful s (.request i event))
    (done : requestStep s i request event = some next) : Guarded next := by
  have knows := inv.requests i request here
  cases event with
  | refreshed statuses =>
      simp only [requestStep] at done
      split at done
      next purpose prior stands =>
        split at done
        next fine =>
          cases done
          apply inv.request_commits here
          · exact fun later => .commit (refreshWrites_settled fine.2)
          · intro holds
            refine .inr ?_
            rw [stands]
            rcases afterRefresh_cases purpose ((prior.map Prod.fst).zip statuses) with
              (eq | eq | ⟨k, eq⟩) | ⟨locked, -⟩
            · rw [eq] at holds
              cases holds
            · rw [eq] at holds
              cases holds
            · rw [eq] at holds
              exact holds
            · exact locked
          · intro t
            rcases afterRefresh_cases purpose ((prior.map Prod.fst).zip statuses) with
              (eq | eq | ⟨k, eq⟩) | ⟨-, eq⟩ <;> (rw [eq]; trivial)
        next => cases done
      next => cases done
  | estimated fine =>
      simp only [requestStep] at done
      split at done
      next =>
        cases done
        apply inv.request_turns here
        · cases fine <;> exact fun holds => nomatch holds
        · cases fine <;> trivial
      next => cases done
  | entered leader =>
      simp only [requestStep] at done
      split at done
      next =>
        split at done
        next free =>
          split at done
          · cases done
            exact inv.request_turns here (fun _ => .inl free) trivial
          · cases done
            exact inv.request_turns here (fun holds => nomatch holds) trivial
        next => cases done
      next => cases done
  | floorRead =>
      simp only [requestStep] at done
      split at done
      next stands =>
        cases done
        apply inv.request_turns here
        · exact fun _ => .inr (by rw [stands]; rfl)
        · exact fun id m held => le_topJob held
      next top stands =>
        rw [stands] at knows
        cases done
        apply inv.request_turns here
        · exact fun _ => .inr (by rw [stands]; rfl)
        · intro id m held
          cases id with
          | job id => exact nonceFloor_covers (.inl (knows id m held))
          | distribution id => exact nonceFloor_covers (.inr (le_topDistribution held))
      next => cases done
  | reserved pending =>
      simp only [requestStep] at done
      split at done
      next floor stands =>
        rw [stands] at knows
        split at done
        next n manager reserved =>
          cases done
          apply inv.request_turns here
          · exact fun _ => .inr (by rw [stands]; rfl)
          · exact fun id m held => reserve_above reserved (.inl (knows id m held))
        next =>
          cases done
          exact inv.request_turns here (fun holds => nomatch holds) trivial
      next => cases done
  | recorded =>
      simp only [requestStep] at done
      split at done
      next n stands =>
        split at done
        next =>
          cases done
          exact inv.inserted here stands
        next =>
          cases done
          exact inv.request_turns here (fun _ => .inr (by rw [stands]; rfl)) trivial
      next => cases done
  | answered answer =>
      simp only [requestStep] at done
      split at done
      next row n stands =>
        rw [stands] at knows
        cases done
        apply inv.request_turns here
        · exact fun _ => .inr (by rw [stands]; rfl)
        · rcases answer with _ | ⟨_ | _ | _ | _ | _ | _⟩ <;> first | exact knows | trivial
      next locked row stands =>
        cases done
        apply inv.request_turns here
        · intro holds
          refine .inr ?_
          rw [stands]
          rcases answer with _ | ⟨_ | _ | _ | _ | _ | _⟩ <;> first | exact holds | cases holds
        · rcases answer with _ | ⟨_ | _ | _ | _ | _ | _⟩ <;> trivial
      next => cases done
  | resynced pending =>
      simp only [requestStep] at done
      split at done
      next row manager stands _ =>
        cases done
        exact inv.request_turns here (fun _ => .inr (by rw [stands]; rfl)) trivial
      next =>
        cases done
        exact inv.request_turns here (fun holds => nomatch holds) trivial
      next => cases done
  | searched found =>
      simp only [requestStep] at done
      split at done
      next row stands =>
        cases done
        apply inv.request_commits here
        · intro later
          apply Settles.commit
          intro w written
          cases found with
          | none =>
              simp only [List.mem_singleton] at written
              rw [written]
              rfl
          | some other =>
              simp only [List.mem_cons, List.not_mem_nil, or_false] at written
              rcases written with rfl | rfl <;> rfl
        · exact fun holds => nomatch holds
        · exact fun _ => trivial
      next => cases done
  | committed =>
      simp only [requestStep] at done
      split at done
      next row n status stands =>
        cases done
        exact inv.stored here stands
      next locked row stands =>
        cases done
        simp only [Careful, here, Option.map_some, stands] at careful
        apply inv.request_commits here
        · intro later done
          unfold commitWrites at done
          dsimp only at done
          split at done
          · cases done
            exact .setStatus (.inr careful)
          · cases done
        · exact fun holds => nomatch holds
        · exact fun _ => trivial
      next => cases done
  | dropped =>
      cases done
      exact inv.request_turns here (fun holds => nomatch holds) trivial

/-! ### Steps and runs -/

theorem Guarded.newcomer (inv : Guarded s) (free : request.pc.holds = false) :
    Guarded { s with requests := s.requests ++ [request] } := by
  have fewer : Shrinks s { s with requests := s.requests ++ [request] } := .of_same rfl rfl
  have split_at : ∀ (j : Nat) (r : Request), (s.requests ++ [request])[j]? = some r →
      s.requests[j]? = some r ∨ r = request := by
    intro j r there
    rw [List.getElem?_append] at there
    split at there
    · exact .inl there
    · rw [List.getElem?_singleton] at there
      split at there
      · exact .inr (Option.some.inj there).symm
      · cases there
  constructor
  · exact inv.unique.shrinks fewer
  · exact inv.workerLock
  · intro j r there holds
    rcases split_at j r there with old | rfl
    · exact inv.requestLock j r old holds
    · rw [free] at holds
      cases holds
  · exact inv.worker.shrinks fewer fun id flying => flying
  · intro j r there
    rcases split_at j r there with old | rfl
    · exact (inv.requests j r old).shrinks fewer
    · exact .of_free free

theorem Guarded.step {event : Event} (inv : Guarded s) (taken : CarefulStep s event next) :
    Guarded next := by
  rcases taken with ⟨careful, done⟩
  cases event with
  | enqueued =>
      cases done
      have fewer := Shrinks.enqueue (s := s)
      refine ⟨inv.unique.shrinks fewer, inv.workerLock, inv.requestLock,
        inv.worker.shrinks fewer ?_, fun i r here => (inv.requests i r here).shrinks fewer⟩
      rintro id ⟨job, here, up⟩
      exact ⟨job, (List.getElem?_append_left (List.getElem?_eq_some_iff.mp here).1).trans here, up⟩
  | closed k status =>
      simp only [RelayNonces.step] at done
      split at done
      next job here =>
        split at done
        next closing =>
          cases done
          have settled : Job.held { job with status } = none := by
            apply Job.held_pending
            have terminal := closing.1
            cases status <;> first | rfl | cases terminal
          have fewer : Shrinks s (s.setJob k { job with status }) := .setJob here (.inl settled)
          exact ⟨inv.unique.shrinks fewer, inv.workerLock, inv.requestLock,
            inv.worker.shrinks fewer fun id flying => flying.setJob here closing.2.1,
            fun i r here => (inv.requests i r here).shrinks fewer⟩
        next => cases done
      next => cases done
  | worker event => exact inv.worker_step careful done
  | distribute payload =>
      cases done
      exact inv.newcomer rfl
  | poll k =>
      simp only [RelayNonces.step] at done
      split at done
      next =>
        cases done
        exact inv.newcomer rfl
      next => cases done
  | request i event =>
      simp only [RelayNonces.step] at done
      split at done
      next request here => exact inv.request_step here careful done
      next => cases done
  | crash =>
      cases done
      constructor
      · exact inv.unique.shrinks (.of_same rfl rfl)
      · exact fun holds => nomatch holds
      · exact fun i r here => nomatch here
      · trivial
      · exact fun i r here => nomatch here

/-- In every run of careful steps no two records in flight hold one nonce. -/
theorem in_flight_nonces_unique {events : List Event} (path : Run CarefulStep initial events s)
    {id id' : RecordId} (held : s.held id = some n) (held' : s.held id' = some n) : id = id' := by
  have inv : Guarded s := path.invariant .initial fun _ _ _ inv taken => inv.step taken
  exact inv.unique id id' n held held'

/-! ### A short run and a racing one -/

/-- Execute an event if it is careful. -/
def stepCarefully (s : State) (event : Event) : Option State :=
  if Careful s event then step s event else none

/-- A distribution is recorded with nonce 4 and its broadcast stays open; the worker reserves for a
match beside it; and a second request for the distribution sends it again. -/
def sampleEvents : List Event :=
  [.enqueued,
    .distribute 1, .request 0 (.refreshed []), .request 0 (.estimated true),
    .request 0 (.entered true), .request 0 (.refreshed []), .request 0 .floorRead,
    .request 0 .floorRead, .request 0 (.reserved (some 4)), .request 0 .recorded,
    .request 0 (.answered (some .transient)),
    .worker (.send 0), .worker .floorRead, .worker .floorRead, .worker .entered,
    .worker .claimed, .worker (.reserved none), .worker .recorded, .worker (.answered none),
    .worker .committed,
    .distribute 1, .request 1 (.refreshed [.sending]), .request 1 (.answered (some .known)),
    .request 1 .committed]

/-- The theorem over a distribution and a match in flight. -/
theorem in_flight_nonces_unique_sent :
    ∃ s : State, Run CarefulStep initial sampleEvents s ∧
      s.held (.distribution 0) = some 4 ∧ s.held (.job 0) = some 5 ∧
      (∀ id, s.held id = some 4 → id = .distribution 0) ∧
      ∀ id, s.held id = some 5 → id = .job 0 := by
  have held : (sampleEvents.foldlM stepCarefully initial).map
      (fun s => (s.held (.distribution 0), s.held (.job 0))) = some (some 4, some 5) := by
    decide +kernel
  rcases Option.map_eq_some_iff.mp held with ⟨s, done, held⟩
  have distributed : s.held (.distribution 0) = some 4 := congrArg Prod.fst held
  have matched : s.held (.job 0) = some 5 := congrArg Prod.snd held
  have path : Run CarefulStep initial sampleEvents s := by
    apply Run.of_foldlM _ done
    intro a event b taken
    unfold stepCarefully at taken
    split at taken
    next careful => exact ⟨careful, taken⟩
    next => cases taken
  exact ⟨s, path, distributed, matched,
    fun id held' => in_flight_nonces_unique path held' distributed,
    fun id held' => in_flight_nonces_unique path held' matched⟩

/-- The worker reads its floor while the first request is about to reserve, and waits for
the lock behind the second, whose rejected broadcast resyncs to a node that has seen
nothing. -/
def racingEvents : List Event :=
  [.enqueued,
    .distribute 1, .request 0 (.refreshed []), .request 0 (.estimated true),
    .request 0 (.entered true),
    .distribute 2, .request 1 (.refreshed []), .request 1 (.estimated true),
    .worker (.send 0), .worker .floorRead, .worker .floorRead,
    .request 0 (.refreshed []), .request 0 .floorRead, .request 0 .floorRead,
    .request 0 (.reserved (some 0)), .request 0 .recorded,
    .request 0 (.answered (some .transient)),
    .request 1 (.entered true), .request 1 (.refreshed []), .request 1 .floorRead,
    .request 1 .floorRead, .request 1 (.reserved none), .request 1 .recorded,
    .request 1 (.answered (some .nonceLow)), .request 1 (.resynced (some 0)),
    .request 1 (.searched none),
    .worker .entered, .worker .claimed, .worker (.reserved none), .worker .recorded]

/-- A run in which a relay job and a distribution hold one nonce. -/
theorem nonce_held_twice :
    ¬∀ (events : List Event) (s : State), Run Step initial events s →
      ∀ id id' n, s.held id = some n → s.held id' = some n → id = id' := by
  intro claimed
  have held : (racingEvents.foldlM step initial).map
      (fun s => (s.held (.job 0), s.held (.distribution 0))) = some (some 0, some 0) := by
    decide +kernel
  rcases Option.map_eq_some_iff.mp held with ⟨s, done, held⟩
  have path : Run Step initial racingEvents s := .of_foldlM (fun _ _ _ taken => taken) done
  have same := claimed racingEvents s path (.job 0) (.distribution 0) 0
    (congrArg Prod.fst held) (congrArg Prod.snd held)
  cases same

end OverUnder.Backend.RelayNonces
