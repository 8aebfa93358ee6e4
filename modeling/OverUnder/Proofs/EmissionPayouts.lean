/-
Module: OverUnder.Proofs.EmissionPayouts
Purpose: A distribution is paid at most once as long as no step declares a row
  failed whose transaction succeeded or still can. The receipt and the mined nonce
  are two reads, so such a step exists, and it leads to a second payment.
Trusted boundary: none
Main exports: Careful, Sound, Sound.step, distribution_paid_once, distribution_paid_twice
-/
import OverUnder.Backend.Emissions
import OverUnder.Library.Reachable

namespace OverUnder.Backend.Emissions

open OverUnder.Library

/-! ### Careful steps -/

/-- The task is about to fail a row of `tx` without another look at the chain. -/
def Pc.Failing (rows : List Row) (tx : Tx) : Pc → Prop
  | .resync row | .earlier row _ => row.tx = tx
  | .store writes => ∃ row ∈ rows, row.tx = tx ∧ writes.lookup row.id = some .failed
  | _ => False

/-- Some node may take `tx`: nothing changes by it, or a live row stands for it. -/
def Welcome (s : State) (tx : Tx) : Prop :=
  s.chain.Viable Tx.nonce tx ∨ s.chain.Dead Tx.nonce tx ∨
    (∃ row ∈ s.rows, row.tx = tx ∧ row.status.live = true) ∧
      ∀ task ∈ s.tasks, ¬task.pc.Failing s.rows tx

/-- Answers after which `distribute` fails its row. -/
def Rejects (answer : Answer) : Prop :=
  answer = some .insufficientFunds ∨ answer = some .revert ∨ answer = some .nonceLow ∨
    answer = some .underpriced

/-- A rejected broadcast leaves a transaction that cannot succeed, or is of one the
search for an earlier payment will find. -/
def RejectedFinally (s : State) (row : Row) (answer : Answer) (accepted : Bool) : Prop :=
  Rejects answer →
    ¬(s.reach row.tx accepted).chain.Viable Tx.nonce row.tx ∨
      (answer = some .nonceLow ∨ answer = some .underpriced) ∧
        s.chain.outcome row.tx = some true

/-- What the task at `pc` learns in `event` does not make it fail a row whose
transaction succeeded or still can. -/
def CarefulAt (s : State) : Pc → Event → Prop
  | .readNonce _ row _ _ _, .latestNonce _ false =>
      s.chain.mined > row.tx.nonce → s.chain.outcome row.tx ≠ some true
  | .broadcast row, .answered _ answer accepted =>
      RejectedFinally s row answer accepted ∧ (accepted = true → Welcome s row.tx)
  | .rebroadcast row, .answered _ _ accepted => accepted = true → Welcome s row.tx
  | .earlier _ (row :: _), .receipt _ true => s.chain.outcome row.tx ≠ some true
  | _, _ => True

/-- Every task an event belongs to takes it carefully. -/
def Careful (s : State) (event : Event) : Prop :=
  ∀ i, event.task = some i → ∀ task, s.tasks[i]? = some task → CarefulAt s task.pc event

instance decidableFailing (rows : List Row) (tx : Tx) :
    (pc : Pc) → Decidable (pc.Failing rows tx)
  | .resync row | .earlier row _ => inferInstanceAs (Decidable (row.tx = tx))
  | .store writes => inferInstanceAs (Decidable
      (∃ row ∈ rows, row.tx = tx ∧ writes.lookup row.id = some .failed))
  | .refresh .. | .readNonce .. | .estimate | .enter | .reserve | .insert _ | .broadcast _
  | .rebroadcast _ | .finished => isFalse id

instance decidableWelcome (s : State) (tx : Tx) : Decidable (Welcome s tx) :=
  inferInstanceAs (Decidable (_ ∨ _ ∨ (∃ row ∈ s.rows, row.tx = tx ∧ row.status.live = true) ∧
    ∀ task ∈ s.tasks, ¬task.pc.Failing s.rows tx))

instance decidableCarefulAt (s : State) (pc : Pc) (event : Event) :
    Decidable (CarefulAt s pc event) := by
  unfold CarefulAt RejectedFinally Rejects
  split <;> infer_instance

instance decidableCareful (s : State) (event : Event) : Decidable (Careful s event) :=
  match own : event.task with
  | none => isTrue fun i same => nomatch own.symm.trans same
  | some i =>
      match here : s.tasks[i]? with
      | none => isTrue fun j same task there => by
          rw [own] at same
          cases same
          cases here.symm.trans there
      | some task => decidable_of_iff (CarefulAt s task.pc event)
          ⟨fun careful j same other there => by
            rw [own] at same
            cases same
            cases here.symm.trans there
            exact careful, fun careful => careful i own task here⟩

/-! ### The invariant -/

/-- Signed transactions in the order of their rows, so by row id. -/
def State.txs (s : State) : List Tx := s.rows.map Row.tx

/-- A copy of a recorded row, whatever its status. -/
def Recorded (txs : List Tx) (row : Row) : Prop := txs[row.id]? = some row.tx

/-- Every row the writes fail is dead. -/
def DeadWrites (txs : List Tx) (chain : NonceChain Tx) (writes : Writes) : Prop :=
  ∀ w ∈ writes, ∃ tx, txs[w.1]? = some tx ∧ (w.2 = .failed → chain.Dead Tx.nonce tx)

/-- Writes that leave every transaction that can succeed with a live row. -/
structure SafeWrites (txs : List Tx) (chain : NonceChain Tx) (writes : Writes) : Prop where
  recorded : ∀ w ∈ writes, w.1 < txs.length
  replaced : ∀ id tx, txs[id]? = some tx → writes.lookup id = some .failed →
    chain.Viable Tx.nonce tx → ∃ other status, txs[other]? = some tx ∧
      writes.lookup other = some status ∧ status.live = true

/-- The row about to be failed cannot succeed, or has and is among those to look at. -/
def Retirable (chain : NonceChain Tx) (row : Row) (found : Prop) : Prop :=
  ¬chain.Viable Tx.nonce row.tx ∨ chain.outcome row.tx = some true ∧ found

/-- What a task holds agrees with the database and the chain. -/
def Pc.Agrees (txs : List Tx) (chain : NonceChain Tx) : Pc → Prop
  | .refresh _ todo seen writes =>
      (∀ row ∈ todo ++ seen, Recorded txs row) ∧ DeadWrites txs chain writes
  | .readNonce _ row todo seen writes =>
      (∀ r ∈ row :: (todo ++ seen), Recorded txs r) ∧ DeadWrites txs chain writes
  | .broadcast row | .rebroadcast row => Recorded txs row
  | .resync row => Recorded txs row ∧ Retirable chain row True
  | .earlier row todo =>
      (∀ r ∈ row :: todo, Recorded txs r) ∧ Retirable chain row (∃ r ∈ todo, r.tx = row.tx)
  | .store writes => SafeWrites txs chain writes
  | .estimate | .enter | .reserve | .insert _ | .finished => True

/-- Every transaction that succeeded or can is the one of the live row. -/
structure Sound (s : State) : Prop where
  ordered : s.chain.Ordered Tx.nonce
  indexed : ∀ (i : Nat) (row : Row), s.rows[i]? = some row → row.id = i
  unique : (s.rows.filter fun row => row.status.live).length ≤ 1
  covered : ∀ tx, s.chain.Viable Tx.nonce tx →
    ∃ row ∈ s.rows, row.tx = tx ∧ row.status.live = true
  tasks : ∀ task ∈ s.tasks, task.pc.Agrees s.txs s.chain

variable {s next : State} {txs more : List Tx} {chain later : NonceChain Tx} {row : Row}
  {writes : Writes} {pc : Pc} {task : Task} {i : Nat} {tx : Tx} {event : Event}

/-- Two live rows of a list with at most one are the same. -/
theorem live_unique {rows : List Row} {r r' : Row}
    (unique : (rows.filter fun row => row.status.live).length ≤ 1) (here : r ∈ rows)
    (here' : r' ∈ rows) (live : r.status.live = true) (live' : r'.status.live = true) : r = r' := by
  have one : r ∈ rows.filter fun row => row.status.live := List.mem_filter.mpr ⟨here, live⟩
  have two : r' ∈ rows.filter fun row => row.status.live := List.mem_filter.mpr ⟨here', live'⟩
  match list : rows.filter fun row => row.status.live with
  | [] =>
      rw [list] at one
      cases one
  | [only] =>
      rw [list, List.mem_singleton] at one two
      exact one.trans two.symm
  | _ :: _ :: _ =>
      rw [list] at unique
      simp at unique

/-- Only one transaction can ever succeed. -/
theorem Sound.viable_unique (sound : Sound s) {t t' : Tx} (viable : s.chain.Viable Tx.nonce t)
    (viable' : s.chain.Viable Tx.nonce t') : t = t' := by
  rcases sound.covered t viable with ⟨r, here, rfl, live⟩
  rcases sound.covered t' viable' with ⟨r', here', rfl, live'⟩
  rw [live_unique sound.unique here here' live live']

theorem Sound.recorded (sound : Sound s) (here : row ∈ s.rows) : Recorded s.txs row := by
  rcases List.getElem?_of_mem here with ⟨i, at_i⟩
  have id : row.id = i := sound.indexed i row at_i
  simp only [Recorded, State.txs, List.getElem?_map, id, at_i, Option.map_some]

theorem Sound.row_of_tx (sound : Sound s) {id : Nat} (recorded : s.txs[id]? = some tx) :
    ∃ row ∈ s.rows, row.id = id ∧ row.tx = tx := by
  simp only [State.txs, List.getElem?_map, Option.map_eq_some_iff] at recorded
  rcases recorded with ⟨row, at_id, rfl⟩
  exact ⟨row, List.mem_of_getElem? at_id, sound.indexed id row at_id, rfl⟩

/-! ### What other steps leave of a task's knowledge -/

theorem getElem?_append {id : Nat} (recorded : txs[id]? = some tx) :
    (txs ++ more)[id]? = some tx := by
  rw [List.getElem?_append_left (List.getElem?_eq_some_iff.mp recorded).1]
  exact recorded

theorem Recorded.append (recorded : Recorded txs row) : Recorded (txs ++ more) row :=
  getElem?_append recorded

/-- The chain moves on without reviving the dead, undoing a success or, for what a task
is about to fail, making a transaction viable. -/
structure Onward (chain later : NonceChain Tx) (failing : Tx → Prop) : Prop where
  dead : ∀ tx, chain.Dead Tx.nonce tx → later.Dead Tx.nonce tx
  succeeded : ∀ tx, chain.outcome tx = some true → later.outcome tx = some true
  viable : ∀ tx, later.Viable Tx.nonce tx → chain.Viable Tx.nonce tx ∨ ¬failing tx

theorem Onward.refl (chain : NonceChain Tx) (failing : Tx → Prop) : Onward chain chain failing :=
  ⟨fun _ dead => dead, fun _ succeeded => succeeded, fun _ => .inl⟩

theorem DeadWrites.onward {failing : Tx → Prop} (dead : DeadWrites txs chain writes)
    (onward : Onward chain later failing) : DeadWrites (txs ++ more) later writes := by
  intro w written
  rcases dead w written with ⟨tx, recorded, lost⟩
  exact ⟨tx, getElem?_append recorded, fun failed => onward.dead tx (lost failed)⟩

theorem mem_of_lookup {id : Nat} {status : Status} (found : writes.lookup id = some status) :
    (id, status) ∈ writes := by
  induction writes with
  | nil => cases found
  | cons w rest ih =>
      rw [List.lookup_cons] at found
      split at found
      next same =>
        rw [beq_iff_eq] at same
        cases found
        exact same ▸ .head _
      next => exact .tail _ (ih found)

theorem SafeWrites.onward (safe : SafeWrites txs chain writes)
    (onward : Onward chain later fun tx =>
      ∃ id, txs[id]? = some tx ∧ writes.lookup id = some .failed) :
    SafeWrites (txs ++ more) later writes where
  recorded w written := (safe.recorded w written).trans_le (by simp)
  replaced id tx recorded failed viable := by
    have bound : id < txs.length := safe.recorded _ (mem_of_lookup failed)
    rw [List.getElem?_append_left bound] at recorded
    have before : chain.Viable Tx.nonce tx :=
      (onward.viable tx viable).resolve_right fun none => none ⟨id, recorded, failed⟩
    rcases safe.replaced id tx recorded failed before with ⟨other, status, there, written, live⟩
    exact ⟨other, status, getElem?_append there, written, live⟩

theorem Retirable.onward {found : Prop} (retirable : Retirable chain row found)
    (onward : Onward chain later (row.tx = ·)) : Retirable later row found := by
  by_cases viable : later.Viable Tx.nonce row.tx
  · have before : chain.Viable Tx.nonce row.tx :=
      (onward.viable _ viable).resolve_right (not_not_intro rfl)
    rcases retirable with never | ⟨succeeded, found⟩
    · exact absurd before never
    · exact .inr ⟨onward.succeeded _ succeeded, found⟩
  · exact .inl viable

/-- New rows and an onward chain keep what a task knows. -/
theorem Pc.Agrees.onward (sound : pc.Agrees s.txs s.chain) (indexed : Sound s)
    (onward : Onward s.chain later (pc.Failing s.rows)) : pc.Agrees (s.txs ++ more) later := by
  cases pc with
  | refresh => exact ⟨fun r here => (sound.1 r here).append, sound.2.onward onward⟩
  | readNonce => exact ⟨fun r here => (sound.1 r here).append, sound.2.onward onward⟩
  | broadcast => exact Recorded.append sound
  | rebroadcast => exact Recorded.append sound
  | resync => exact ⟨sound.1.append, sound.2.onward onward⟩
  | earlier => exact ⟨fun r here => (sound.1 r here).append, sound.2.onward onward⟩
  | store writes =>
      refine SafeWrites.onward sound ⟨onward.dead, onward.succeeded, fun tx viable => ?_⟩
      refine (onward.viable tx viable).imp_right fun calm ⟨id, recorded, failed⟩ => calm ?_
      rcases indexed.row_of_tx recorded with ⟨row, here, rfl, same⟩
      exact ⟨row, here, same, failed⟩
  | estimate | enter | reserve | insert | finished => trivial

/-! ### Steps of the chain and of the nodes -/

theorem Sound.setChain (sound : Sound s) (ordered : later.Ordered Tx.nonce)
    (covered : ∀ tx, later.Viable Tx.nonce tx → s.chain.Viable Tx.nonce tx ∨
      ∃ row ∈ s.rows, row.tx = tx ∧ row.status.live = true)
    (onward : ∀ task ∈ s.tasks, Onward s.chain later (task.pc.Failing s.rows)) :
    Sound { s with chain := later } where
  ordered := ordered
  indexed := sound.indexed
  unique := sound.unique
  covered tx viable := (covered tx viable).elim (sound.covered tx) id
  tasks task here := by
    have kept : task.pc.Agrees (s.txs ++ []) later :=
      (sound.tasks task here).onward sound (onward task here)
    rw [List.append_nil] at kept
    exact kept

theorem Sound.mine {success : Bool} (sound : Sound s) (minable : s.chain.Minable Tx.nonce tx) :
    Sound { s with chain := s.chain.mine tx success } := by
  apply sound.setChain (sound.ordered.mine minable)
  · exact fun _ viable => .inl (NonceChain.Viable.of_mine minable viable)
  · intro task _
    exact ⟨fun _ dead => dead.mine minable, fun _ => NonceChain.succeeded_mine minable,
      fun _ viable => .inl (NonceChain.Viable.of_mine minable viable)⟩

theorem Sound.mineOther (sound : Sound s) : Sound { s with chain := s.chain.mineOther } := by
  apply sound.setChain sound.ordered.mineOther
  · exact fun _ viable => .inl (NonceChain.Viable.of_mineOther viable)
  · intro task _
    exact ⟨fun _ => NonceChain.Dead.mineOther, fun _ succeeded => succeeded,
      fun _ viable => .inl (NonceChain.Viable.of_mineOther viable)⟩

theorem Sound.accept (sound : Sound s) (welcome : Welcome s tx) :
    Sound { s with chain := s.chain.accept tx } := by
  have viable_before : ∀ u, (s.chain.accept tx).Viable Tx.nonce u →
      s.chain.Viable Tx.nonce u ∨ u = tx ∧ (∃ row ∈ s.rows, row.tx = tx ∧ row.status.live = true) ∧
        ∀ task ∈ s.tasks, ¬task.pc.Failing s.rows tx := by
    intro u viable
    rcases NonceChain.Viable.of_accept viable with before | ⟨rfl, alive⟩
    · exact .inl before
    · rcases welcome with before | dead | newly
      · exact .inl before
      · exact absurd dead alive
      · exact .inr ⟨rfl, newly⟩
  apply sound.setChain sound.ordered.accept
  · intro u viable
    rcases viable_before u viable with before | ⟨rfl, live, -⟩
    · exact .inl before
    · exact .inr live
  · intro task here
    refine ⟨fun _ => NonceChain.Dead.accept, fun _ succeeded => succeeded, fun u viable => ?_⟩
    rcases viable_before u viable with before | ⟨rfl, -, calm⟩
    · exact .inl before
    · exact .inr (calm task here)

theorem Sound.reach {accepted : Bool} (sound : Sound s)
    (welcome : accepted = true → Welcome s tx) : Sound (s.reach tx accepted) := by
  cases accepted with
  | true => exact sound.accept (welcome rfl)
  | false => exact sound

@[simp] theorem State.reach_txs (s : State) (tx : Tx) (accepted : Bool) :
    (s.reach tx accepted).txs = s.txs := by
  cases accepted <;> rfl

theorem Sound.setManager {process : Nat} {nm : NonceManager} (sound : Sound s) :
    Sound (s.setManager process nm) :=
  ⟨sound.ordered, sound.indexed, sound.unique, sound.covered, sound.tasks⟩

/-! ### Steps of the database -/

@[simp] theorem Task.withPc_pc (task : Task) (pc : Pc) : (task.withPc pc).pc = pc := by
  cases pc <;> rfl

theorem Sound.setPc (sound : Sound s) (agrees : pc.Agrees s.txs s.chain) :
    Sound (s.setPc i task pc) where
  ordered := sound.ordered
  indexed := sound.indexed
  unique := sound.unique
  covered := sound.covered
  tasks other here := by
    rcases List.mem_or_eq_of_mem_set here with old | rfl
    · exact sound.tasks other old
    · rw [Task.withPc_pc]
      exact agrees

/-- A row after a commit. -/
def Row.after (writes : Writes) (row : Row) : Row :=
  match writes.lookup row.id with
  | some status => { row with status }
  | none => row

@[simp] theorem Row.after_id (writes : Writes) (row : Row) : (row.after writes).id = row.id := by
  unfold Row.after
  split <;> rfl

@[simp] theorem Row.after_tx (writes : Writes) (row : Row) : (row.after writes).tx = row.tx := by
  unfold Row.after
  split <;> rfl

theorem applyWrites_spec {rows rows' : List Row} (applied : applyWrites rows writes = some rows') :
    rows' = rows.map (Row.after writes) ∧
      (rows'.filter fun row => row.status.live).length ≤ 1 := by
  simp only [applyWrites] at applied
  split at applied
  next few =>
    cases applied
    exact ⟨rfl, few⟩
  next => cases applied

theorem Sound.commit {rows : List Row} (sound : Sound s) (safe : SafeWrites s.txs s.chain writes)
    (applied : applyWrites s.rows writes = some rows) :
    Sound { s with rows } ∧ State.txs { s with rows } = s.txs := by
  rcases applyWrites_spec applied with ⟨rfl, few⟩
  have same : State.txs { s with rows := s.rows.map (Row.after writes) } = s.txs := by
    simp only [State.txs, List.map_map]
    exact List.map_congr_left fun row _ => row.after_tx writes
  refine ⟨⟨sound.ordered, fun i row at_i => ?_, few, fun tx viable => ?_, ?_⟩, same⟩
  · simp only [List.getElem?_map, Option.map_eq_some_iff] at at_i
    rcases at_i with ⟨old, at_i, rfl⟩
    rw [Row.after_id]
    exact sound.indexed i old at_i
  · rcases sound.covered tx viable with ⟨row, here, rfl, live⟩
    cases written : writes.lookup row.id with
    | none =>
        refine ⟨row, List.mem_map.mpr ⟨row, here, ?_⟩, rfl, live⟩
        simp only [Row.after, written]
    | some status =>
        by_cases failed : status = .failed
        -- the row is failed, and the writes keep or make another one live
        · subst failed
          rcases safe.replaced row.id row.tx (sound.recorded here) written viable with
            ⟨id, status, recorded, written, live⟩
          rcases sound.row_of_tx recorded with ⟨other, there, rfl, same⟩
          refine ⟨other.after writes, List.mem_map_of_mem there, ?_, ?_⟩
          · rw [Row.after_tx, same]
          · simp only [Row.after, written, live]
        · refine ⟨row.after writes, List.mem_map_of_mem here, row.after_tx writes, ?_⟩
          simp only [Row.after, written]
          cases status <;> first | rfl | exact absurd rfl failed
  · rw [same]
    exact sound.tasks

theorem Sound.insert (sound : Sound s) (row : Row) (id : row.id = s.rows.length)
    (none : s.rows.any (fun r => r.status.live) = false) :
    Sound { s with rows := s.rows ++ [row] } := by
  have dead : ∀ r ∈ s.rows, r.status.live = false := by simpa using none
  have grown : State.txs { s with rows := s.rows ++ [row] } = s.txs ++ [row.tx] := by
    simp only [State.txs, List.map_append, List.map_cons, List.map_nil]
  refine ⟨sound.ordered, fun i r at_i => ?_, ?_, fun tx viable => ?_, fun task here => ?_⟩
  · rcases Nat.lt_or_ge i s.rows.length with old | new
    · rw [List.getElem?_append_left old] at at_i
      exact sound.indexed i r at_i
    · rw [List.getElem?_append_right new, List.getElem?_singleton] at at_i
      split at at_i
      next last =>
        cases at_i
        omega
      next => cases at_i
  · rw [List.filter_append, List.filter_eq_nil_iff.mpr fun r here => by simp [dead r here]]
    exact (List.length_filter_le _ _).trans (by simp)
  · rcases sound.covered tx viable with ⟨r, here, -, live⟩
    rw [dead r here] at live
    cases live
  · rw [grown]
    exact (sound.tasks task here).onward sound (.refl _ _)

/-! ### Steps of a task -/

theorem selectLive_agrees (sound : Sound s) (purpose : Purpose) :
    (selectLive s.rows purpose).Agrees s.txs s.chain := by
  refine ⟨fun row here => ?_, fun w written => absurd written List.not_mem_nil⟩
  rw [List.append_nil] at here
  exact sound.recorded (List.mem_filter.mp here).1

theorem duplicate_agrees (recorded : Recorded txs row) : (duplicate row).Agrees txs chain := by
  unfold duplicate
  split
  · exact recorded
  · trivial

theorem afterRefresh_agrees {purpose : Purpose} {seen : List Row}
    (recorded : ∀ row ∈ seen, Recorded txs row) :
    (afterRefresh purpose seen).Agrees txs chain := by
  unfold afterRefresh
  split
  · trivial
  next row _ last =>
    exact duplicate_agrees (recorded row (List.mem_filter.mp (List.mem_of_getLast? last)).1)
  all_goals trivial

/-- Writes that fail only dead rows are safe. -/
theorem DeadWrites.safe (dead : DeadWrites txs chain writes) : SafeWrites txs chain writes where
  recorded w written := by
    rcases dead w written with ⟨tx, recorded, -⟩
    exact (List.getElem?_eq_some_iff.mp recorded).1
  replaced id tx recorded failed viable := by
    rcases dead _ (mem_of_lookup failed) with ⟨_, same, lost⟩
    rw [recorded] at same
    cases same
    exact absurd viable (lost rfl).not_viable

theorem DeadWrites.cons {status : Status} (dead : DeadWrites txs chain writes)
    (recorded : Recorded txs row) (lost : status = .failed → chain.Dead Tx.nonce row.tx) :
    DeadWrites txs chain ((row.id, status) :: writes) := by
  intro w written
  rcases List.mem_cons.mp written with rfl | old
  · exact ⟨row.tx, recorded, lost⟩
  · exact dead w old

/-- One write of a recorded row is safe if it is not a failure, or the row is lost. -/
theorem SafeWrites.single {status : Status} (recorded : Recorded txs row)
    (lost : status = .failed → ¬chain.Viable Tx.nonce row.tx) :
    SafeWrites txs chain [(row.id, status)] where
  recorded w written := by
    rw [List.mem_singleton] at written
    subst written
    exact (List.getElem?_eq_some_iff.mp recorded).1
  replaced id tx here failed viable := by
    have written := mem_of_lookup failed
    rw [List.mem_singleton, Prod.mk.injEq] at written
    rcases written with ⟨rfl, rfl⟩
    rw [show txs[row.id]? = some row.tx from recorded] at here
    cases here
    exact absurd viable (lost rfl)

theorem SafeWrites.nil : SafeWrites txs chain [] :=
  ⟨fun _ written => absurd written List.not_mem_nil, fun _ _ _ failed => nomatch failed⟩

/-- The search found an earlier success: if the row at hand can succeed as well, it is
the same transaction. -/
theorem foundWrites_safe {found : Row} (sound : Sound s) (recorded : Recorded s.txs row)
    (recordedFound : Recorded s.txs found) (succeeded : s.chain.outcome found.tx = some true) :
    SafeWrites s.txs s.chain (foundWrites row found) where
  recorded w written := by
    simp only [foundWrites, List.mem_cons, List.not_mem_nil, or_false] at written
    rcases written with rfl | rfl
    · exact (List.getElem?_eq_some_iff.mp recordedFound).1
    · exact (List.getElem?_eq_some_iff.mp recorded).1
  replaced id tx here _ viable := by
    obtain rfl : tx = found.tx := sound.viable_unique viable (.of_succeeded succeeded)
    refine ⟨found.id, .confirmed, recordedFound, ?_, rfl⟩
    simp only [foundWrites, List.lookup_cons, beq_self_eq_true]

/-- A row moved on from the ones to refresh to the ones seen. -/
theorem recorded_moved {todo seen : List Row}
    (recorded : ∀ r ∈ row :: (todo ++ seen), Recorded txs r) (status : Status) :
    ∀ r ∈ todo ++ (seen ++ [{ row with status }]), Recorded txs r := by
  intro r here
  rw [← List.append_assoc, List.mem_append, List.mem_singleton] at here
  rcases here with old | rfl
  · exact recorded r (.tail _ old)
  · exact recorded row (.head _)

theorem afterReceipt_agrees {resubmitAfter now : Nat} {purpose : Purpose} {todo seen : List Row}
    (sound : Sound s)
    (agrees : (Pc.refresh purpose (row :: todo) seen writes).Agrees s.txs s.chain) :
    (afterReceipt resubmitAfter s now purpose row todo seen writes).Agrees s.txs s.chain := by
  rcases agrees with ⟨recorded, dead⟩
  unfold afterReceipt
  split
  next =>
    exact ⟨recorded_moved recorded _,
      dead.cons (recorded row (.head _)) (fun failed => nomatch failed)⟩
  next reverted =>
    refine ⟨recorded_moved recorded _, dead.cons (recorded row (.head _)) fun _ => ⟨?_, ?_⟩⟩
    · rw [reverted]
      exact fun same => nomatch same
    · exact sound.ordered.used _ (by rw [reverted]; exact fun same => nomatch same)
  next =>
    split
    · exact ⟨recorded, dead⟩
    · exact ⟨recorded_moved recorded row.status, dead⟩

theorem afterNonce_agrees {purpose : Purpose} {todo seen : List Row}
    (agrees : (Pc.readNonce purpose row todo seen writes).Agrees s.txs s.chain)
    (careful : s.chain.mined > row.tx.nonce → s.chain.outcome row.tx ≠ some true) :
    (afterNonce s purpose row todo seen writes).Agrees s.txs s.chain := by
  rcases agrees with ⟨recorded, dead⟩
  unfold afterNonce
  split
  next past =>
    exact ⟨recorded_moved recorded _, dead.cons (recorded row (.head _)) fun _ => ⟨careful past, past⟩⟩
  next => exact ⟨recorded_moved recorded row.status, dead⟩

@[simp] theorem State.reach_outcome (s : State) (tx : Tx) (accepted : Bool) :
    (s.reach tx accepted).chain.outcome = s.chain.outcome := by
  cases accepted <;> rfl

/-- A row whose broadcast is rejected may be failed or looked up. -/
theorem afterBroadcast_agrees {answer : Answer} {accepted : Bool}
    (recorded : Recorded s.txs row) (rejected : RejectedFinally s row answer accepted) :
    (afterBroadcast row answer).Agrees s.txs (s.reach row.tx accepted).chain := by
  cases answer with
  | none => exact SafeWrites.single recorded (fun failed => nomatch failed)
  | some kind =>
      cases kind with
      | known => exact SafeWrites.single recorded (fun failed => nomatch failed)
      | transient => exact SafeWrites.nil
      | insufficientFunds | revert =>
          refine SafeWrites.single recorded fun _ => ?_
          rcases rejected (by simp [Rejects]) with never | ⟨low | under, -⟩
          · exact never
          · cases low
          · cases under
      | nonceLow | underpriced =>
          refine ⟨recorded, (rejected (by simp [Rejects])).imp_right fun earlier => ?_⟩
          rw [State.reach_outcome]
          exact ⟨earlier.2, trivial⟩

theorem afterRebroadcast_agrees (answer : Answer) (recorded : Recorded txs row) :
    (afterRebroadcast row answer).Agrees txs chain := by
  have sent : SafeWrites txs chain [(row.id, .sent)] :=
    SafeWrites.single recorded (fun failed => nomatch failed)
  unfold afterRebroadcast
  split
  · exact sent
  · exact sent
  · exact sent
  · exact SafeWrites.nil

theorem selectFailed_agrees (sound : Sound s)
    (agrees : (Pc.resync row).Agrees s.txs s.chain) :
    (Pc.earlier row (selectFailed s.rows row)).Agrees s.txs s.chain := by
  rcases agrees with ⟨recorded, retirable⟩
  refine ⟨fun r here => ?_, retirable.imp_right fun earlier => ⟨earlier.1, ?_⟩⟩
  · rcases List.mem_cons.mp here with rfl | selected
    · exact recorded
    · rw [selectFailed, List.mem_reverse] at selected
      exact sound.recorded (List.mem_filter.mp selected).1
  · rcases sound.row_of_tx recorded with ⟨own, there, id, same⟩
    refine ⟨own, ?_, same⟩
    rw [selectFailed, List.mem_reverse, List.mem_filter]
    exact ⟨there, by simp [id]⟩

theorem finished_agrees : Pc.finished.Agrees txs chain := trivial

/-- A commit and what follows it: either the index refuses it and the task ends, or the
safe writes are in the database. -/
theorem Sound.commit_cases {continue_ : Pc} (sound : Sound s)
    (safe : SafeWrites s.txs s.chain writes) (agrees : continue_.Agrees s.txs s.chain)
    (done : (match applyWrites s.rows writes with
      | some rows => some ({ s with rows }.setPc i task continue_)
      | none => some (s.setPc i task .finished)) = some next) : Sound next := by
  split at done
  next rows applied =>
    cases done
    rcases sound.commit safe applied with ⟨committed, same⟩
    exact committed.setPc (same ▸ agrees)
  next =>
    cases done
    exact sound.setPc trivial

theorem taskStep_sound {resubmitAfter : Nat} (sound : Sound s) (here : s.tasks[i]? = some task)
    (careful : CarefulAt s task.pc event)
    (done : taskStep resubmitAfter s i task event = some next) : Sound next := by
  have agrees : task.pc.Agrees s.txs s.chain :=
    sound.tasks task (List.mem_of_getElem? here)
  cases event with
  | request | poll | crash | mine | mineOther => cases done
  | dropped =>
      cases done
      exact sound.setPc trivial
  | receipt _ fails =>
      simp only [taskStep] at done
      split at done
      next purpose row todo seen writes pc =>
        rw [pc] at agrees
        split at done
        · cases done
          exact sound.setPc ⟨recorded_moved agrees.1 row.status, agrees.2⟩
        · cases done
          exact sound.setPc (afterReceipt_agrees sound agrees)
      next row r todo pc =>
        rw [pc] at agrees careful
        rcases agrees with ⟨recorded, retirable⟩
        split at done
        next found =>
          cases done
          exact sound.setPc (foundWrites_safe sound (recorded row (.head _))
            (recorded r (.tail _ (.head _))) found.2)
        next missed =>
          cases done
          refine sound.setPc ⟨fun r' here => recorded r' ?_, retirable.imp_right ?_⟩
          · rcases List.mem_cons.mp here with rfl | later
            · exact .head _
            · exact .tail _ (.tail _ later)
          · rintro ⟨succeeded, other, there, same⟩
            refine ⟨succeeded, other, ?_, same⟩
            -- the head has not succeeded, or its receipt was read
            rcases List.mem_cons.mp there with rfl | later
            · rw [← same] at succeeded
              cases fails with
              | true => exact absurd succeeded careful
              | false => exact absurd ⟨Bool.false_ne_true, succeeded⟩ missed
            · exact later
      next => cases done
  | latestNonce _ fails =>
      simp only [taskStep] at done
      split at done
      next purpose row todo seen writes pc =>
        rw [pc] at agrees careful
        cases fails with
        | true =>
            cases done
            exact sound.setPc ⟨recorded_moved agrees.1 row.status, agrees.2⟩
        | false =>
            cases done
            exact sound.setPc (afterNonce_agrees agrees careful)
      next => cases done
  | commit =>
      simp only [taskStep] at done
      split at done
      next purpose seen writes pc =>
        rw [pc] at agrees
        exact sound.commit_cases agrees.2.safe (afterRefresh_agrees agrees.1) done
      next writes pc =>
        rw [pc] at agrees
        exact sound.commit_cases agrees finished_agrees done
      next row pc =>
        rw [pc] at agrees
        refine sound.commit_cases (.single (agrees.1 row (.head _)) fun _ => ?_) finished_agrees done
        rcases agrees.2 with never | ⟨-, _, there, -⟩
        · exact never
        · cases there
      next tx pc =>
        split at done
        · cases done
          exact sound.setManager.setPc (selectLive_agrees sound.setManager .conflict)
        next none =>
          cases done
          have grown := sound.insert ⟨s.rows.length, tx, .sending, task.now⟩ rfl
            (Bool.eq_false_of_not_eq_true none)
          refine grown.setPc (grown.recorded ?_)
          exact List.mem_append_right _ (.head _)
      next => cases done
  | estimated _ fine =>
      simp only [taskStep] at done
      split at done
      · cases done
        refine sound.setPc ?_
        split <;> trivial
      · cases done
  | entered _ leader =>
      simp only [taskStep] at done
      split at done
      · split at done
        · split at done
          · cases done
            exact sound.setPc (selectLive_agrees sound .locked)
          · cases done
            exact sound.setPc trivial
        · cases done
      · cases done
  | reserved _ pending floor terms =>
      simp only [taskStep] at done
      split at done
      · split at done
        · cases done
          exact sound.setManager.setPc trivial
        · cases done
          exact sound.setPc trivial
      · cases done
  | answered _ answer accepted =>
      simp only [taskStep] at done
      split at done
      · cases done
      next =>
        split at done
        next row pc =>
          cases done
          rw [pc] at agrees careful
          have reached : Sound (s.reach row.tx accepted) := sound.reach careful.2
          refine reached.setManager.setPc ?_
          change (afterBroadcast row answer).Agrees (s.reach row.tx accepted).txs _
          rw [State.reach_txs]
          exact afterBroadcast_agrees agrees careful.1
        next row pc =>
          cases done
          rw [pc] at agrees careful
          have reached : Sound (s.reach row.tx accepted) := sound.reach careful
          refine reached.setPc (afterRebroadcast_agrees answer ?_)
          rw [State.reach_txs]
          exact agrees
        next => cases done
  | resynced _ pending =>
      simp only [taskStep] at done
      split at done
      next row pc =>
        rw [pc] at agrees
        split at done
        · cases done
          exact sound.setManager.setPc (selectFailed_agrees sound.setManager agrees)
        · cases done
          exact sound.setPc trivial
      next => cases done

/-! ### Runs -/

/-- A step in which what the tasks learn is not outdated when they act on it. -/
def CarefulStep (resubmitAfter : Nat) (s : State) (event : Event) (next : State) : Prop :=
  step resubmitAfter s event = some next ∧ Careful s event

theorem Initial.sound (initial : Initial s) : Sound s where
  ordered := ⟨fun tx mined => absurd (initial.unmined tx) mined,
    fun tx _ mined => absurd (initial.unmined tx) mined⟩
  indexed i row at_i := by
    rw [initial.rows] at at_i
    cases at_i
  unique := by rw [initial.rows]; decide
  covered tx viable := by
    rcases viable with succeeded | ⟨-, accepted, -⟩
    · rw [initial.unmined tx] at succeeded
      cases succeeded
    · rw [initial.unsent tx] at accepted
      cases accepted
  tasks task here := by
    rw [initial.tasks] at here
    cases here

/-- A new task knows what the database has. -/
theorem Sound.spawn (sound : Sound s) (agrees : task.pc.Agrees s.txs s.chain) :
    Sound { s with tasks := s.tasks ++ [task] } where
  ordered := sound.ordered
  indexed := sound.indexed
  unique := sound.unique
  covered := sound.covered
  tasks other here := by
    rcases List.mem_append.mp here with old | new
    · exact sound.tasks other old
    · rw [List.mem_singleton] at new
      subst new
      exact agrees

theorem Sound.step {resubmitAfter : Nat} (sound : Sound s)
    (taken : CarefulStep resubmitAfter s event next) : Sound next := by
  rcases taken with ⟨done, careful⟩
  cases event with
  | request =>
      cases done
      exact sound.spawn (selectLive_agrees sound .fast)
  | poll process now id =>
      simp only [Emissions.step] at done
      split at done
      next row found =>
        cases done
        refine sound.spawn ⟨fun r here => ?_, fun w written => absurd written List.not_mem_nil⟩
        rw [List.append_nil, List.mem_singleton] at here
        subst here
        exact sound.recorded (List.mem_of_find?_eq_some found)
      next => cases done
  | crash =>
      cases done
      refine ⟨sound.ordered, sound.indexed, sound.unique, sound.covered, fun task here => ?_⟩
      rcases List.mem_map.mp here with ⟨old, old_here, rfl⟩
      split
      · rw [Task.withPc_pc]
        trivial
      · exact sound.tasks old old_here
  | mine tx success =>
      simp only [Emissions.step] at done
      split at done
      next minable =>
        cases done
        exact sound.mine minable
      next => cases done
  | mineOther =>
      cases done
      exact sound.mineOther
  | receipt i | latestNonce i | commit i | estimated i | entered i | reserved i | answered i
  | resynced i | dropped i =>
      simp only [Emissions.step, Event.task] at done
      split at done
      next task here => exact taskStep_sound sound here (careful i rfl task here) done
      next => cases done

/-- Over a run of careful steps a distribution is paid at most once: any two of its
transactions that succeeded are the same one. -/
theorem distribution_paid_once {resubmitAfter : Nat} {first : State} {events : List Event}
    (initial : Initial first) (path : Run (CarefulStep resubmitAfter) first events s)
    {t t' : Tx} (paid : s.chain.outcome t = some true) (paid' : s.chain.outcome t' = some true) :
    t = t' :=
  (path.invariant initial.sound fun _ _ _ sound taken => sound.step taken).viable_unique
    (.of_succeeded paid) (.of_succeeded paid')

/-- Nothing distributed yet. -/
def State.sample : State where
  rows := []
  tasks := []
  managers _ := .fresh
  chain := ⟨0, fun _ => none, fun _ => false⟩

theorem State.sample_initial : Initial .sample := ⟨rfl, rfl, fun _ => rfl, fun _ => rfl⟩

/-- Request number `i` at time `now` up to its first broadcast, which a node takes. -/
def sampleRequest (i now nonce : Nat) : List Event :=
  [.request 0 now, .commit i, .estimated i true, .entered i true, .commit i,
    .reserved i (some nonce) none 7, .commit i, .answered i none true, .commit i]

/-- The theorem over a request whose transaction is mined and a repeat of it. -/
theorem distribution_paid_once_repeated :
    ∃ s : State, s.chain.outcome ⟨0, 7⟩ = some true ∧
      ∀ t, s.chain.outcome t = some true → t = ⟨0, 7⟩ := by
  let events := sampleRequest 0 0 0 ++
    [.mine ⟨0, 7⟩ true, .request 0 100, .receipt 1 false, .commit 1]
  let act := fun s event => if Careful s event then step 60 s event else none
  have careful : ∀ s event next, act s event = some next → CarefulStep 60 s event next := by
    intro s event next done
    simp only [act] at done
    split at done
    next careful => exact ⟨done, careful⟩
    next => cases done
  have paid : (events.foldlM act .sample).map (fun s => s.chain.outcome ⟨0, 7⟩) =
      some (some true) := by
    decide +kernel
  rcases Option.map_eq_some_iff.mp paid with ⟨s, done, paid⟩
  exact ⟨s, paid, fun t paid' =>
    distribution_paid_once State.sample_initial (.of_foldlM careful done) paid' paid⟩

/-- A poll reads no receipt, the transaction is mined, the poll reads a mined nonce past
it and fails the row, and a second request pays again. -/
theorem distribution_paid_twice :
    ∃ events s, Initial .sample ∧
      Run (fun s event next => step 60 s event = some next) .sample events s ∧
      s.chain.outcome ⟨0, 7⟩ = some true ∧ s.chain.outcome ⟨1, 7⟩ = some true := by
  let events := sampleRequest 0 0 0 ++
    [.poll 0 100 0, .receipt 1 false, .mine ⟨0, 7⟩ true, .latestNonce 1 false, .commit 1] ++
    sampleRequest 2 200 1 ++ [.mine ⟨1, 7⟩ true]
  have paid : (events.foldlM (step 60) .sample).map
      (fun s => (s.chain.outcome ⟨0, 7⟩, s.chain.outcome ⟨1, 7⟩)) =
        some (some true, some true) := by
    decide +kernel
  rcases Option.map_eq_some_iff.mp paid with ⟨s, done, paid⟩
  rw [Prod.mk.injEq] at paid
  exact ⟨events, s, State.sample_initial, .of_foldlM (fun _ _ _ taken => taken) done, paid⟩

end OverUnder.Backend.Emissions
