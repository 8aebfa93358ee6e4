/-
Module: OverUnder.Proofs.SignIns
Purpose: A nonce signs in once and a signed message is accepted once, however the requests
  are interleaved, and only the address of the operator key is an operator.
Trusted boundary: none
Main exports: Unguessed, Stepped, Pc.spends, Sound, Frame, Guarded, Guarded.step, Consumed,
  signed_login_works_once
-/
import Mathlib
import OverUnder.Library.Reachable
import OverUnder.Backend.Auth

namespace OverUnder.Backend.Auth

open OverUnder.Library

variable {env : Env} {s s' : State} {i : Nat} {pc pc' : Pc} {event : Event}

/-- A nonce is new when it is committed, and in no message presented before. -/
def Unguessed (s : State) (event : Event) : Prop :=
  ∀ i address value, event = .advance i →
    s.requests[i]? = some (.nonceCommit address value) →
    value ∉ s.issued.map Prod.snd ∧ ∀ message ∈ s.presented, within value message = false

/-- A step of some request. -/
def Stepped (env : Env) (s s' : State) : Prop :=
  ∃ event, Unguessed s event ∧ step env s event = some s'

namespace Pc

/-- The login whose nonce the request read and has not deleted. -/
def reads : Pc → Option Login
  | .siweDelete login => some login
  | .siweCommit login _ => some login
  | _ => none

/-- The login whose nonce the request deleted. -/
def spends : Pc → Option Login
  | .siweUser login => some login
  | .siweWrite login _ => some login
  | .siweRefresh login => some login
  | .signedIn login _ => some login
  | _ => none

/-- The row a request has written and not committed. -/
def holds : Pc → Option String
  | .nonceCommit address _ => some address
  | .siweCommit login 1 => some login.addr
  | _ => none

end Pc

/-- The login is signed by its address and names a nonce issued for it. -/
structure Sound (env : Env) (s : State) (login : Login) : Prop where
  signed : signer env login.body = .ok login.addr
  named : within login.nonce login.body.message = true
  issued : (login.addr, login.nonce) ∈ s.issued
  presented : login.body.message ∈ s.presented

/-- The nonce of the login is gone, and its message names none that may come. -/
structure Spent (env : Env) (s : State) (login : Login) : Prop extends Sound env s login where
  gone : ∀ addr, s.nonces addr ≠ some login.nonce
  stale : ∀ nonce, s.nonces login.addr = some nonce → within nonce login.body.message = false

/-- What a request relies on. -/
structure Fine (env : Env) (s : State) (i : Nat) (pc : Pc) : Prop where
  held : ∀ addr, pc.holds = some addr → s.locks addr = some i
  due : ∀ login, pc = .siweCommit login 1 → s.nonces login.addr = some login.nonce
  asked : ∀ body addr, pc = .siweGet body addr →
    signer env body = .ok addr ∧ body.message ∈ s.presented
  read : ∀ login, pc.reads = some login → Sound env s login
  spent : ∀ login, pc.spends = some login → Spent env s login
  answered : ∀ login token, pc = .signedIn login token → token.sub = env.lower login.addr

/-- Two logins on one nonce, or on one message of one address. -/
def Login.Repeats (login login' : Login) : Prop :=
  login.nonce = login'.nonce ∨
    login.body.message = login'.body.message ∧ login.addr = login'.addr

structure Guarded (env : Env) (s : State) : Prop where
  operators : ∀ addr user, s.users addr = some user → user.isOperator = true →
    isOperator env addr = true
  row : ∀ addr nonce, s.nonces addr = some nonce → (addr, nonce) ∈ s.issued
  distinct : (s.issued.map Prod.snd).Nodup
  fine : ∀ i pc, s.requests[i]? = some pc → Fine env s i pc
  once : ∀ (i j : Nat) (pc pc' : Pc) (login login' : Login), s.requests[i]? = some pc →
    s.requests[j]? = some pc' → pc.spends = some login → pc'.spends = some login' →
    login.Repeats login' → i = j

theorem Login.Repeats.symm {login login' : Login} (repeats : login.Repeats login') :
    login'.Repeats login := by
  rcases repeats with same | ⟨message, addr⟩
  · exact .inl same.symm
  · exact .inr ⟨message.symm, addr.symm⟩

/-- What request `i` leaves to the others: their locks and the rows under them, and no nonce
that was seen before. -/
structure Frame (s s' : State) (i : Nat) : Prop where
  held : ∀ j addr, j ≠ i → s.locks addr = some j →
    s'.locks addr = some j ∧ s'.nonces addr = s.nonces addr
  issued : ∀ entry ∈ s.issued, entry ∈ s'.issued
  presented : ∀ message ∈ s.presented, message ∈ s'.presented
  nonces : ∀ addr nonce, s'.nonces addr = some nonce → s.nonces addr = some nonce ∨
    nonce ∉ s.issued.map Prod.snd ∧ ∀ message ∈ s.presented, within nonce message = false

theorem Sound.carry {login : Login} (sound : Sound env s login) (frame : Frame s s' i) :
    Sound env s' login :=
  ⟨sound.signed, sound.named, frame.issued _ sound.issued, frame.presented _ sound.presented⟩

theorem Spent.carry {login : Login} (spent : Spent env s login) (frame : Frame s s' i) :
    Spent env s' login := by
  refine ⟨spent.toSound.carry frame, fun addr here => ?_, fun nonce here => ?_⟩
  · rcases frame.nonces addr _ here with before | ⟨unseen, -⟩
    · exact spent.gone addr before
    · exact unseen (List.mem_map_of_mem spent.issued)
  · rcases frame.nonces _ nonce here with before | ⟨-, unguessed⟩
    · exact spent.stale nonce before
    · exact unguessed _ spent.presented

theorem Fine.carry {j : Nat} (fine : Fine env s j pc) (frame : Frame s s' i) (other : j ≠ i) :
    Fine env s' j pc := by
  refine ⟨fun addr holds => ?_, ?_, fun body addr same => ?_, fun login reads => ?_,
    fun login spends => ?_, fine.answered⟩
  · exact (frame.held j addr other (fine.held addr holds)).1
  · rintro login rfl
    rw [(frame.held j login.addr other (fine.held _ rfl)).2]
    exact fine.due login rfl
  · rcases fine.asked body addr same with ⟨signed, presented⟩
    exact ⟨signed, frame.presented _ presented⟩
  · exact (fine.read login reads).carry frame
  · exact (fine.spent login spends).carry frame

/-- A request that waits for nothing and has spent nothing. -/
theorem Fine.idle (holds : pc.holds = none) (reads : pc.reads = none) (spends : pc.spends = none)
    (asked : ∀ body addr, pc = .siweGet body addr →
      signer env body = .ok addr ∧ body.message ∈ s.presented) : Fine env s i pc := by
  refine ⟨fun addr same => ?_, ?_, asked, fun login same => ?_, fun login same => ?_, ?_⟩
  · rw [holds] at same
    cases same
  · rintro login rfl
    cases holds
  · rw [reads] at same
    cases same
  · rw [spends] at same
    cases same
  · rintro login token rfl
    cases spends

/-- A request that only goes on with what it spent. -/
theorem Fine.spending {login : Login} (spent : Spent env s login) (holds : pc.holds = none)
    (reads : pc.reads = none) (spends : pc.spends = some login)
    (answered : ∀ login token, pc = .signedIn login token → token.sub = env.lower login.addr) :
    Fine env s i pc := by
  refine ⟨fun addr same => ?_, ?_, ?_, fun login same => ?_, fun login' same => ?_, answered⟩
  · rw [holds] at same
    cases same
  · rintro login rfl
    cases holds
  · rintro body addr rfl
    cases spends
  · rw [reads] at same
    cases same
  · rw [spends, Option.some.injEq] at same
    rw [← same]
    exact spent

/-- A request after one moved is that one, or another as it was. -/
theorem mem_set {requests : List Pc} {j : Nat} {q : Pc}
    (there : (requests.set i pc')[j]? = some q) :
    j = i ∧ q = pc' ∨ j ≠ i ∧ requests[j]? = some q := by
  rw [List.getElem?_set] at there
  by_cases here : i = j
  · rw [if_pos here] at there
    split at there
    · exact .inl ⟨here.symm, (Option.some.inj there).symm⟩
    · cases there
  · rw [if_neg here] at there
    exact .inr ⟨fun same => here same.symm, there⟩

/-- A request after one arrived is that one, or an old one. -/
theorem mem_append {requests : List Pc} {j : Nat} {q : Pc}
    (there : (requests ++ [pc])[j]? = some q) :
    q = pc ∨ j ≠ requests.length ∧ requests[j]? = some q := by
  by_cases old : j < requests.length
  · rw [List.getElem?_append_left old] at there
    exact .inr ⟨Nat.ne_of_lt old, there⟩
  · rw [List.getElem?_append_right (Nat.le_of_not_lt old), List.getElem?_singleton] at there
    split at there
    · exact .inl (Option.some.inj there).symm
    · cases there

theorem crash_requests (done : crash s i pc = some s') :
    s'.requests = s.requests.set i (.done .failed) := by
  unfold crash at done
  split at done
  · cases done
  · cases done
  · cases done
    rfl

namespace Guarded

/-- The nonce in one row was issued for no other. -/
theorem row_unique (inv : Guarded env s) {addr addr' nonce : String}
    (here : s.nonces addr = some nonce) (there : (addr', nonce) ∈ s.issued) : addr' = addr :=
  congrArg Prod.fst (List.inj_on_of_nodup_map inv.distinct there (inv.row _ _ here) rfl)

/-- Request `i` goes from `pc` to `pc'` within its frame. -/
theorem move (inv : Guarded env s) (was : s.requests[i]? = some pc)
    (requests : s'.requests = s.requests.set i pc') (frame : Frame s s' i)
    (fine : Fine env s' i pc')
    (fresh : pc'.spends = pc.spends ∨ ∀ login, pc'.spends = some login →
      ∀ (j : Nat) (q : Pc) login', s.requests[j]? = some q → q.spends = some login' →
        ¬login.Repeats login')
    (operators : ∀ addr user, s'.users addr = some user → user.isOperator = true →
      isOperator env addr = true)
    (row : ∀ addr nonce, s'.nonces addr = some nonce → (addr, nonce) ∈ s'.issued)
    (distinct : (s'.issued.map Prod.snd).Nodup) : Guarded env s' := by
  have mem : ∀ (j : Nat) (q : Pc), s'.requests[j]? = some q →
      j = i ∧ q = pc' ∨ j ≠ i ∧ s.requests[j]? = some q := by
    intro j q there
    rw [requests] at there
    exact mem_set there
  -- A login of the moved request repeats one of another request in no case.
  have alone : ∀ (j : Nat) (q : Pc) login login', j ≠ i → s.requests[j]? = some q →
      q.spends = some login' →
      pc'.spends = some login → ¬login.Repeats login' := by
    intro j q login login' other there spends new repeats
    rcases fresh with same | fresh
    · rw [same] at new
      exact other (inv.once _ _ _ _ _ _ was there new spends repeats).symm
    · exact fresh login new j q login' there spends repeats
  refine ⟨operators, row, distinct, ?_, ?_⟩
  · intro j q there
    rcases mem j q there with ⟨rfl, rfl⟩ | ⟨other, there⟩
    · exact fine
    · exact (inv.fine j q there).carry frame other
  · intro j k q q' login login' there there' spends spends' repeats
    rcases mem j q there with ⟨rfl, rfl⟩ | ⟨other, there⟩
    · rcases mem k q' there' with ⟨rfl, rfl⟩ | ⟨other', there'⟩
      · rfl
      · exact absurd repeats (alone k q' login login' other' there' spends' spends)
    · rcases mem k q' there' with ⟨rfl, rfl⟩ | ⟨other', there'⟩
      · exact absurd repeats.symm (alone j q login' login other there spends spends')
      · exact inv.once j k q q' login login' there there' spends spends' repeats

/-- A request that writes nothing. -/
theorem goto (inv : Guarded env s) (was : s.requests[i]? = some pc) (fine : Fine env s i pc')
    (spends : pc'.spends = none ∨ pc'.spends = pc.spends) : Guarded env (s.goto i pc') := by
  have frame : Frame s (s.goto i pc') i :=
    ⟨fun _ _ _ held => ⟨held, rfl⟩, fun _ => id, fun _ => id, fun _ _ => .inl⟩
  refine inv.move was rfl frame ?_ ?_ inv.operators inv.row inv.distinct
  · exact ⟨fine.held, fine.due, fine.asked, fun login reads => (fine.read login reads).carry frame,
      fun login spends => (fine.spent login spends).carry frame, fine.answered⟩
  · rcases spends with none | same
    · exact .inr fun login new => by rw [none] at new; cases new
    · exact .inl same

/-- A request that writes the flag of a user as the settings say, or clears it. -/
theorem setUser (inv : Guarded env s) (addr : String) (user : User)
    (flag : user.isOperator = true → isOperator env addr = true) :
    Guarded env (s.setUser addr user) := by
  refine ⟨fun addr' user' there operator => ?_, inv.row, inv.distinct, fun i pc there => ?_,
    inv.once⟩
  · by_cases here : addr' = addr
    · subst here
      simp only [State.setUser, Function.update_self, Option.some.injEq] at there
      subst there
      exact flag operator
    · simp only [State.setUser, Function.update_of_ne here] at there
      exact inv.operators addr' user' there operator
  · rcases inv.fine i pc there with ⟨held, due, asked, read, spent, answered⟩
    have frame : Frame s (s.setUser addr user) i :=
      ⟨fun _ _ _ held => ⟨held, rfl⟩, fun _ => id, fun _ => id, fun _ _ => .inl⟩
    exact ⟨held, due, asked, fun login reads => (read login reads).carry frame,
      fun login spends => (spent login spends).carry frame, answered⟩

/-- A request that locks a free row. -/
theorem lock (inv : Guarded env s) {addr : String} (was : s.requests[i]? = some pc)
    (free : s.locks addr = none) (holds : pc'.holds = some addr)
    (due : ∀ login, pc' = .siweCommit login 1 → s.nonces login.addr = some login.nonce)
    (read : ∀ login, pc'.reads = some login → Sound env s login) (spends : pc'.spends = none) :
    Guarded env ((s.setLock addr (some i)).goto i pc') := by
  have frame : Frame s ((s.setLock addr (some i)).goto i pc') i := by
    refine ⟨fun j addr' other held => ⟨?_, rfl⟩, fun _ => id, fun _ => id, fun _ _ => .inl⟩
    have elsewhere : addr' ≠ addr := by
      rintro rfl
      rw [free] at held
      cases held
    simpa only [State.goto, State.setLock, Function.update_of_ne elsewhere] using held
  refine inv.move was rfl frame
    ⟨?_, due, ?_, fun login reads => (read login reads).carry frame, ?_, ?_⟩
    (.inr fun login new => by rw [spends] at new; cases new) inv.operators inv.row inv.distinct
  · intro addr' takes
    rw [holds, Option.some.injEq] at takes
    subst takes
    simp only [State.goto, State.setLock, Function.update_self]
  · rintro body addr' rfl
    cases holds
  · intro login new
    rw [spends] at new
    cases new
  · rintro login token rfl
    cases holds

/-- The commit of a nonce nobody guessed. -/
theorem commitNonce (inv : Guarded env s) {address value : String}
    (was : s.requests[i]? = some (.nonceCommit address value))
    (unseen : value ∉ s.issued.map Prod.snd)
    (unguessed : ∀ message ∈ s.presented, within value message = false)
    (done : advance env s i (.nonceCommit address value) = some s') : Guarded env s' := by
  simp only [advance, Option.some.injEq] at done
  subst done
  have held := (inv.fine i _ was).held address rfl
  refine inv.move was rfl ⟨fun j addr other locked => ?_, fun entry => List.mem_append_left _,
    fun _ => id, fun addr nonce here => ?_⟩ (.idle rfl rfl rfl nofun) (.inl rfl) inv.operators
    (fun addr nonce here => ?_) ?_
  · have elsewhere : addr ≠ address := by
      rintro rfl
      rw [held, Option.some.injEq] at locked
      exact other locked.symm
    simp only [State.goto, State.setLock, State.setNonce, Function.update_of_ne elsewhere]
    exact ⟨locked, trivial⟩
  · simp only [State.goto, State.setLock, State.setNonce] at here
    by_cases own : addr = address
    · rw [own, Function.update_self, Option.some.injEq] at here
      rw [← here]
      exact .inr ⟨unseen, unguessed⟩
    · rw [Function.update_of_ne own] at here
      exact .inl here
  · simp only [State.goto, State.setLock, State.setNonce] at here ⊢
    by_cases own : addr = address
    · rw [own, Function.update_self, Option.some.injEq] at here
      rw [own, here]
      exact List.mem_append_right _ (List.mem_singleton_self _)
    · rw [Function.update_of_ne own] at here
      exact List.mem_append_left _ (inv.row addr nonce here)
  · simp only [State.goto, List.map_append, List.map_singleton]
    refine List.nodup_append.mpr ⟨inv.distinct, List.nodup_singleton _, ?_⟩
    rintro old listed new same rfl
    rw [List.mem_singleton.mp same] at listed
    exact unseen listed

/-- The commit of the DELETE of a nonce. -/
theorem commitDelete (inv : Guarded env s) {login : Login}
    (was : s.requests[i]? = some (.siweCommit login 1)) :
    Guarded env (((s.setNonce login.addr none).setLock login.addr none).goto i
      (.siweUser login)) := by
  have held := (inv.fine i _ was).held login.addr rfl
  have due := (inv.fine i _ was).due login rfl
  have sound := (inv.fine i _ was).read login rfl
  have kept : ∀ addr nonce, (s.setNonce login.addr none).nonces addr = some nonce →
      s.nonces addr = some nonce ∧ addr ≠ login.addr := by
    intro addr nonce here
    simp only [State.setNonce] at here
    by_cases own : addr = login.addr
    · rw [own, Function.update_self] at here
      cases here
    · rw [Function.update_of_ne own] at here
      exact ⟨here, own⟩
  have frame : Frame s (((s.setNonce login.addr none).setLock login.addr none).goto i
      (.siweUser login)) i := by
    refine ⟨fun j addr other locked => ?_, fun _ => id, fun _ => id,
      fun addr nonce here => .inl (kept addr nonce here).1⟩
    have elsewhere : addr ≠ login.addr := by
      rintro rfl
      rw [held, Option.some.injEq] at locked
      exact other locked.symm
    simp only [State.goto, State.setLock, State.setNonce, Function.update_of_ne elsewhere]
    exact ⟨locked, trivial⟩
  have spent : Spent env (((s.setNonce login.addr none).setLock login.addr none).goto i
      (.siweUser login)) login := by
    refine ⟨sound.carry frame, fun addr here => ?_,
      fun nonce here => absurd rfl (kept login.addr nonce here).2⟩
    rcases kept addr _ here with ⟨before, other⟩
    exact other (inv.row_unique before sound.issued).symm
  refine inv.move was rfl frame (.spending spent rfl rfl rfl nofun) (.inr ?_) inv.operators
    (fun addr nonce here => inv.row addr nonce (kept addr nonce here).1) inv.distinct
  rintro login' new j q login'' there spends repeats
  simp only [Pc.spends, Option.some.injEq] at new
  subst new
  have old := (inv.fine j q there).spent login'' spends
  rcases repeats with same | ⟨message, addr⟩
  · exact old.gone login.addr (same ▸ due)
  · have stale := old.stale login.nonce (addr ▸ due)
    rw [← message, sound.named] at stale
    cases stale

/-- A statement of a request keeps the guard. -/
theorem advance (inv : Guarded env s) (was : s.requests[i]? = some pc)
    (unguessed : Unguessed s (.advance i)) (done : Auth.advance env s i pc = some s') :
    Guarded env s' := by
  have fine := inv.fine i pc was
  have issued : ∀ {login : Login} {op : Bool} (login' : Login) token,
      Pc.signedIn login (issue env login.addr op) = .signedIn login' token →
        token.sub = env.lower login'.addr := by
    rintro login op _ _ same
    cases same
    rfl
  cases pc with
  | nonceGet address value =>
      simp only [Auth.advance, Option.some.injEq] at done
      rw [← done]
      exact inv.goto was (.idle rfl rfl rfl nofun) (.inl rfl)
  | nonceWrite address value row =>
      simp only [Auth.advance] at done
      split at done
      · cases done
      · next free =>
        split at done
        · cases done
          exact inv.goto was (.idle rfl rfl rfl nofun) (.inl rfl)
        · cases done
          exact inv.lock was (of_not_not free) rfl nofun nofun rfl
  | nonceCommit address value =>
      rcases unguessed i address value rfl was with ⟨unseen, unguessed⟩
      exact inv.commitNonce was unseen unguessed done
  | siweGet body addr =>
      rcases fine.asked body addr rfl with ⟨signed, presented⟩
      simp only [Auth.advance] at done
      split at done
      · cases done
        exact inv.goto was (.idle rfl rfl rfl nofun) (.inl rfl)
      · next nonce here =>
        split at done
        · cases done
          exact inv.goto was (.idle rfl rfl rfl nofun) (.inl rfl)
        · next named =>
          cases done
          refine inv.goto was ⟨nofun, nofun, nofun, ?_, nofun, nofun⟩ (.inl rfl)
          intro login reads
          cases reads
          exact ⟨signed, (Bool.not_eq_false _).mp named, inv.row addr nonce here, presented⟩
  | siweDelete login =>
      have sound := fine.read login rfl
      simp only [Auth.advance] at done
      split at done
      · cases done
      · next free =>
        split at done
        · next due =>
          cases done
          refine inv.lock was (of_not_not free) rfl ?_ ?_ rfl
          · rintro login' same
            cases same
            exact due
          · intro login' reads
            cases reads
            exact sound
        · cases done
          refine inv.goto was ⟨nofun, nofun, nofun, ?_, nofun, nofun⟩ (.inl rfl)
          intro login' reads
          cases reads
          exact sound
  | siweCommit login rowcount =>
      simp only [Auth.advance] at done
      split at done
      · cases done
        exact inv.goto was (.idle rfl rfl rfl nofun) (.inl rfl)
      · next deleted =>
        cases done
        rw [of_not_not deleted] at was
        exact inv.commitDelete was
  | siweUser login =>
      simp only [Auth.advance, Option.some.injEq] at done
      rw [← done]
      exact inv.goto was (.spending (fine.spent login rfl) rfl rfl rfl nofun) (.inr rfl)
  | siweWrite login user =>
      simp only [Auth.advance] at done
      split at done
      · cases done
        have written := inv.setUser login.addr ⟨isOperator env login.addr, ""⟩ id
        exact written.goto was
          (.spending ((written.fine i _ was).spent login rfl) rfl rfl rfl nofun) (.inr rfl)
      · cases done
        exact inv.goto was (.idle rfl rfl rfl nofun) (.inl rfl)
      · next user =>
        split at done
        · cases done
          exact inv.goto was (.spending (fine.spent login rfl) rfl rfl rfl issued) (.inr rfl)
        · split at done
          · cases done
            exact inv.goto was (.idle rfl rfl rfl nofun) (.inl rfl)
          · next row there =>
            cases done
            have written := inv.setUser login.addr
              ⟨isOperator env login.addr, row.cdpUserId⟩ id
            exact written.goto was
              (.spending ((written.fine i _ was).spent login rfl) rfl rfl rfl issued) (.inr rfl)
  | siweRefresh login =>
      simp only [Auth.advance] at done
      split at done
      · cases done
        exact inv.goto was (.idle rfl rfl rfl nofun) (.inl rfl)
      · cases done
        exact inv.goto was (.spending (fine.spent login rfl) rfl rfl rfl issued) (.inr rfl)
  | cdpUser addr userId =>
      simp only [Auth.advance, Option.some.injEq] at done
      rw [← done]
      exact inv.goto was (.idle rfl rfl rfl nofun) (.inl rfl)
  | cdpWrite addr userId user =>
      simp only [Auth.advance] at done
      split at done
      · cases done
        exact (inv.setUser addr ⟨false, userId⟩ nofun).goto was (.idle rfl rfl rfl nofun) (.inl rfl)
      · cases done
        exact inv.goto was (.idle rfl rfl rfl nofun) (.inl rfl)
      · cases done
        exact inv.goto was (.idle rfl rfl rfl nofun) (.inl rfl)
      · next seen row there =>
        cases done
        refine (inv.setUser addr _ fun flag => ?_).goto was (.idle rfl rfl rfl nofun) (.inl rfl)
        split at flag
        · cases flag
        · exact inv.operators addr row there flag
  | signedIn login token => cases done
  | done response => cases done

/-- A request that is cut short gives its locks back. -/
theorem crash (inv : Guarded env s) (was : s.requests[i]? = some pc)
    (done : Auth.crash s i pc = some s') : Guarded env s' := by
  have cut : s' = { s with
      locks := fun addr => if s.locks addr = some i then none else s.locks addr }.goto i
        (.done .failed) := by
    unfold Auth.crash at done
    split at done
    · cases done
    · cases done
    · exact (Option.some.inj done).symm
  subst cut
  refine inv.move was rfl ⟨fun j addr other locked => ⟨?_, rfl⟩, fun _ => id, fun _ => id,
    fun _ _ => .inl⟩ (.idle rfl rfl rfl nofun) (.inr nofun) inv.operators inv.row inv.distinct
  have elsewhere : s.locks addr ≠ some i := by
    rw [locked]
    exact fun same => other (Option.some.inj same)
  simp only [State.goto, if_neg elsewhere]
  exact locked

/-- A new request, which may present a message. -/
theorem arrive (inv : Guarded env s) (pc : Pc) (messages : List String)
    (fine : ∀ i, Fine env { s with
      requests := s.requests ++ [pc], presented := s.presented ++ messages } i pc)
    (spends : pc.spends = none) : Guarded env { s with
      requests := s.requests ++ [pc], presented := s.presented ++ messages } := by
  have frame : Frame s { s with
      requests := s.requests ++ [pc], presented := s.presented ++ messages } s.requests.length :=
    ⟨fun _ _ _ held => ⟨held, rfl⟩, fun _ => id, fun _ => List.mem_append_left _,
      fun _ _ => .inl⟩
  refine ⟨inv.operators, inv.row, inv.distinct, ?_, ?_⟩
  · intro j q there
    rcases mem_append there with rfl | ⟨other, there⟩
    · exact fine j
    · exact (inv.fine j q there).carry frame other
  · intro j k q q' login login' there there' new new' repeats
    rcases mem_append there with rfl | ⟨-, there⟩
    · rw [spends] at new
      cases new
    · rcases mem_append there' with rfl | ⟨-, there'⟩
      · rw [spends] at new'
        cases new'
      · exact inv.once j k q q' login login' there there' new new' repeats

theorem step (inv : Guarded env s) (unguessed : Unguessed s event)
    (done : Auth.step env s event = some s') : Guarded env s' := by
  cases event with
  | nonce address value =>
      simp only [Auth.step, Option.some.injEq] at done
      have arrived := inv.arrive (.nonceGet (env.lower address) value) []
        (fun i => .idle rfl rfl rfl nofun) rfl
      rw [List.append_nil] at arrived
      rw [← done]
      exact arrived
  | siwe body =>
      simp only [Auth.step, Option.some.injEq] at done
      rw [← done]
      cases signed : signer env body with
      | error why => exact inv.arrive _ _ (fun i => .idle rfl rfl rfl nofun) rfl
      | ok addr =>
          refine inv.arrive _ _ (fun i => .idle rfl rfl rfl ?_) rfl
          intro body' addr' same
          cases same
          exact ⟨signed, List.mem_append_right _ (List.mem_singleton_self _)⟩
  | cdp smartAccount userId =>
      simp only [Auth.step, Option.some.injEq] at done
      have arrived := inv.arrive (.cdpUser (env.lower smartAccount) userId) []
        (fun i => .idle rfl rfl rfl nofun) rfl
      rw [List.append_nil] at arrived
      rw [← done]
      exact arrived
  | advance i =>
      rcases Option.bind_eq_some_iff.mp done with ⟨pc, was, done⟩
      exact inv.advance was unguessed done
  | crash i =>
      rcases Option.bind_eq_some_iff.mp done with ⟨pc, was, done⟩
      exact inv.crash was done

theorem initial (initial : s.Initial env) : Guarded env s := by
  refine ⟨initial.operators, ?_, ?_, ?_, ?_⟩
  · intro addr nonce here
    rw [initial.nonces] at here
    cases here
  · rw [initial.issued]
    exact List.nodup_nil
  · intro i pc there
    rw [initial.requests] at there
    cases there
  · intro i j pc pc' login login' there
    rw [initial.requests] at there
    cases there

theorem reached (reached : Reachable (State.Initial env) (Stepped env) s) : Guarded env s :=
  reached.invariant (I := Guarded env) (fun _ => initial)
    fun _ _ inv ⟨_, unguessed, done⟩ => inv.step unguessed done

end Guarded

/-! ### When a nonce is spent -/

/-- A statement moves its request, and spends a nonce at the commit of its DELETE only. -/
theorem advance_spends (done : advance env s i pc = some s') :
    ∃ pc', s'.requests = s.requests.set i pc' ∧
      (pc'.spends = none ∨ pc'.spends = pc.spends ∨ ∃ login, pc = .siweCommit login 1 ∧
        pc'.spends = some login ∧ s'.nonces login.addr = none) := by
  cases pc with
  | siweCommit login rowcount =>
      simp only [advance] at done
      split at done
      · cases done
        exact ⟨_, rfl, .inl rfl⟩
      · next deleted =>
        cases done
        refine ⟨_, rfl, .inr (.inr ⟨login, ?_, rfl, ?_⟩)⟩
        · rw [of_not_not deleted]
        · simp only [State.goto, State.setLock, State.setNonce, Function.update_self]
  | siweWrite login user =>
      simp only [advance] at done
      split at done
      · cases done
        exact ⟨_, rfl, .inr (.inl rfl)⟩
      · cases done
        exact ⟨_, rfl, .inl rfl⟩
      · split at done
        · cases done
          exact ⟨_, rfl, .inr (.inl rfl)⟩
        · split at done
          · cases done
            exact ⟨_, rfl, .inl rfl⟩
          · cases done
            exact ⟨_, rfl, .inr (.inl rfl)⟩
  | siweRefresh login =>
      simp only [advance] at done
      split at done
      · cases done
        exact ⟨_, rfl, .inl rfl⟩
      · cases done
        exact ⟨_, rfl, .inr (.inl rfl)⟩
  | siweUser login =>
      cases done
      exact ⟨_, rfl, .inr (.inl rfl)⟩
  | nonceGet address value =>
      cases done
      exact ⟨_, rfl, .inl rfl⟩
  | nonceCommit address value =>
      cases done
      exact ⟨_, rfl, .inl rfl⟩
  | cdpUser addr userId =>
      cases done
      exact ⟨_, rfl, .inl rfl⟩
  | nonceWrite address value row =>
      simp only [advance] at done
      split at done
      · cases done
      · split at done
        all_goals
          cases done
          exact ⟨_, rfl, .inl rfl⟩
  | siweGet body addr =>
      simp only [advance] at done
      split at done
      · cases done
        exact ⟨_, rfl, .inl rfl⟩
      · split at done
        all_goals
          cases done
          exact ⟨_, rfl, .inl rfl⟩
  | siweDelete login =>
      simp only [advance] at done
      split at done
      · cases done
      · split at done
        all_goals
          cases done
          exact ⟨_, rfl, .inl rfl⟩
  | cdpWrite addr userId user =>
      simp only [advance] at done
      split at done
      all_goals
        cases done
        exact ⟨_, rfl, .inl rfl⟩
  | signedIn login token => cases done
  | done response => cases done

/-- In some step before, the nonce of the login was in the row of its address, unused, and was
taken out. -/
def Consumed (env : Env) (s : State) (login : Login) : Prop :=
  ∃ u u', Reachable (State.Initial env) (Stepped env) u ∧ Stepped env u u' ∧
    Relation.ReflTransGen (Stepped env) u' s ∧ u.nonces login.addr = some login.nonce ∧
    u'.nonces login.addr = none ∧ (login.addr, login.nonce) ∈ u.issued ∧
    ∀ (i : Nat) login' token, u.requests[i]? = some (.signedIn login' token) →
      login'.nonce ≠ login.nonce

theorem consumed_of_spends (reached : Reachable (State.Initial env) (Stepped env) s) :
    ∀ (i : Nat) pc login, s.requests[i]? = some pc → pc.spends = some login →
      Consumed env s login := by
  rcases reached with ⟨first, initial, path⟩
  induction path with
  | refl =>
      intro i pc login there
      rw [initial.requests] at there
      cases there
  | @tail s s' path taken ih =>
      have reached : Reachable (State.Initial env) (Stepped env) s := ⟨first, initial, path⟩
      have extend : ∀ login, Consumed env s login → Consumed env s' login := by
        rintro login ⟨u, u', before, at', after, rest⟩
        exact ⟨u, u', before, at', after.tail taken, rest⟩
      have arrived : ∀ pc', s'.requests = s.requests ++ [pc'] → pc'.spends = none →
          ∀ (i : Nat) pc login, s'.requests[i]? = some pc → pc.spends = some login →
            Consumed env s' login := by
        intro pc' requests none i pc login there spends
        rw [requests] at there
        rcases mem_append there with rfl | ⟨-, there⟩
        · rw [none] at spends
          cases spends
        · exact extend login (ih i pc login there spends)
      have taken' := taken
      rcases taken with ⟨event, -, done⟩
      cases event with
      | nonce address value =>
          cases done
          exact arrived _ rfl rfl
      | siwe body =>
          cases done
          refine arrived _ rfl ?_
          cases signer env body <;> rfl
      | cdp smartAccount userId =>
          cases done
          exact arrived _ rfl rfl
      | advance j =>
          rcases Option.bind_eq_some_iff.mp done with ⟨was, there', done⟩
          rcases advance_spends done with ⟨pc', requests, moved⟩
          intro i pc login there spends
          rw [requests] at there
          rcases mem_set there with ⟨rfl, rfl⟩ | ⟨-, there⟩
          · rcases moved with none | same | ⟨login', rfl, new, gone⟩
            · rw [none] at spends
              cases spends
            · exact extend login (ih i was login there' (same ▸ spends))
            · rw [new, Option.some.injEq] at spends
              subst spends
              have inv := Guarded.reached reached
              have fine := inv.fine i _ there'
              refine ⟨s, s', reached, taken', .refl, fine.due login' rfl, gone,
                (fine.read login' rfl).issued, fun k login token old same => ?_⟩
              have spent := (inv.fine k _ old).spent login rfl
              exact spent.gone login'.addr (same ▸ fine.due login' rfl)
          · exact extend login (ih i pc login there spends)
      | crash j =>
          rcases Option.bind_eq_some_iff.mp done with ⟨was, -, done⟩
          intro i pc login there spends
          rw [crash_requests done] at there
          rcases mem_set there with ⟨rfl, rfl⟩ | ⟨-, there⟩
          · cases spends
          · exact extend login (ih i pc login there spends)

/-! ### Signed logins -/

theorem recovered_of_signer {body : SiweVerify} {addr : String}
    (signed : signer env body = .ok addr) :
    ∃ recovered, env.recoverMessage body.message body.signature = .ok recovered ∧
      addr = env.lower recovered := by
  unfold signer at signed
  split at signed
  · cases signed
  · split at signed
    · cases signed
    · next recovered found =>
      split at signed
      · cases signed
      · split at signed
        · cases signed
        · cases signed
          exact ⟨recovered, found, rfl⟩

/-- However requests are interleaved, a nonce leads to one token at most and so does a signed
message; a token goes to the signer of a message that names a nonce issued for it, which was
the current one and unused when it was consumed; and only the operator is an operator. -/
theorem signed_login_works_once (reached : Reachable (State.Initial env) (Stepped env) s) :
    (∀ (i j : Nat) login login' token token', s.requests[i]? = some (.signedIn login token) →
      s.requests[j]? = some (.signedIn login' token') →
      login.nonce = login'.nonce ∨ (login.body.message = login'.body.message ∧
        login.body.signature = login'.body.signature) → i = j) ∧
    (∀ (i : Nat) login token, s.requests[i]? = some (.signedIn login token) →
      token.sub = env.lower login.addr ∧
      (∃ recovered, env.recoverMessage login.body.message login.body.signature = .ok recovered ∧
        login.addr = env.lower recovered) ∧
      within login.nonce login.body.message = true ∧ Consumed env s login) ∧
    ∀ addr user, s.users addr = some user → user.isOperator = true →
      isOperator env addr = true := by
  have inv := Guarded.reached reached
  refine ⟨?_, ?_, inv.operators⟩
  · intro i j login login' token token' there there' same
    refine inv.once i j _ _ login login' there there' rfl rfl ?_
    rcases same with nonce | ⟨message, signature⟩
    · exact .inl nonce
    · refine .inr ⟨message, ?_⟩
      have spent := (inv.fine i _ there).spent login rfl
      have spent' := (inv.fine j _ there').spent login' rfl
      rcases recovered_of_signer spent.signed with ⟨recovered, found, addr⟩
      rcases recovered_of_signer spent'.signed with ⟨recovered', found', addr'⟩
      rw [message, signature, found', Except.ok.injEq] at found
      rw [addr, addr', found]
  · intro i login token there
    have fine := inv.fine i _ there
    have spent := fine.spent login rfl
    exact ⟨fine.answered login token rfl, recovered_of_signer spent.signed, spent.named,
      consumed_of_spends reached i _ login there rfl⟩

/-! ### A sample login -/

/-- One account, whose messages are all signed "0x5a". -/
def Env.sample : Env where
  lower := id
  recoverMessage := fun _ signature =>
    if signature = "0x5a" then .ok "0xa1" else .error "bad signature"
  operatorAddress := none

/-- The message is sent twice while its nonce is there. -/
def Event.sample : List Event :=
  [.nonce "0xa1" "n7", .advance 0, .advance 0, .advance 0, .siwe ⟨"0xa1 n7", "0x5a", "0xa1"⟩,
    .siwe ⟨"0xa1 n7", "0x5a", "0xa1"⟩, .advance 1, .advance 2, .advance 1, .advance 1,
    .advance 2, .advance 2, .advance 1, .advance 1, .advance 1]

def State.blank : State := ⟨fun _ => none, fun _ => none, fun _ => none, [], [], []⟩

/-- A step in which no nonce is guessed. -/
def tryStep (env : Env) (s : State) (event : Event) : Option State :=
  let unguessed := match event with
    | .advance i =>
        match s.requests[i]? with
        | some (.nonceCommit _ value) => decide (value ∉ s.issued.map Prod.snd) &&
            s.presented.all fun message => !within value message
        | _ => true
    | _ => true
  if unguessed then step env s event else none

theorem stepped_of_tryStep (done : tryStep env s event = some s') : Stepped env s s' := by
  simp only [tryStep, Option.ite_none_right_eq_some] at done
  rcases done with ⟨unguessed, done⟩
  refine ⟨event, ?_, done⟩
  rintro i address value rfl there
  simpa [there] using unguessed

/-- What the request at `i` signed in with. -/
def State.signedIn (s : State) (i : Nat) : Option (Login × Token) :=
  match s.requests[i]? with
  | some (.signedIn login token) => some (login, token)
  | _ => none

theorem State.signedIn_some {s : State} {i : Nat} {login : Login} {token : Token}
    (answer : s.signedIn i = some (login, token)) :
    s.requests[i]? = some (.signedIn login token) := by
  unfold State.signedIn at answer
  split at answer
  · next there =>
    cases answer
    exact there
  · cases answer

/-- One of the two requests is answered with a token, which is for the signer. -/
theorem signed_login_works_once_sample : ∃ (s : State) (i : Nat) (login : Login) (token : Token),
    s.requests[i]? = some (.signedIn login token) ∧ token.sub = login.addr ∧
      Consumed .sample s login ∧
      ∀ (j : Nat) login' token', s.requests[j]? = some (.signedIn login' token') →
        login.nonce = login'.nonce → i = j := by
  obtain ⟨s, done⟩ := Option.isSome_iff_exists.mp
    (by decide +kernel : (Event.sample.foldlM (tryStep .sample) State.blank).isSome = true)
  have answer : ((Event.sample.foldlM (tryStep .sample) State.blank).bind
      fun s => s.signedIn 1).isSome = true := by
    decide +kernel
  rw [done] at answer
  have path : Run (fun s _ s' => Stepped .sample s s') State.blank Event.sample s :=
    Run.of_foldlM (fun _ _ _ => stepped_of_tryStep) done
  have reached : Reachable (State.Initial .sample) (Stepped .sample) s :=
    path.invariant (I := Reachable (State.Initial .sample) (Stepped .sample))
      (.start ⟨rfl, rfl, rfl, rfl, rfl, nofun⟩) fun _ _ _ reached taken => reached.next taken
  rcases signed_login_works_once reached with ⟨once, signed, -⟩
  rw [Option.bind_some, Option.isSome_iff_exists] at answer
  rcases answer with ⟨⟨login, token⟩, answered⟩
  have there := State.signedIn_some answered
  rcases signed 1 login token there with ⟨sub, -, -, consumed⟩
  exact ⟨s, 1, login, token, there, sub, consumed,
    fun j login' token' there' same => once 1 j _ _ _ _ there there' (.inl same)⟩

end OverUnder.Backend.Auth
