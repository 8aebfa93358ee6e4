/-
Module: OverUnder.Backend.Auth
Purpose: `GET /auth/nonce`, `POST /auth/siwe` and the CDP logins of
  `backend/app/auth/router.py`, one step per database statement. Reads see what is committed;
  a write of a `nonces` row locks it until its transaction ends.
Trusted boundary: human-reviewed spec
Main exports: HttpError, Env, SiweVerify, User, signer, isOperator, Pc, State, Event, advance,
  step, State.Initial
-/
import Mathlib

namespace OverUnder.Backend

/-- `HTTPException`. -/
structure HttpError where
  statusCode : Nat
  detail : String
deriving DecidableEq

namespace Auth

/-- `str.lower`, `Account.recover_message`, and the address of the key in the settings if
there is a key and it is one. -/
structure Env where
  lower : String → String
  recoverMessage : String → String → Except String String
  operatorAddress : Option String

structure SiweVerify where
  message : String
  signature : String
  address : String
deriving DecidableEq

/-- A row of `users`, without its ids and dates. -/
structure User where
  isOperator : Bool
  cdpUserId : String
deriving DecidableEq

/-- The claims of a token, without its expiry. -/
structure Token where
  sub : String
  op : Bool
deriving DecidableEq

/-- `part in text`. -/
def within (part text : String) : Bool := decide (part.toList <:+: text.toList)

/-- The checks of `siwe` before it reads the database. -/
def signer (env : Env) (body : SiweVerify) : Except HttpError String :=
  if body.signature = "" ∨ body.signature = "0x" ∨ body.signature = "0x00" then
    .error ⟨400, "invalid signature"⟩
  else
    match env.recoverMessage body.message body.signature with
    | .error why => .error ⟨400, "ecrecover failed: " ++ why⟩
    | .ok recovered =>
        if env.lower recovered ≠ env.lower body.address then
          .error ⟨400, "signature does not match address"⟩
        else if within (env.lower recovered) (env.lower body.message) = false then
          .error ⟨400, "address not in message"⟩
        else
          .ok (env.lower recovered)

def isOperator (env : Env) (addr : String) : Bool :=
  match env.operatorAddress with
  | none => false
  | some operator => decide (addr = env.lower operator)

/-- `_issue`. -/
def issue (env : Env) (address : String) (isOperator : Bool) : Token :=
  ⟨env.lower address, isOperator⟩

inductive Response where
  | nonce (value : String)
  | token (token : Token)
  | refused (error : HttpError)
  /-- An exception of the database, or a request cut short. -/
  | failed

/-- A login and the nonce it read. -/
structure Login where
  body : SiweVerify
  addr : String
  nonce : String
deriving DecidableEq

/-- The statement a request is about to run. -/
inductive Pc where
  /-- `nonce`: `db.get`, then the row's UPDATE or INSERT, then the commit. -/
  | nonceGet (address value : String)
  | nonceWrite (address value : String) (row : Bool)
  | nonceCommit (address value : String)
  /-- `siwe`: `db.get`, the DELETE and its commit. -/
  | siweGet (body : SiweVerify) (addr : String)
  | siweDelete (login : Login)
  | siweCommit (login : Login) (rowcount : Nat)
  /-- `siwe`: the user is read, written and refreshed. -/
  | siweUser (login : Login)
  | siweWrite (login : Login) (user : Option User)
  | siweRefresh (login : Login)
  /-- `_upsert_cdp_session`. -/
  | cdpUser (addr userId : String)
  | cdpWrite (addr userId : String) (user : Option User)
  /-- `siwe` answered with a token. -/
  | signedIn (login : Login) (token : Token)
  | done (response : Response)

/-- The committed tables, the locked rows of `nonces` with the request that holds them, all
requests ever made, every nonce ever committed and every message ever presented. -/
structure State where
  nonces : String → Option String
  users : String → Option User
  locks : String → Option Nat
  requests : List Pc
  issued : List (String × String)
  presented : List String

namespace State

def goto (s : State) (i : Nat) (pc : Pc) : State := { s with requests := s.requests.set i pc }

/-- Write or release the lock of a row. -/
def setLock (s : State) (addr : String) (holder : Option Nat) : State :=
  { s with locks := Function.update s.locks addr holder }

def setNonce (s : State) (addr : String) (nonce : Option String) : State :=
  { s with nonces := Function.update s.nonces addr nonce }

def setUser (s : State) (addr : String) (user : User) : State :=
  { s with users := Function.update s.users addr (some user) }

end State

inductive Event where
  /-- GET, with the value drawn for it. -/
  | nonce (address value : String)
  | siwe (body : SiweVerify)
  /-- A login of a user the CDP validated. -/
  | cdp (smartAccount userId : String)
  | advance (i : Nat)
  | crash (i : Nat)

/-- The next statement of a request; nothing while it waits for a lock. -/
def advance (env : Env) (s : State) (i : Nat) : Pc → Option State
  | .nonceGet address value =>
      some (s.goto i (.nonceWrite address value (s.nonces address).isSome))
  | .nonceWrite address value row =>
      if s.locks address ≠ none then none
      -- No row is left to update, or one is there already.
      else if (s.nonces address).isSome ≠ row then some (s.goto i (.done .failed))
      else some ((s.setLock address (some i)).goto i (.nonceCommit address value))
  | .nonceCommit address value =>
      let s' := (s.setNonce address (some value)).setLock address none
      some ({ s' with issued := s.issued ++ [(address, value)] }.goto i (.done (.nonce value)))
  | .siweGet body addr =>
      match s.nonces addr with
      | none => some (s.goto i (.done (.refused ⟨401, "nonce not found"⟩)))
      | some nonce =>
          if within nonce body.message = false then
            some (s.goto i (.done (.refused ⟨401, "nonce mismatch"⟩)))
          else
            some (s.goto i (.siweDelete ⟨body, addr, nonce⟩))
  | .siweDelete login =>
      if s.locks login.addr ≠ none then none
      else if s.nonces login.addr = some login.nonce then
        some ((s.setLock login.addr (some i)).goto i (.siweCommit login 1))
      else
        some (s.goto i (.siweCommit login 0))
  | .siweCommit login rowcount =>
      if rowcount ≠ 1 then
        some (s.goto i (.done (.refused ⟨401, "nonce already consumed"⟩)))
      else
        some (((s.setNonce login.addr none).setLock login.addr none).goto i (.siweUser login))
  | .siweUser login => some (s.goto i (.siweWrite login (s.users login.addr)))
  | .siweWrite login user =>
      let operator := isOperator env login.addr
      match user, s.users login.addr with
      | none, none =>
          some ((s.setUser login.addr ⟨operator, ""⟩).goto i (.siweRefresh login))
      | none, some _ => some (s.goto i (.done .failed))
      | some user, current =>
          if user.isOperator = operator then
            some (s.goto i (.signedIn login (issue env login.addr user.isOperator)))
          else
            match current with
            | none => some (s.goto i (.done .failed))
            | some row =>
                some ((s.setUser login.addr { row with isOperator := operator }).goto i
                  (.signedIn login (issue env login.addr operator)))
  | .siweRefresh login =>
      match s.users login.addr with
      | none => some (s.goto i (.done .failed))
      | some user => some (s.goto i (.signedIn login (issue env login.addr user.isOperator)))
  | .cdpUser addr userId => some (s.goto i (.cdpWrite addr userId (s.users addr)))
  | .cdpWrite addr userId user =>
      match user, s.users addr with
      | none, none =>
          some ((s.setUser addr ⟨false, userId⟩).goto i (.done (.token (issue env addr false))))
      | none, some _ | some _, none => some (s.goto i (.done .failed))
      | some user, some row =>
          -- The UPDATE names the columns that differ from what was read.
          let flag := if user.isOperator then false else row.isOperator
          let cdpUserId := if user.cdpUserId = userId then row.cdpUserId else userId
          some ((s.setUser addr ⟨flag, cdpUserId⟩).goto i
            (.done (.token (issue env addr false))))
  | .signedIn _ _ => none
  | .done _ => none

/-- A request that is not answered is cut short; its transaction is rolled back. -/
def crash (s : State) (i : Nat) : Pc → Option State
  | .signedIn _ _ => none
  | .done _ => none
  | _ => some ({ s with
      locks := fun addr => if s.locks addr = some i then none else s.locks addr }.goto i
        (.done .failed))

def step (env : Env) (s : State) : Event → Option State
  | .nonce address value =>
      some { s with requests := s.requests ++ [.nonceGet (env.lower address) value] }
  | .siwe body =>
      let pc := match signer env body with
        | .error why => .done (.refused why)
        | .ok addr => .siweGet body addr
      some { s with requests := s.requests ++ [pc], presented := s.presented ++ [body.message] }
  | .cdp smartAccount userId =>
      some { s with requests := s.requests ++ [.cdpUser (env.lower smartAccount) userId] }
  | .advance i => s.requests[i]?.bind (advance env s i)
  | .crash i => s.requests[i]?.bind (crash s i)

/-- Before any request, with operators as the settings name them. -/
structure State.Initial (env : Env) (s : State) : Prop where
  nonces : s.nonces = fun _ => none
  locks : s.locks = fun _ => none
  requests : s.requests = []
  issued : s.issued = []
  presented : s.presented = []
  operators : ∀ addr user, s.users addr = some user → user.isOperator = true →
    isOperator env addr = true

end Auth

end OverUnder.Backend
