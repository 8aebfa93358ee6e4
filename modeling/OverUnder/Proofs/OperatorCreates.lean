/-
Module: OverUnder.Proofs.OperatorCreates
Purpose: What `POST /markets` answers while anybody calls the contracts: a market the factory has
  under the condition of the question, as it was asked for or as it was there before; and a
  request for a market that is there sends nothing.
Trusted boundary: none
Main exports: world, Known, Current, createMarket_ends, answers_listed, replays_send_nothing
-/
import OverUnder.Backend.OperatorCreate
import OverUnder.Library.Endings
import OverUnder.Proofs.MarketRows

namespace OverUnder.Backend.OperatorCreate

open OverUnder.Vyper OverUnder.Contracts OverUnder.Library
open MarketFactory (SameMarket HasMarket Holds)

variable {site : PlatformSite} {operator : Address} {s t w next : Platform}
variable {known : Option MarketFactory.Market} {cid questionId : Bytes32}

/-! ### The world of a request -/

/-- The operator's own calls import nothing. -/
theorem importsRooted_of_call {tx : OperatorTx} {call : Platform.Tx} {timestamp : Nat}
    (asked : tx.call site = some call) :
    Platform.ImportsRooted site w ⟨operator, timestamp, call⟩ := by
  intro legacyFactory conditionIds imports
  dsimp only at imports
  subst imports
  cases tx with
  | faucet => cases asked
  | approve => cases asked
  | createPrimaryMarket =>
      simp only [OperatorTx.call] at asked
      split at asked
      · cases asked
      · cases asked
  | createWildcardMarket =>
      simp only [OperatorTx.call] at asked
      split at asked
      · cases asked
      · cases asked

theorem answers_rooted {op : Op} {r : Except Exc (Answer op)} (rooted : Rooted w)
    (answered : Answers site operator op w r next) : Rooted next := by
  cases op with
  | load => exact answered ▸ rooted
  | transact tx =>
      cases answered with
      | failed => exact rooted
      | reverted => exact rooted
      | mined asked step => exact rooted.step step (importsRooted_of_call asked)
  | _ => exact answered.1 ▸ rooted

/-- Between the operations of a request anybody calls the contracts. -/
def world (site : PlatformSite) (operator : Address) : World Platform Op Answer Exc where
  other := Platform.Proceeds site
  valid := Rooted
  answers := Answers site operator
  other_valid := by
    rintro w next rooted ⟨action, step, legacy⟩
    exact rooted.step step legacy
  answers_valid := answers_rooted

theorem hasMarket_keeps {m : MarketFactory.Market} :
    (world site operator).Keeps fun w => HasMarket w cid m := by
  rintro w next - ⟨action, step, -⟩ listed
  exact hasMarket_step step listed

/-! ### What is known of the market -/

/-- The row as the factory keeps it; an event says nothing of pauses. -/
def ChainRow.market (row : ChainRow) : MarketFactory.Market :=
  ⟨row.conditionId, row.parentConditionId, row.closeTime, row.marketType, row.paused.getD false,
    row.question⟩

/-- What is known of the market from before the request. -/
def Known (cid : Bytes32) (known : Option MarketFactory.Market) (w : Platform) : Prop :=
  ∀ m, known = some m → HasMarket w cid m

theorem known_keeps : (world site operator).Keeps (Known cid known) := by
  intro w next valid moved holds m here
  exact hasMarket_keeps w next valid moved (holds m here)

/-- A row of the market that is listed, which is the one known before. -/
structure Current (cid : Bytes32) (known : Option MarketFactory.Market) (row : ChainRow)
    (w : Platform) : Prop where
  named : row.conditionId = cid
  listed : HasMarket w cid row.market
  same : ∀ m, known = some m → SameMarket m row.market

theorem current_keeps {row : ChainRow} :
    (world site operator).Keeps (Current cid known row) := by
  intro w next valid moved now
  exact ⟨now.named, hasMarket_keeps w next valid moved now.listed, now.same⟩

/-- A market that is known already is not created. -/
def Allowed (known : Option MarketFactory.Market) (op : Op) : Prop :=
  ∀ tx, op = .transact tx → known = none

/-- How the parts of a request end in the world. -/
abbrev Yields {α : Type} (site : PlatformSite) (operator : Address)
    (known : Option MarketFactory.Market) (p : Script α) (P : α → Platform → Prop)
    (s : Platform) : Prop :=
  Ends (world site operator) (fun op _ => Allowed known op) p P (fun _ => True) s

section Handlers

variable {W : World Platform Op Answer Exc} {ok : Op → Platform → Prop} {α : Type} {p : Script α}
  {P : α → Platform → Prop} {E F : Exc → Prop} {text : String}

/-- What fails in a part is handed on as something else. -/
theorem orFail_ends (ends : Ends W ok p P F s) (keeps : ∀ a, W.Keeps (P a))
    (handed : ∀ e e', F e → E e') : Ends W ok (orFail text p) P E s := by
  apply Ends.handle ends
  · intro a t valid holds
    exact Ends.pure (keeps a) valid holds
  · intro e t failed
    cases e with
    | http e => exact Ends.raise (handed _ _ failed)
    | raised type => exact Ends.raise (handed _ _ failed)

theorem orFailAny_ends (ends : Ends W ok p P F s) (keeps : ∀ a, W.Keeps (P a))
    (handed : ∀ e e', F e → E e') : Ends W ok (orFailAny text p) P E s := by
  apply Ends.handle ends
  · intro a t valid holds
    exact Ends.pure (keeps a) valid holds
  · intro e t failed
    exact Ends.raise (handed _ _ failed)

end Handlers

/-- A read that does not raise says what is there. -/
theorem Read.answered {α : Type} {value a : α} (read : Read value w (.ok a) next) :
    a = value ∧ next = w := by
  rcases read with ⟨same, found | ⟨type, raised⟩⟩
  · exact ⟨Except.ok.inj found, same⟩
  · cases raised

/-! ### The reads -/

theorem exists_hasMarket_keeps :
    (world site operator).Keeps fun w => ∃ m, HasMarket w cid m := by
  rintro w next valid moved ⟨m, listed⟩
  exact ⟨m, hasMarket_keeps w next valid moved listed⟩

/-- What `read_factory_market` says of the market. -/
def Reported (cid : Bytes32) (known : Option MarketFactory.Market) (found : Option ChainRow)
    (w : Platform) : Prop :=
  match found with
  | some row => Current cid known row w
  | none => known = none

theorem reported_keeps {found : Option ChainRow} :
    (world site operator).Keeps (Reported cid known found) := by
  cases found with
  | some row => exact current_keeps
  | none => exact .const _

theorem readFactoryMarket_yields (valid : Rooted s) (before : Known cid known s) :
    Yields site operator known (readFactoryMarket cid) (Reported cid known) s := by
  unfold readFactoryMarket
  apply Ends.bind (Q := fun listed t => Known cid known t ∧
    (listed = true → ∃ m, HasMarket t cid m) ∧ (listed = false → known = none))
  · apply Ends.perform (K := Known cid known)
    · rintro _ _ _ tx ⟨⟩
    · exact known_keeps
    · intro listed
      apply known_keeps.and
      rintro w next valid moved ⟨there, absent⟩
      exact ⟨fun yes => exists_hasMarket_keeps w next valid moved (there yes), absent⟩
    · exact valid
    · exact before
    · intro w listed next rooted holds read
      rcases Read.answered read with ⟨rfl, rfl⟩
      refine ⟨holds, fun yes => ⟨_, yes, .refl _, (rooted cid yes).2⟩, fun no => ?_⟩
      cases known with
      | none => rfl
      | some m =>
          have present := (holds m rfl).present
          rw [no] at present
          cases present
    · exact fun _ _ _ _ _ _ => trivial
  · rintro listed t valid ⟨holds, there, absent⟩
    cases listed with
    | false => exact Ends.pure reported_keeps valid (absent rfl)
    | true =>
        apply Ends.bind (Q := fun m t => Current cid known (marketRow m) t)
        · apply Ends.perform (K := fun w => Known cid known w ∧ ∃ m, HasMarket w cid m)
          · rintro _ _ _ tx ⟨⟩
          · exact known_keeps.and exists_hasMarket_keeps
          · intro m
            exact current_keeps
          · exact valid
          · exact ⟨holds, there rfl⟩
          · rintro w m next rooted ⟨holds, m', listed⟩ read
            rcases Read.answered read with ⟨rfl, rfl⟩
            rcases rooted cid listed.present with ⟨named, prepared⟩
            exact ⟨named, ⟨listed.present, .refl _, prepared⟩, fun m here => (holds m here).same⟩
          · exact fun _ _ _ _ _ _ => trivial
        · intro m t valid now
          exact Ends.pure reported_keeps valid now

/-- What the first reads say of the question. -/
def Looked (cid : Bytes32) (known : Option MarketFactory.Market) (found : Found)
    (w : Platform) : Prop :=
  match found with
  | .existing row => Current cid known row w
  | _ => known = none

theorem looked_keeps {found : Found} : (world site operator).Keeps (Looked cid known found) := by
  cases found with
  | existing row => exact current_keeps
  | preparedElsewhere => exact .const _
  | absent => exact .const _

theorem lookUp_yields (valid : Rooted s)
    (before : Known (site.ctf.hashes.conditionId site.oracle.self questionId) known s) :
    Yields site operator known (lookUp site.ctf.hashes.conditionId questionId)
      (Looked (site.ctf.hashes.conditionId site.oracle.self questionId) known) s := by
  unfold lookUp
  apply Ends.bind (Q := fun court t => court = site.oracle.self ∧
    Known (site.ctf.hashes.conditionId site.oracle.self questionId) known t)
  · apply Ends.perform (K := Known (site.ctf.hashes.conditionId site.oracle.self questionId) known)
    · rintro _ _ _ tx ⟨⟩
    · exact known_keeps
    · intro court
      exact (World.Keeps.const _).and known_keeps
    · exact valid
    · exact before
    · intro w court next _ holds read
      rcases Read.answered read with ⟨rfl, rfl⟩
      exact ⟨rfl, holds⟩
    · exact fun _ _ _ _ _ _ => trivial
  · rintro court t valid ⟨rfl, holds⟩
    apply Ends.bind (readFactoryMarket_yields valid holds)
    intro found t valid reported
    cases found with
    | some row => exact Ends.pure looked_keeps valid reported
    | none =>
        apply Ends.bind (Q := fun _ _ => known = none)
        · apply Ends.perform (K := fun _ => known = none)
          · rintro _ _ _ tx ⟨⟩
          · exact .const _
          · intro slots
            exact .const _
          · exact valid
          · exact reported
          · exact fun _ _ _ _ none _ => none
          · exact fun _ _ _ _ _ _ => trivial
        · intro slots t valid none
          refine Ends.pure looked_keeps valid ?_
          split
          · exact none
          · exact none

/-! ### The transactions -/

/-- A market that was logged is listed. -/
theorem created_listed {call : Platform.Tx} {timestamp : Nat} {event : MarketCreated}
    (step : Platform.Step site w ⟨operator, timestamp, call⟩ next)
    (logged : event ∈ created site call) : HasMarket next event.conditionId event.row.market := by
  cases call with
  | factory tx =>
      have done : MarketFactory.exec site w operator timestamp tx = .ok next := step.done
      cases tx with
      | createPrimaryMarket =>
          rw [List.mem_singleton.mp logged]
          exact (MarketFactory.exec_row rfl done).hasMarket
      | createWildcardMarket =>
          rw [List.mem_singleton.mp logged]
          exact (MarketFactory.exec_row rfl done).hasMarket
      | _ => cases logged
  | _ => cases logged

/-- The row says what the request asked for. -/
structure Asked (body : Body) (parent : Option Bytes32) (row : ChainRow) : Prop where
  question : row.question.bytes = body.question
  closeTime : row.closeTime = body.closeTime
  under : row.parentConditionId = parent.getD 0
  marketType : row.marketType = if parent.isSome then 1 else 0

variable {body : Body} {parent : Option Bytes32}

theorem createTx_created {call : Platform.Tx} {event : MarketCreated}
    (asked : (createTx body questionId parent).call site = some call)
    (logged : event ∈ created site call) :
    event.conditionId = site.ctf.hashes.conditionId site.oracle.self questionId ∧
      Asked body parent event.row := by
  cases parent with
  | none =>
      simp only [createTx, OperatorTx.call] at asked
      split at asked
      · cases asked
        rw [List.mem_singleton.mp logged]
        exact ⟨rfl, rfl, rfl, rfl, rfl⟩
      · cases asked
  | some parent =>
      simp only [createTx, OperatorTx.call] at asked
      split at asked
      · cases asked
        rw [List.mem_singleton.mp logged]
        exact ⟨rfl, rfl, rfl, rfl, rfl⟩
      · cases asked

/-- What a receipt of the creation says. -/
def Receipted (cid : Bytes32) (body : Body) (parent : Option Bytes32) (receipt : Receipt)
    (w : Platform) : Prop :=
  ∀ event ∈ receipt.created, Current cid none event.row w ∧ Asked body parent event.row

theorem receipted_keeps {receipt : Receipt} :
    (world site operator).Keeps (Receipted cid body parent receipt) := by
  intro w next valid moved holds event logged
  rcases holds event logged with ⟨now, asked⟩
  exact ⟨current_keeps w next valid moved now, asked⟩

/-- The answer to a request. -/
def Answered (cid : Bytes32) (known : Option MarketFactory.Market) (body : Body)
    (parent : Option Bytes32) (answer : Kind × ChainRow) (w : Platform) : Prop :=
  Current cid known answer.2 w ∧ (known.isSome → answer.1 = .existing) ∧
    (answer.1 = .created → Asked body parent answer.2)

theorem answered_keeps {answer : Kind × ChainRow} :
    (world site operator).Keeps (Answered cid known body parent answer) := by
  rintro w next valid moved ⟨now, rest⟩
  exact ⟨current_keeps w next valid moved now, rest⟩

theorem allowed_none (op : Op) : Allowed none op := fun _ _ => rfl

theorem sendCreate_yields :
    Yields site operator none (sendCreate body questionId parent)
      (Answered (site.ctf.hashes.conditionId site.oracle.self questionId) none body parent) s := by
  unfold sendCreate
  apply Ends.bind (.anyway (fun op _ => allowed_none op) _)
  intro money t _ _
  apply Ends.bind (.anyway (fun op _ => allowed_none op) _)
  intro _ t _ _
  apply Ends.bind (.anyway (fun op _ => allowed_none op) _)
  intro _ t valid _
  apply Ends.bind (Q := Receipted (site.ctf.hashes.conditionId site.oracle.self questionId) body
    parent)
  · refine orFail_ends (F := fun _ => True) ?_ (fun _ => receipted_keeps) fun _ _ _ => trivial
    apply Ends.perform (K := fun _ => True)
    · exact fun _ _ _ => allowed_none _
    · exact .const _
    · intro receipt
      exact receipted_keeps
    · exact valid
    · trivial
    · intro w receipt next _ _ answered event logged
      cases answered with
      | reverted => cases logged
      | mined asked step =>
          rcases createTx_created asked logged with ⟨named, asks⟩
          refine ⟨⟨named, ?_, ?_⟩, asks⟩
          · rw [← named]
            exact created_listed step logged
          · intro m none
            cases none
    · exact fun _ _ _ _ _ _ => trivial
  · intro receipt t valid holds
    apply Ends.bind (Q := fun _ t => Receipted
      (site.ctf.hashes.conditionId site.oracle.self questionId) body parent receipt t)
    · unfold require
      split
      · exact Ends.raise trivial
      · exact Ends.pure receipted_keeps valid holds
    · intro _ t valid holds
      split
      · exact Ends.raise trivial
      · rename_i event rest logged
        rcases holds event (logged ▸ List.mem_cons_self) with ⟨now, asks⟩
        refine Ends.pure answered_keeps valid ⟨now, ?_, fun _ => asks⟩
        intro before
        cases before

/-! ### The request -/

theorem createOnChain_yields (valid : Rooted s)
    (before : Known (site.ctf.hashes.conditionId site.oracle.self questionId) known s) :
    Yields site operator known
      (createOnChain site.ctf.hashes.conditionId body questionId parent)
      (Answered (site.ctf.hashes.conditionId site.oracle.self questionId) known body parent) s := by
  unfold createOnChain
  apply Ends.bind (Q := fun _ t =>
    Known (site.ctf.hashes.conditionId site.oracle.self questionId) known t)
  · apply Ends.perform (K := Known (site.ctf.hashes.conditionId site.oracle.self questionId) known)
    · rintro _ _ _ tx ⟨⟩
    · exact known_keeps
    · intro _
      exact known_keeps
    · exact valid
    · exact before
    · intro w _ next _ holds same
      exact same ▸ holds
    · exact fun _ _ _ _ _ _ => trivial
  · intro _ t valid holds
    apply Ends.bind
    · exact orFail_ends (lookUp_yields valid holds) (fun _ => looked_keeps) fun _ _ _ => trivial
    intro found t valid looked
    cases found with
    | existing row =>
        refine Ends.pure answered_keeps valid ⟨looked, fun _ => rfl, ?_⟩
        intro other
        cases other
    | preparedElsewhere => exact Ends.raise trivial
    | absent =>
        cases looked
        exact sendCreate_yields

variable {unicode : Unicode} {hasKey : Bool}

/-- A request that is answered is for a question, and the answer is of the question's market. -/
theorem createMarket_yields (site : PlatformSite) (operator : Address) (unicode : Unicode)
    (hasKey : Bool) (body : Body) (known : Option MarketFactory.Market) (valid : Rooted s)
    (before : ∀ questionId, hex32 unicode body.questionId "question_id" = .ok questionId →
      Known (site.ctf.hashes.conditionId site.oracle.self questionId) known s) :
    Yields site operator known
      (createMarket unicode site.ctf.hashes.conditionId hasKey body)
      (fun answer t => ∃ questionId parent,
        hex32 unicode body.questionId "question_id" = .ok questionId ∧
          parentOf unicode body = .ok parent ∧ (body.marketType = 0 ∨ body.marketType = 1) ∧
          Answered (site.ctf.hashes.conditionId site.oracle.self questionId) known body parent
            answer t) s := by
  unfold createMarket
  split
  · exact Ends.raise trivial
  split
  · exact Ends.raise trivial
  split
  · exact Ends.raise trivial
  rename_i typed
  split
  · exact Ends.raise trivial
  · exact Ends.raise trivial
  · rename_i questionId parent read above
    apply Ends.mono (createOnChain_yields valid (before questionId read))
    · intro answer t answered
      refine ⟨questionId, parent, read, above, ?_, answered⟩
      omega
    · exact fun _ _ => trivial

variable {account : Address}

/-- Whatever is called between the operations of a request, and whatever becomes of its
transactions: a market that it answers is in the factory, under the condition of the question,
as the answer says; and one that it created is what was asked for. -/
theorem answers_listed {kind : Kind} {row : ChainRow}
    (reached : Reachable (Platform.Deployed site operator) (Platform.Proceeds site) s)
    (ran : Relation.ReflTransGen (world site account).Step
      (s, createMarket unicode site.ctf.hashes.conditionId hasKey body)
      (t, .done (.ok (kind, row)))) :
    ∃ questionId parent, hex32 unicode body.questionId "question_id" = .ok questionId ∧
      parentOf unicode body = .ok parent ∧
      row.conditionId = site.ctf.hashes.conditionId site.oracle.self questionId ∧
      HasMarket t row.conditionId row.market ∧
      (kind = .created → row.question.bytes = body.question ∧ row.closeTime = body.closeTime ∧
        row.parentConditionId = parent.getD 0 ∧ (row.marketType : Int) = body.marketType) := by
  have rooted : Rooted s := (reachable_rooted reached).2.2.2
  have ends := createMarket_yields site account unicode hasKey body none rooted (by
    intro questionId _ m none
    cases none)
  rcases ends.ended rooted ran with ⟨questionId, parent, read, above, typed, now, -, asks⟩
  refine ⟨questionId, parent, read, above, now.named, ?_, ?_⟩
  · rw [now.named]
    exact now.listed
  · intro new
    have asked := asks new
    refine ⟨asked.question, asked.closeTime, asked.under, ?_⟩
    rw [asked.marketType]
    rcases typed with primary | wildcard
    · rw [parentOf, if_neg (by omega)] at above
      cases above
      exact primary.symm
    · rw [parentOf, if_pos wildcard] at above
      cases read : hex32 unicode body.parentConditionId "parent_condition_id" with
      | error e =>
          rw [read] at above
          cases above
      | ok id =>
          rw [read] at above
          cases above
          exact wildcard.symm

/-- A request for a question whose market is there, however it came there, sends no transaction
and answers no other market. -/
theorem replays_send_nothing {p : Script (Kind × ChainRow)}
    (reached : Reachable (Platform.Deployed site operator) (Platform.Proceeds site) s)
    (read : hex32 unicode body.questionId "question_id" = .ok questionId)
    (present : s.factory.marketExists
      (site.ctf.hashes.conditionId site.oracle.self questionId) = true)
    (ran : Relation.ReflTransGen (world site account).Step
      (s, createMarket unicode site.ctf.hashes.conditionId hasKey body) (t, p)) :
    (∀ tx next, p ≠ .call (.transact tx) next) ∧
      ∀ kind row, p = .done (.ok (kind, row)) → kind = .existing ∧
        SameMarket (s.factory.markets (site.ctf.hashes.conditionId site.oracle.self questionId))
          row.market := by
  have rooted : Rooted s := (reachable_rooted reached).2.2.2
  have ends := createMarket_yields site account unicode hasKey body (some
      (s.factory.markets (site.ctf.hashes.conditionId site.oracle.self questionId))) rooted (by
      intro id read' m same
      rw [read] at read'
      cases read'
      cases same
      exact ⟨present, .refl _, (rooted _ present).2⟩)
  constructor
  · rintro tx next rfl
    cases ends.issues rooted ran tx rfl
  · rintro kind row rfl
    rcases ends.ended rooted ran with ⟨id, parent, -, -, -, now, before, -⟩
    exact ⟨before rfl, now.same _ rfl⟩

/-! ### A sample request -/

/-- A transaction is mined at once, at a time. -/
def mine (site : PlatformSite) (account : Address) (timestamp : Nat) (tx : OperatorTx)
    (w : Platform) : Except Exc Receipt × Platform :=
  match tx.call site with
  | none => (.ok ⟨0, []⟩, w)
  | some call =>
      match Platform.perform site w ⟨account, timestamp, call⟩ with
      | .error _ => (.ok ⟨0, []⟩, w)
      | .ok next => (.ok ⟨1, created site call⟩, next)

/-- A node that answers truthfully. -/
def serve (site : PlatformSite) (account : Address) (timestamp : Nat) :
    (op : Op) → Platform → Except Exc (Answer op) × Platform
  | .load, w => (.ok (), w)
  | .oracle, w => (.ok site.oracle.self, w)
  | .marketExists cid, w => (.ok (w.factory.marketExists cid), w)
  | .markets cid, w => (.ok (w.factory.markets cid), w)
  | .outcomeSlots cid, w => (.ok (w.tokens.ctf.outcomeSlots cid), w)
  | .balance, w => (.ok (w.tokens.usdc.balanceOf account), w)
  | .allowance, w => (.ok (w.tokens.usdc.allowance (account, site.factory)), w)
  | .transact tx, w => mine site account timestamp tx w

theorem mine_transacted {timestamp : Nat} {tx : OperatorTx} (external : site.External account) :
    Transacted site account tx w (mine site account timestamp tx w).1
      (mine site account timestamp tx w).2 := by
  unfold mine
  split
  · exact .reverted
  · rename_i call asked
    split
    · exact .reverted
    · rename_i next done
      exact .mined asked ⟨external, done⟩

theorem serve_answers {timestamp : Nat} (external : site.External account) (op : Op)
    (w : Platform) : Answers site account op w (serve site account timestamp op w).1
      (serve site account timestamp op w).2 := by
  cases op with
  | load => rfl
  | transact tx => exact mine_transacted external
  | _ => exact ⟨rfl, .inl rfl⟩

/-- Only white space and the letters of ASCII. -/
def sampleUnicode : Unicode where
  isSpace c := c == ' '
  isWord := Char.isAlphanum
  lower := List.map Char.toLower

/-- Question 7, ten bytes long. -/
def Body.sample (closeTime : Nat) : Body where
  question := List.replicate 10 120
  closeTime := closeTime
  questionId := ['0', 'x'] ++ List.replicate 63 '0' ++ ['7']
  parentConditionId := []
  seedUsdc := 10000
  marketType := 0

theorem Body.sample_asks (closeTime : Nat) :
    hex32 sampleUnicode (Body.sample closeTime).questionId "question_id" = .ok 7 := by
  have read : hex32 sampleUnicode (['0', 'x'] ++ List.replicate 63 '0' ++ ['7']) "question_id" =
      .ok 7 := by
    decide +kernel
  exact read

theorem Platform.sample_importsRooted (w : Platform) (action : Platform.Action) :
    Platform.ImportsRooted .sample w action := by
  rintro legacyFactory conditionIds - c - row ⟨listed, -⟩
  cases listed

/-- The operator wires the contracts. -/
def sampleWiring : List Platform.Action :=
  [⟨5, 0, .amm (.setFactory 21)⟩, ⟨5, 0, .oracle (.setFactory 21)⟩]

/-- The operator lists question 7. -/
def sampleListing : List Platform.Action :=
  [⟨5, 0, .tokens (.usdc (.faucet 10000))⟩, ⟨5, 0, .tokens (.usdc (.approve 21 10000))⟩,
    ⟨5, 0, .factory (.createPrimaryMarket 7 1000 .empty 10000)⟩]

theorem sample_reached {actions : List Platform.Action}
    (all : ∀ action ∈ actions, action.sender = 5)
    (done : actions.foldlM (Platform.perform .sample) Platform.sample = .ok w) :
    Reachable (Platform.Deployed .sample 5) (Platform.Proceeds .sample) w := by
  have operator : PlatformSite.sample.External 5 := by decide
  have steps : ∀ w action next, action.sender = 5 →
      Platform.perform .sample w action = .ok next → Platform.Proceeds .sample w next := by
    intro w action next mine done
    exact ⟨action, ⟨mine ▸ operator, done⟩, Platform.sample_importsRooted w action⟩
  exact Reachable.execute steps all (.start Platform.sample_deployed) done

/-- A request played against the truthful node. -/
def samplePlay (closeTime : Nat) (w : Platform) : Except Exc (Kind × ChainRow) × Platform :=
  (createMarket sampleUnicode PlatformSite.sample.ctf.hashes.conditionId true
    (Body.sample closeTime)).play (serve .sample 5 0) w

theorem samplePlay_run (closeTime : Nat) (w : Platform) :
    Relation.ReflTransGen (world .sample 5).Step
      (w, createMarket sampleUnicode PlatformSite.sample.ctf.hashes.conditionId true
        (Body.sample closeTime))
      ((samplePlay closeTime w).2, .done (samplePlay closeTime w).1) :=
  World.play_run (serve_answers (by decide)) _ w

/-- What a played request answers: the kind and the closing time. -/
def sampleAnswer (closeTime : Nat) (actions : List Platform.Action) : Option (Kind × Nat) :=
  match actions.foldlM (Platform.perform .sample) Platform.sample with
  | .error _ => none
  | .ok w =>
      match (samplePlay closeTime w).1 with
      | .error _ => none
      | .ok (kind, row) => some (kind, row.closeTime)

theorem sampleAnswer_played {closeTime : Nat} {actions : List Platform.Action} {kind : Kind}
    {closes : Nat} (answered : sampleAnswer closeTime actions = some (kind, closes)) :
    ∃ w row, actions.foldlM (Platform.perform .sample) Platform.sample = .ok w ∧
      (samplePlay closeTime w).1 = .ok (kind, row) ∧ row.closeTime = closes := by
  unfold sampleAnswer at answered
  split at answered
  · cases answered
  · rename_i w done
    split at answered
    · cases answered
    · rename_i kind row played
      cases answered
      exact ⟨w, row, done, played, rfl⟩

theorem sample_answers_listed :
    ∃ (t : Platform) (row : ChainRow), HasMarket t row.conditionId row.market ∧
      row.closeTime = 8000 := by
  rcases sampleAnswer_played (by decide +kernel : sampleAnswer 8000 sampleWiring =
    some (.created, 8000)) with ⟨w, row, done, played, closes⟩
  have reached := sample_reached (by decide) done
  have ran := samplePlay_run 8000 w
  rw [played] at ran
  rcases answers_listed reached ran with ⟨questionId, parent, -, -, -, listed, -⟩
  exact ⟨_, row, listed, closes⟩

theorem sample_replays_send_nothing :
    ∃ (w : Platform) (row : ChainRow), SameMarket (w.factory.markets 7) row.market ∧
      row.closeTime = 1000 := by
  rcases sampleAnswer_played (by decide +kernel :
    sampleAnswer 8000 (sampleWiring ++ sampleListing) = some (.existing, 1000)) with
    ⟨w, row, done, played, closes⟩
  have reached := sample_reached (by decide) done
  have present : ((sampleWiring ++ sampleListing).foldlM (Platform.perform .sample)
      Platform.sample).toOption.map (fun w => w.factory.marketExists 7) = some true := by
    decide +kernel
  rw [done] at present
  have ran := samplePlay_run 8000 w
  rw [played] at ran
  have replayed := replays_send_nothing reached (Body.sample_asks 8000)
    (Option.some.inj present) ran
  exact ⟨w, row, (replayed.2 _ row rfl).2, closes⟩

end OverUnder.Backend.OperatorCreate
