/-
Module: OverUnder.Proofs.Winners
Purpose: Which team a score makes the winner of a question: what `yes_team` reads off it,
  when two names count as the same, and exactly when the outcome is that of the team asked
  about.
Trusted boundary: none
Main exports: strip_pad, strip_split, Readable, yesTeam_question, same_iff, Decides,
  outcome_decides_iff, winner_decides_iff, loser_wins
-/
import OverUnder.Oracles.Winner

namespace OverUnder.Oracles.Winner

open OverUnder.Library.Backtrack

/-! ### Stripping -/

/-- Nothing but spaces. -/
def Blank (s : List Char) : Prop := ∀ c ∈ s, isSpace c = true

theorem Blank.nil : Blank [] := nofun

theorem Blank.append {s t : List Char} (first : Blank s) (second : Blank t) : Blank (s ++ t) := by
  intro c among
  rcases List.mem_append.mp among with here | there
  · exact first c here
  · exact second c there

theorem dropWhile_blank {s t : List Char} (blank : Blank s) :
    (s ++ t).dropWhile isSpace = t.dropWhile isSpace := by
  rw [List.dropWhile_append, List.dropWhile_eq_nil_iff.mpr blank]
  rfl

theorem rdropWhile_blank {s t : List Char} (blank : Blank t) :
    (s ++ t).rdropWhile isSpace = s.rdropWhile isSpace := by
  have reversed : Blank t.reverse := fun c among => blank c (List.mem_reverse.mp among)
  unfold List.rdropWhile
  rw [List.reverse_append, dropWhile_blank reversed]

/-- Spaces on either side do not matter. -/
theorem strip_pad {before s after : List Char} (first : Blank before) (last : Blank after) :
    strip (before ++ s ++ after) = strip s := by
  unfold strip
  rw [List.append_assoc, dropWhile_blank first, List.dropWhile_append]
  split
  · next empty =>
    rw [List.isEmpty_iff.mp empty, List.dropWhile_eq_nil_iff.mpr last]
  · exact rdropWhile_blank last

/-- A text is its stripped text between spaces. -/
theorem strip_split (s : List Char) :
    ∃ before after, Blank before ∧ Blank after ∧ s = before ++ strip s ++ after := by
  refine ⟨s.takeWhile isSpace, (s.dropWhile isSpace).rtakeWhile isSpace,
    fun _ => List.mem_takeWhile_imp, fun _ => List.mem_rtakeWhile_imp, ?_⟩
  rw [List.append_assoc, strip, List.rdropWhile_append_rtakeWhile,
    List.takeWhile_append_dropWhile]

theorem strip_subset (s : List Char) : strip s ⊆ s := by
  rcases strip_split s with ⟨before, after, -, -, whole⟩
  intro c among
  rw [whole]
  exact List.mem_append_left _ (List.mem_append_right _ among)

theorem strip_eq_nil {s : List Char} : strip s = [] ↔ Blank s := by
  constructor
  · intro empty
    rcases strip_split s with ⟨before, after, first, last, whole⟩
    rw [empty, List.append_nil] at whole
    rw [whole]
    exact first.append last
  · intro blank
    have padded := strip_pad (s := []) blank Blank.nil
    rw [List.append_nil, List.append_nil] at padded
    exact padded

/-! ### Names -/

section Folding

variable (folding : CaseFold)

theorem casefold_append (s t : List Char) :
    casefold folding (s ++ t) = casefold folding s ++ casefold folding t :=
  List.flatMap_append

theorem casefold_blank {s : List Char} (blank : Blank s) : casefold folding s = s := by
  induction s with
  | nil => rfl
  | cons c rest ih =>
      have here : folding.fold c = [c] := folding.space c (blank c (.head _))
      change folding.fold c ++ casefold folding rest = c :: rest
      rw [here, ih fun d later => blank d (.tail _ later)]
      rfl

/-- Stripping before folding changes nothing. -/
theorem strip_casefold (s : List Char) :
    strip (casefold folding (strip s)) = strip (casefold folding s) := by
  rcases strip_split s with ⟨before, after, first, last, whole⟩
  have spread : casefold folding s = before ++ casefold folding (strip s) ++ after := by
    conv => lhs; rw [whole]
    rw [casefold_append, casefold_append, casefold_blank folding first,
      casefold_blank folding last]
  rw [spread, strip_pad first last]

/-- Folding keeps what can be seen. -/
theorem casefold_blank_iff {s : List Char} : Blank (casefold folding s) ↔ Blank s := by
  constructor
  · intro blank c among
    by_contra seen
    rw [Bool.not_eq_true] at seen
    rcases folding.visible c seen with ⟨some_, visible⟩
    rcases List.exists_mem_of_ne_nil _ some_ with ⟨d, folded⟩
    have space := blank d (List.mem_flatMap.mpr ⟨c, among, folded⟩)
    rw [visible d folded] at space
    cases space
  · intro blank
    rw [casefold_blank folding blank]
    exact blank

/-- What names are compared by. -/
def key (name : String) : List Char := strip (casefold folding name.toList)

/-- Names are the same when one's key is part of the other's. -/
theorem same_iff {left right : String} : same folding left right = true ↔
    (key folding left ≠ [] ∧ key folding right ≠ []) ∧
      (key folding left <:+: key folding right ∨ key folding right <:+: key folding left) := by
  unfold same key
  simp only
  split
  · next none =>
    constructor
    · exact nofun
    · rintro ⟨⟨l, r⟩, -⟩
      rcases none with empty | empty
      · exact absurd empty l
      · exact absurd empty r
  · next some_ =>
    rw [not_or] at some_
    rw [decide_eq_true_iff]
    constructor
    · rintro (equal | contained)
      · rw [equal]
        exact ⟨⟨some_.2, some_.2⟩, .inl (List.infix_refl _)⟩
      · exact ⟨some_, contained⟩
    · rintro ⟨-, contained⟩
      exact .inr contained

/-- The name as it is read off a question compares like the name. -/
theorem same_strip {team label : String} :
    same folding (String.ofList (strip team.toList)) label = same folding team label := by
  unfold same
  rw [String.toList_ofList, strip_casefold]

theorem same_self {team : String} (visible : strip team.toList ≠ []) :
    same folding team team = true := by
  have some_ : key folding team ≠ [] := by
    intro empty
    exact visible (strip_eq_nil.mpr ((casefold_blank_iff folding).mp (strip_eq_nil.mp empty)))
  exact (same_iff folding).mpr ⟨⟨some_, some_⟩, .inl (List.infix_refl _)⟩

end Folding

/-! ### What is read off a question -/

/-- A place where `_YES` matches. -/
theorem mem_yesAt {name s : List Char} : name ∈ yesAt s ↔
    ∃ before after w i n mark gap rest,
      s = ':' :: (before ++ (name ++ (after ++ (w :: i :: n :: (mark ++ (gap ++ rest)))))) ∧
      Blank before ∧ (name ≠ [] ∧ ∀ c ∈ name, c ≠ '\n') ∧ (after ≠ [] ∧ Blank after) ∧
      (w ∈ ['w', 'W'] ∧ i ∈ ['i', 'I', 'İ', 'ı'] ∧ n ∈ ['n', 'N']) ∧
      (mark = [] ∨ mark = ['?']) ∧ Blank gap ∧ (rest = [] ∨ rest = ['\n']) := by
  unfold yesAt
  simp only [List.bind_eq_flatMap, List.mem_flatMap, List.pure_def, List.mem_singleton,
    Prod.exists, mem_one, mem_many, mem_many1, mem_lazy1, mem_opt, atEnd, letter,
    decide_eq_true_iff]
  constructor
  · rintro ⟨_, _, ⟨_, rfl, -, rfl⟩, before, _, ⟨rfl, first⟩, _, _, ⟨rfl, some_, line⟩, after, _,
      ⟨rfl, gap_, last⟩, _, _, ⟨w, isW, -, rfl⟩, _, _, ⟨i, isI, -, rfl⟩, _, _, ⟨n, isN, -, rfl⟩,
      mark, _, marked, gap, rest, ⟨rfl, blank⟩, _, ended, rfl⟩
    have final : rest = [] ∨ rest = ['\n'] := by
      split at ended
      · next final => exact final
      · cases ended
    rcases marked with ⟨_, rfl, rfl, rfl⟩ | ⟨rfl, rfl⟩
    · exact ⟨before, after, w, i, n, ['?'], gap, rest, rfl, first, ⟨some_, line⟩, ⟨gap_, last⟩,
        ⟨isW, isI, isN⟩, .inr rfl, blank, final⟩
    · exact ⟨before, after, w, i, n, [], gap, rest, rfl, first, ⟨some_, line⟩, ⟨gap_, last⟩,
        ⟨isW, isI, isN⟩, .inl rfl, blank, final⟩
  · rintro ⟨before, after, w, i, n, mark, gap, rest, rfl, first, ⟨some_, line⟩, ⟨gap_, last⟩,
      ⟨isW, isI, isN⟩, marked, blank, final⟩
    refine ⟨_, _, ⟨_, rfl, rfl, rfl⟩, before, _, ⟨rfl, first⟩, name, _, ⟨rfl, some_, line⟩, after,
      _, ⟨rfl, gap_, last⟩, _, _, ⟨w, isW, rfl, rfl⟩, _, _, ⟨i, isI, rfl, rfl⟩, _, _,
      ⟨n, isN, rfl, rfl⟩, mark, _, ?_, gap, rest, ⟨rfl, blank⟩, (), ?_, rfl⟩
    · rcases marked with rfl | rfl
      · exact .inr ⟨rfl, rfl⟩
      · exact .inl ⟨_, rfl, rfl, rfl⟩
    · rw [if_pos final]
      exact .head _

/-- Only a colon begins a match. -/
theorem yesAt_of_ne {c : Char} {s : List Char} (other : c ≠ ':') : yesAt (c :: s) = [] := by
  refine List.eq_nil_iff_forall_not_mem.mpr fun name member => ?_
  rcases mem_yesAt.mp member with ⟨_, _, _, _, _, _, _, _, same, -⟩
  exact other (List.cons.inj same).1

/-- Before the last `win?` a match is the name between spaces. -/
theorem yesAt_win {name s : List Char}
    (member : name ∈ yesAt (':' :: (s ++ ['w', 'i', 'n', '?']))) :
    (∀ c ∈ name, c ≠ '\n') ∧ ∃ before after, Blank before ∧ Blank after ∧
      s = before ++ name ++ after := by
  rcases mem_yesAt.mp member with
    ⟨before, after, w, i, n, mark, gap, rest, same, first, ⟨-, line⟩, ⟨-, last⟩, ⟨-, -, isN⟩,
      marked, blank, final⟩
  refine ⟨line, before, after, first, last, ?_⟩
  have body := (List.cons.inj same).2
  -- the text ends with the question mark, so the match does
  have ends : ∀ (front : List Char) (c : Char),
      before ++ (name ++ (after ++ (w :: i :: n :: (mark ++ (gap ++ rest))))) = front ++ [c] →
      '?' = c := by
    intro front c whole
    have lasts : (s ++ ['w', 'i', 'n']) ++ ['?'] = front ++ [c] := by
      rw [← whole, ← body]
      simp
    exact (List.cons.inj (List.append_inj' lasts rfl).2).1
  have noRest : rest = [] := by
    rcases final with none | line
    · exact none
    · have mark := ends (before ++ name ++ after ++ [w, i, n] ++ mark ++ gap) '\n' (by simp [line])
      cases mark
  subst noRest
  have noGap : gap = [] := by
    rcases List.eq_nil_or_concat gap with none | ⟨front, c, whole⟩
    · exact none
    · have space : isSpace c = true := blank c (by simp [whole])
      have mark := ends (before ++ name ++ after ++ [w, i, n] ++ mark ++ front) c (by simp [whole])
      rw [← mark] at space
      cases space
  subst noGap
  rcases marked with rfl | rfl
  · have letter := ends (before ++ name ++ after ++ [w, i]) n (by simp)
    rw [← letter] at isN
    simp at isN
  · have tails : s ++ ['w', 'i', 'n', '?'] = (before ++ name ++ after) ++ [w, i, n, '?'] := by
      simpa using body
    exact (List.append_inj' tails rfl).1

/-- `'H vs A: T win?'` -/
def question (home away team : String) : String :=
  home ++ " vs " ++ away ++ ": " ++ team ++ " win?"

/-- A name that can stand in a question. -/
structure TeamName (name : String) : Prop where
  some : name ≠ ""
  colon : ':' ∉ name.toList
  mark : '?' ∉ name.toList
  versus : ¬ " vs ".toList <:+: name.toList

/-- There is something to see, on one line. -/
def Readable (team : String) : Prop :=
  strip team.toList ≠ [] ∧ '\n' ∉ strip team.toList

variable {home away team : String}

/-- After stripping, the question has its one colon where the team begins. -/
theorem strip_question (host : TeamName home) (guest : TeamName away) :
    ∃ front, ':' ∉ front ∧ strip (question home away team).toList =
      front ++ (':' :: ((' ' :: team.toList ++ [' ']) ++ ['w', 'i', 'n', '?'])) := by
  let teams := home.toList ++ " vs ".toList ++ away.toList
  let rest := ':' :: ((' ' :: team.toList ++ [' ']) ++ ['w', 'i', 'n', '?'])
  have whole : (question home away team).toList = teams ++ rest := by
    simp [question, teams, rest]
  have noColon : ':' ∉ teams := by
    simp [teams, host.colon, guest.colon]
  refine ⟨teams.dropWhile isSpace, fun among => noColon (List.dropWhile_subset _ among), ?_⟩
  have started : (teams ++ rest).dropWhile isSpace = teams.dropWhile isSpace ++ rest := by
    rw [List.dropWhile_append]
    split
    · next empty =>
      rw [List.isEmpty_iff.mp empty]
      rfl
    · rfl
  have ended : teams.dropWhile isSpace ++ rest =
      (teams.dropWhile isSpace ++ (':' :: ((' ' :: team.toList ++ [' ']) ++ ['w', 'i', 'n']))) ++
        ['?'] := by
    simp [rest]
  rw [whole, strip, started, ended, List.rdropWhile_concat_neg _ _ _ (by decide), ← ended]

/-- A team that can be read is read, stripped; any other is not. -/
theorem yesTeam_question (host : TeamName home) (guest : TeamName away)
    (named : TeamName team) :
    (Readable team → yesTeam (question home away team) = some (String.ofList (strip team.toList))) ∧
      (¬ Readable team → yesTeam (question home away team) = none) := by
  rcases @strip_question home away team host guest with ⟨front, noColon, stripped⟩
  let tail := (' ' :: team.toList ++ [' ']) ++ ['w', 'i', 'n', '?']
  have tailColon : ':' ∉ tail := by
    simp [tail, named.colon]
  have onlyHere : search yesAt (strip (question home away team).toList) =
      search yesAt (':' :: tail) := by
    rw [stripped]
    exact search_skip_all fun c among s => yesAt_of_ne (fun same => noColon (same ▸ among))
  have found : ∀ name, search yesAt (':' :: tail) = some name → name ∈ yesAt (':' :: tail) := by
    intro name found
    rcases search_mem found with ⟨before, rest, whole, member⟩
    cases before with
    | nil =>
        rw [List.nil_append] at whole
        rw [whole]
        exact member
    | cons c before =>
        -- the rest of the text has no colon
        rcases mem_yesAt.mp member with ⟨_, _, _, _, _, _, _, _, same, -⟩
        have later : tail = before ++ rest := (List.cons.inj whole).2
        refine absurd ?_ tailColon
        rw [later, same]
        simp
  have padded : strip (' ' :: team.toList ++ [' ']) = strip team.toList := by
    have space : Blank [' '] := by
      intro c among
      rw [List.mem_singleton.mp among]
      decide
    exact strip_pad space space
  have read : ∀ name ∈ yesAt (':' :: tail),
      (∀ c ∈ name, c ≠ '\n') ∧ strip name = strip team.toList := by
    intro name member
    rcases yesAt_win member with ⟨line, before, after, first, last, whole⟩
    refine ⟨line, ?_⟩
    rw [← padded, whole, strip_pad first last]
  have matches_ : Readable team → strip team.toList ∈ yesAt (':' :: tail) := by
    rintro ⟨some_, line⟩
    rcases strip_split team.toList with ⟨before, after, first, last, whole⟩
    have space : Blank [' '] := by
      intro c among
      rw [List.mem_singleton.mp among]
      decide
    refine mem_yesAt.mpr ⟨' ' :: before, after ++ [' '], 'w', 'i', 'n', ['?'], [], [], ?_,
      space.append first, ⟨some_, fun c among same => line (same ▸ among)⟩,
      ⟨by simp, last.append space⟩, by decide, .inr rfl, Blank.nil, .inl rfl⟩
    change ':' :: ((' ' :: team.toList ++ [' ']) ++ ['w', 'i', 'n', '?']) = _
    conv => lhs; rw [whole]
    simp
  constructor
  · intro readable
    rcases search_isSome (matches_ readable) with ⟨name, here⟩
    have same := (read name (found name here)).2
    rw [yesTeam, onlyHere, here]
    simp only
    rw [same, if_neg readable.1]
  · intro unreadable
    rw [yesTeam, onlyHere]
    cases here : search yesAt (':' :: tail) with
    | none => rfl
    | some name =>
        rcases read name (found name here) with ⟨line, same⟩
        simp only
        rw [same]
        refine if_pos (by_contra fun some_ => unreadable ⟨some_, fun broken => ?_⟩)
        rw [← same] at broken
        exact line _ (strip_subset name broken) rfl

/-! ### The winner -/

/-- The outcome is that of the team asked about: 0 exactly when its own score is larger. -/
def Decides (home team : String) (x y : Nat) (outcome : Option (Fin 2)) : Prop :=
  outcome = some (if team = home then if x > y then 0 else 1 else if y > x then 0 else 1)

/-- The score of a game. -/
def played (homeLabel awayLabel : String) (x y : Nat) : MarketDetail :=
  ⟨false, 0, "final", homeLabel, awayLabel, some x, some y⟩

/-- With labels of any kind, the outcome is right exactly when the team can be read and is
taken for the right side. -/
theorem outcome_decides_iff (folding : CaseFold) {homeLabel awayLabel : String}
    (host : TeamName home) (guest : TeamName away) (either : team = home ∨ team = away)
    {x y : Nat} (apart : x ≠ y) :
    Decides home team x y (scoreOutcome yesTeam (same folding) (question home away team)
      (played homeLabel awayLabel x y)) ↔
    Readable team ∧ if team = home then same folding team homeLabel = true
      else same folding team homeLabel = false ∧ same folding team awayLabel = true := by
  have named : TeamName team := by
    rcases either with rfl | rfl
    · exact host
    · exact guest
  rcases yesTeam_question host guest named with ⟨readable, unreadable⟩
  by_cases legible : Readable team
  · have decided : scoreOutcome yesTeam (same folding) (question home away team)
        (played homeLabel awayLabel x y) =
        if same folding team homeLabel then if x > y then some 0 else some 1
        else if same folding team awayLabel then if y > x then some 0 else some 1
        else none := by
      simp only [scoreOutcome, readable legible, played, same_strip, if_neg apart]
    rw [Decides, decided, and_iff_right legible]
    -- one side has more
    have sides : (x > y ∧ ¬ y > x) ∨ (y > x ∧ ¬ x > y) := by omega
    rcases sides with ⟨more, less⟩ | ⟨more, less⟩ <;> simp only [if_pos more, if_neg less] <;>
      cases same folding team homeLabel <;> cases same folding team awayLabel <;>
      by_cases isHome : team = home <;> simp [isHome]
  · rw [Decides, scoreOutcome, unreadable legible]
    exact iff_of_false (by rintro ⟨⟩) fun right => legible right.1

/-- The labels of a question are those that `canonicalize` pins. With the names themselves as
labels, and with the pinned ones, the outcome is that of the team asked about exactly when the
team can be read and is not taken for the other one. -/
theorem winner_decides_iff (folding : CaseFold) (host : TeamName home) (guest : TeamName away)
    (apart : home ≠ away) (either : team = home ∨ team = away) {x y : Nat} (different : x ≠ y) :
    (Decides home team x y (scoreOutcome yesTeam (same folding) (question home away team)
        (played home away x y)) ↔
      Readable team ∧ (team = home ∨ same folding team home = false)) ∧
    ∀ labels, labels = parseTeams (question home away team) →
      (Decides home team x y (scoreOutcome yesTeam (same folding) (question home away team)
        (played labels.1 labels.2 x y)) ↔
      Readable team ∧ if team = home then same folding team labels.1 = true
        else same folding team labels.1 = false ∧ same folding team labels.2 = true) := by
  refine ⟨?_, fun _ _ => outcome_decides_iff folding host guest either different⟩
  rw [outcome_decides_iff folding host guest either different]
  refine and_congr_right fun readable => ?_
  have itself := same_self folding readable.1
  rcases either with rfl | rfl
  · simp [itself]
  · rw [if_neg (Ne.symm apart), and_iff_left itself]
    exact (or_iff_right (Ne.symm apart)).symm

/-! ### A team whose name contains the other's -/

/-- The case folding of ASCII. -/
def CaseFold.ascii : CaseFold where
  fold c := [if 65 ≤ c.toNat ∧ c.toNat ≤ 90 then Char.ofNat (c.toNat + 32) else c]
  space := by
    intro c space
    rw [if_neg]
    rintro ⟨low, high⟩
    simp only [isSpace, decide_eq_true_iff] at space
    omega
  visible := by
    intro c seen
    refine ⟨List.cons_ne_nil _ _, fun d among => ?_⟩
    rw [List.mem_singleton.mp among]
    split
    · next upper =>
      -- a lower-case letter
      have lower : ∀ n : Fin 26, isSpace (Char.ofNat (n + 65 + 32)) = false := by decide
      have which := lower ⟨c.toNat - 65, by omega⟩
      rwa [show c.toNat - 65 + 65 = c.toNat by omega] at which
    · exact seen

theorem teamName_iff {name : String} : TeamName name ↔
    name ≠ "" ∧ ':' ∉ name.toList ∧ '?' ∉ name.toList ∧ ¬ " vs ".toList <:+: name.toList :=
  ⟨fun named => ⟨named.some, named.colon, named.mark, named.versus⟩,
    fun ⟨some_, colon, mark, versus⟩ => ⟨some_, colon, mark, versus⟩⟩

instance (name : String) : Decidable (TeamName name) := decidable_of_iff' _ teamName_iff

/-- The theorem over two names of which none contains the other. -/
theorem winner_decides_broncos :
    Decides "Chiefs" "Broncos" 24 27 (scoreOutcome yesTeam (same .ascii)
      (question "Chiefs" "Broncos" "Broncos") (played "Chiefs" "Broncos" 24 27)) := by
  refine (@winner_decides_iff "Chiefs" "Broncos" "Broncos" .ascii
    (by decide +kernel) (by decide +kernel) (by decide) (.inr rfl) 24 27 (by decide)).1.mpr ?_
  exact ⟨⟨by decide +kernel, by decide +kernel⟩, .inr (by decide +kernel)⟩

/-- Real Madrid lose 1 to 2 against Real, and the outcome is that they win. -/
theorem loser_wins : ¬ ∀ (home away team : String) (x y : Nat), TeamName home → TeamName away →
    home ≠ away → (team = home ∨ team = away) → x ≠ y →
    parseTeams (question home away team) = (home, away) →
    Decides home team x y (scoreOutcome yesTeam (same .ascii) (question home away team)
      (played home away x y)) := by
  intro always
  have wrong := always "Real" "Real Madrid" "Real Madrid" 2 1 (by decide +kernel)
    (by decide +kernel) (by decide) (.inr rfl) (by decide) (by decide +kernel)
  have yes : scoreOutcome yesTeam (same .ascii) (question "Real" "Real Madrid" "Real Madrid")
      (played "Real" "Real Madrid" 2 1) = some 0 := by
    decide +kernel
  rw [yes, Decides] at wrong
  exact absurd wrong (by decide)

end OverUnder.Oracles.Winner
