/-
Module: OverUnder.Proofs.PromptFences
Purpose: Text that has been cleaned for a prompt cannot leave its fence: it holds no fence
  token and no control character, keeps to its limit and is not changed by cleaning it again.
Trusted boundary: none
Main exports: Tidy, tidy_clean, clean_tidy, size, size_truncate,
  encode_takeBytes, sanitized_stays_fenced
-/
import OverUnder.Oracles.Prompt

namespace OverUnder.Oracles.Prompt

open OverUnder.Library.Splitting OverUnder.Library.Occurrences OverUnder.Oracles.Winner

variable {text : Text} {keepNewlines limitBytes : Bool} {limit : Nat} {c : Char}

/-! ### Fence tokens -/

theorem stripTokens_free (text : Text) : holdsToken (stripTokens text) = false := by
  fun_induction stripTokens text with
  | case1 text held ih => exact ih
  | case2 text free => exact Bool.not_eq_true _ ▸ free

theorem stripTokens_of_free (free : holdsToken text = false) : stripTokens text = text := by
  rw [stripTokens, dif_neg (by rw [free]; exact Bool.false_ne_true)]

theorem joint_apart : ∀ token ∈ fenceTokens, ' ' ∉ token ∧ '\n' ∉ token := by decide

/-- A text whose tokens all stand in another is free of them when the other is. -/
theorem free_of_infix {other : Text}
    (inside : ∀ token ∈ fenceTokens, token <:+: text → token <:+: other)
    (free : holdsToken other = false) : holdsToken text = false := by
  rw [Bool.eq_false_iff, ne_eq, holdsToken_iff] at free ⊢
  rintro ⟨token, here, found⟩
  exact free ⟨token, here, inside token here found⟩

theorem infix_of_joinWords {token : Text} (here : token ∈ fenceTokens)
    (found : token <:+: joinWords (subControl text)) : token <:+: text := by
  obtain ⟨word, among, found⟩ :=
    infix_of_infix_join (fenceTokens_ne_nil token here) (joint_apart token here).1 found
  have word_inside := infix_of_mem_splitOnP (List.mem_filter.1 among).1
  refine infix_of_infix_map (fun c kept => ?_) (found.trans word_inside)
  split at kept
  · exact absurd kept (joint_apart token here).1
  · next visible => exact if_neg visible

/-- No step after the loop puts a token together. -/
theorem free_clean (free : holdsToken text = false) :
    holdsToken (clean keepNewlines text) = false := by
  refine free_of_infix (fun token here found => ?_) free
  cases keepNewlines with
  | false => exact infix_of_joinWords here found
  | true =>
      obtain ⟨line, among, found⟩ :=
        infix_of_infix_join (fenceTokens_ne_nil token here) (joint_apart token here).2 found
      obtain ⟨raw, cut, rfl⟩ := List.mem_map.1 (List.mem_filter.1 among).1
      rw [List.splitOn_eq_splitOnP] at cut
      refine infix_of_infix_map (fun c kept => ?_)
        ((infix_of_joinWords here found).trans (infix_of_mem_splitOnP cut))
      split at kept
      · exact absurd kept (joint_apart token here).2
      · next other => exact if_neg other

/-! ### White space and control characters -/

/-- The characters of a cleaned text. -/
def Allowed (keepNewlines : Bool) (c : Char) : Prop :=
  c = ' ' ∨ keepNewlines = true ∧ c = '\n' ∨ isSpace c = false ∧ isControl c = false

/-- A cleaned text. -/
structure Tidy (keepNewlines : Bool) (text : Text) : Prop where
  allowed : ∀ c ∈ text, Allowed keepNewlines c
  trimmed : Trimmed isSpace text

/-- Every control character but DEL is white space or becomes a space. -/
theorem joinWords_tidy (text : Text) : Tidy false (joinWords (subControl text)) := by
  have words : ∀ word ∈ runs isSpace (subControl text),
      word ≠ [] ∧ ∀ c ∈ word, isSpace c = false ∧ isControl c = false := by
    intro word here
    obtain ⟨some_word, inside⟩ := mem_runs here
    refine ⟨some_word, fun c among => ⟨(inside c among).2, ?_⟩⟩
    obtain ⟨c', -, rfl⟩ := List.mem_map.1 (inside c among).1
    split
    · decide
    · next visible => exact Bool.not_eq_true _ ▸ visible
  constructor
  · intro c inside
    rcases mem_join inside with rfl | ⟨word, here, inside⟩
    · exact .inl rfl
    · exact .inr (.inr ((words word here).2 c inside))
  · by_cases empty : joinWords (subControl text) = []
    · rw [empty]
      exact .nil
    · refine (trimmed_join (by decide) empty).2 fun word here => ⟨(words word here).1, ?_⟩
      exact trimmed_of_clean fun c inside => ((words word here).2 c inside).1

theorem tidy_clean (text : Text) : Tidy keepNewlines (clean keepNewlines text) := by
  cases keepNewlines with
  | false => exact joinWords_tidy text
  | true =>
      have lines : ∀ line ∈ ((text.map fun c => if c = '\r' then '\n' else c).splitOn '\n').map
          (fun line => joinWords (subControl line)) |>.filter (!·.isEmpty),
          line ≠ [] ∧ Tidy false line := by
        intro line here
        rw [List.mem_filter] at here
        obtain ⟨raw, -, rfl⟩ := List.mem_map.1 here.1
        refine ⟨?_, joinWords_tidy raw⟩
        intro empty
        rw [empty] at here
        cases here.2
      constructor
      · intro c inside
        rcases mem_join inside with rfl | ⟨line, here, inside⟩
        · exact .inr (.inl ⟨rfl, rfl⟩)
        · rcases (lines line here).2.allowed c inside with space | ⟨no, -⟩ | other
          · exact .inl space
          · cases no
          · exact .inr (.inr other)
      · by_cases empty : clean true text = []
        · rw [empty]
          exact .nil
        · refine (trimmed_join (by decide) empty).2 fun line here => ?_
          exact ⟨(lines line here).1, (lines line here).2.trimmed⟩

/-- What is left of a cleaned text after its end is cut off is a prefix of it, and clean. -/
theorem tidy_strip {cut : Text} (tidy : Tidy keepNewlines text) (front : cut <+: text) :
    strip cut <+: cut ∧ Tidy keepNewlines (strip cut) := by
  have starts : cut.dropWhile isSpace = cut := by
    cases cut with
    | nil => rfl
    | cons c rest =>
        obtain ⟨back, rfl⟩ := front
        rw [List.dropWhile_cons, tidy.trimmed.head c rfl]
        rfl
  rw [strip, starts]
  have kept : cut.rdropWhile isSpace <+: cut := List.rdropWhile_prefix isSpace cut
  have within := kept.trans front
  refine ⟨kept, fun c here => tidy.allowed c (within.subset here), ?_, ?_, ?_⟩
  · intro c here
    obtain ⟨back, whole⟩ := within
    apply tidy.trimmed.head c
    rw [← whole, List.head?_append]
    rw [Option.mem_def] at here
    rw [here]
    rfl
  · intro c here
    have some_text : cut.rdropWhile isSpace ≠ [] := by
      intro empty
      rw [empty] at here
      cases here
    have last := List.rdropWhile_last_not isSpace cut some_text
    rw [List.getLast?_eq_getLast_of_ne_nil some_text] at here
    rw [← Option.some.inj here]
    exact Bool.not_eq_true _ ▸ last
  · exact tidy.trimmed.apart.prefix within

/-! ### Cleaning again -/

theorem joinWords_of_tidy (tidy : Tidy false text) : joinWords (subControl text) = text := by
  have visible : subControl text = text := by
    refine (List.map_congr_left fun c here => ?_).trans (List.map_id' text)
    rcases tidy.allowed c here with rfl | ⟨no, -⟩ | ⟨-, plain⟩
    · decide
    · cases no
    · rw [plain]
      rfl
  rw [visible]
  refine join_runs (by decide) tidy.trimmed fun c here space => ?_
  rcases tidy.allowed c here with rfl | ⟨no, -⟩ | ⟨other, -⟩
  · rfl
  · cases no
  · rw [space] at other
    cases other

/-- Each line of a cleaned text is cleaned, and none is empty. -/
theorem lines_of_tidy (tidy : Tidy true text) (some_text : text ≠ []) :
    ∀ line ∈ text.splitOn '\n', line ≠ [] ∧ Tidy false line := by
  intro line here
  have whole : ['\n'].intercalate (text.splitOn '\n') = text := List.intercalate_splitOn '\n'
  have parts := (trimmed_join (x := '\n') (by decide) (whole.symm ▸ some_text)).1
    (whole.symm ▸ tidy.trimmed) line here
  refine ⟨parts.1, fun c inside => ?_, parts.2⟩
  rw [List.splitOn_eq_splitOnP] at here
  obtain ⟨among, other⟩ := mem_splitOnP here c inside
  rcases tidy.allowed c among with space | ⟨-, rfl⟩ | visible
  · exact .inl space
  · cases other
  · exact .inr (.inr visible)

theorem clean_tidy (tidy : Tidy keepNewlines text) : clean keepNewlines text = text := by
  cases keepNewlines with
  | false => exact joinWords_of_tidy tidy
  | true =>
      by_cases empty : text = []
      · rw [empty]
        rfl
      · have returns : (text.map fun c => if c = '\r' then '\n' else c) = text := by
          refine (List.map_congr_left fun c here => if_neg ?_).trans (List.map_id' text)
          rintro rfl
          rcases tidy.allowed '\r' here with space | ⟨-, newline⟩ | ⟨space, -⟩
          · cases space
          · cases newline
          · cases space
        have lines := lines_of_tidy tidy empty
        have cleaned : (text.splitOn '\n').map (fun line => joinWords (subControl line)) =
            text.splitOn '\n' :=
          (List.map_congr_left fun line here => joinWords_of_tidy (lines line here).2).trans
            (List.map_id' _)
        have kept : (text.splitOn '\n').filter (!·.isEmpty) = text.splitOn '\n' := by
          rw [List.filter_eq_self]
          intro line here
          rw [List.isEmpty_eq_false_iff.2 (lines line here).1]
          rfl
        simp only [clean, if_true, returns, cleaned, kept]
        exact List.intercalate_splitOn '\n'

theorem strip_tidy (tidy : Tidy keepNewlines text) : strip text = text := by
  have starts : text.dropWhile isSpace = text := by
    cases text with
    | nil => rfl
    | cons c rest =>
        rw [List.dropWhile_cons, tidy.trimmed.head c rfl]
        rfl
  rw [strip, starts, List.rdropWhile_eq_self_iff]
  intro some_text spaced
  have last := tidy.trimmed.last _ (List.getLast?_eq_getLast_of_ne_nil some_text)
  rw [spaced] at last
  cases last

/-! ### The limit -/

/-- What the limit counts: characters or bytes. -/
def size (limitBytes : Bool) (text : Text) : Nat :=
  if limitBytes then (encode text).length else text.length

theorem encode_cons (c : Char) (rest : Text) :
    encode (c :: rest) = String.utf8EncodeChar c ++ encode rest := List.flatMap_cons ..

theorem length_encode_cons (c : Char) (rest : Text) :
    (encode (c :: rest)).length = c.utf8Size + (encode rest).length := by
  rw [encode_cons, List.length_append, String.length_utf8EncodeChar]

theorem takeBytes_isPrefix (limit : Nat) (text : Text) : takeBytes limit text <+: text := by
  induction text generalizing limit with
  | nil => exact List.prefix_rfl
  | cons c rest ih =>
      rw [takeBytes]
      split
      · exact (List.prefix_cons_inj c).2 (ih _)
      · exact List.nil_prefix

theorem length_encode_takeBytes (limit : Nat) (text : Text) :
    (encode (takeBytes limit text)).length ≤ limit := by
  induction text generalizing limit with
  | nil => exact Nat.zero_le _
  | cons c rest ih =>
      rw [takeBytes]
      split
      · next fits =>
          rw [length_encode_cons]
          have bound := ih (limit - c.utf8Size)
          omega
      · exact Nat.zero_le _

theorem takeBytes_of_le (short : (encode text).length ≤ limit) : takeBytes limit text = text := by
  induction text generalizing limit with
  | nil => rfl
  | cons c rest ih =>
      rw [length_encode_cons] at short
      rw [takeBytes, if_pos (by omega), ih (by omega)]

/-- The bytes up to the limit are those of the characters kept, followed by the first bytes of
the character that is cut. -/
theorem encode_takeBytes (limit : Nat) (text : Text) :
    ∃ cut, (encode text).take limit = encode (takeBytes limit text) ++ cut ∧
      (cut = [] ∨ ∃ c rest, text = takeBytes limit text ++ c :: rest ∧
        cut <+: String.utf8EncodeChar c ∧ cut.length < (String.utf8EncodeChar c).length) := by
  induction text generalizing limit with
  | nil => exact ⟨[], by rw [takeBytes, encode, List.flatMap_nil, List.take_nil]; rfl, .inl rfl⟩
  | cons c rest ih =>
      rw [takeBytes, encode_cons, List.take_append, String.length_utf8EncodeChar]
      split
      · next fits =>
          obtain ⟨cut, taken, why⟩ := ih (limit - c.utf8Size)
          refine ⟨cut, ?_, ?_⟩
          · rw [taken, encode_cons, List.append_assoc,
              List.take_of_length_le (by rw [String.length_utf8EncodeChar]; exact fits)]
          · rcases why with rfl | ⟨c', others, whole, front, short⟩
            · exact .inl rfl
            · exact .inr ⟨c', others, congrArg (c :: ·) whole, front, short⟩
      · next over_limit =>
          refine ⟨(String.utf8EncodeChar c).take limit, ?_, .inr ⟨c, rest, rfl, ?_, ?_⟩⟩
          · rw [Nat.sub_eq_zero_of_le (Nat.le_of_not_le over_limit), List.take_zero,
              List.append_nil]
            rfl
          · exact List.take_prefix _ _
          · rw [List.length_take, String.length_utf8EncodeChar]
            omega

theorem truncate_isPrefix (limit : Nat) (limitBytes : Bool) (text : Text) :
    truncate limit limitBytes text <+: text := by
  cases limitBytes with
  | false => exact List.take_prefix limit text
  | true => exact takeBytes_isPrefix limit text

theorem size_truncate (limit : Nat) (limitBytes : Bool) (text : Text) :
    size limitBytes (truncate limit limitBytes text) ≤ limit := by
  cases limitBytes with
  | false => exact List.length_take_le limit text
  | true => exact length_encode_takeBytes limit text

theorem truncate_of_size (short : size limitBytes text ≤ limit) :
    truncate limit limitBytes text = text := by
  cases limitBytes with
  | false => exact List.take_of_length_le short
  | true => exact takeBytes_of_le short

theorem size_of_isPrefix {front : Text} (within : front <+: text) :
    size limitBytes front ≤ size limitBytes text := by
  obtain ⟨back, rfl⟩ := within
  cases limitBytes with
  | false => exact (List.prefix_append front back).length_le
  | true =>
      simp only [size, encode, if_true, List.flatMap_append, List.length_append]
      exact Nat.le_add_right _ _

/-! ### The fence -/

/-- The text that goes into a prompt holds no fence token and, newlines that are kept apart, no
control character, keeps to its limit, and is not changed by cleaning it again. -/
theorem sanitized_stays_fenced (text : Option Text) (limit : Nat)
    (keepNewlines limitBytes : Bool) :
    let sanitized := sanitizeUntrusted text limit keepNewlines limitBytes
    (∀ token ∈ fenceTokens, ¬token <:+: sanitized) ∧
    (∀ c ∈ sanitized, isControl c = true → keepNewlines = true ∧ c = '\n') ∧
    size limitBytes sanitized ≤ limit ∧
    sanitizeUntrusted (some sanitized) limit keepNewlines limitBytes = sanitized := by
  intro sanitized
  have free : holdsToken (clean keepNewlines (stripTokens (text.getD []))) = false :=
    free_clean (stripTokens_free (text.getD []))
  have cut := truncate_isPrefix limit limitBytes (clean keepNewlines (stripTokens (text.getD [])))
  obtain ⟨front, kept⟩ := tidy_strip (tidy_clean (stripTokens (text.getD []))) cut
  have tidy : Tidy keepNewlines sanitized := kept
  have sanitized_free : holdsToken sanitized = false :=
    free_of_infix (fun _ _ found => found.trans (front.trans cut).isInfix) free
  have short : size limitBytes sanitized ≤ limit :=
    (size_of_isPrefix front).trans (size_truncate ..)
  refine ⟨?_, ?_, short, ?_⟩
  · intro token here found
    rw [holdsToken_iff.2 ⟨token, here, found⟩] at sanitized_free
    cases sanitized_free
  · intro c here control
    rcases tidy.allowed c here with rfl | newline | ⟨-, plain⟩
    · cases control
    · exact newline
    · rw [control] at plain
      cases plain
  · rw [sanitizeUntrusted, Option.getD_some, stripTokens_of_free sanitized_free,
      clean_tidy tidy, truncate_of_size short, strip_tidy tidy]

end OverUnder.Oracles.Prompt
