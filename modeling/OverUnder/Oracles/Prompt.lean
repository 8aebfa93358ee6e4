/-
Module: OverUnder.Oracles.Prompt
Purpose: How text written by third parties is cleaned before it enters a prompt between
  fences: fence tokens, control characters, white space and the limit.
Trusted boundary: human-reviewed spec
Main exports: fenceTokens, isControl, stripTokens, clean, truncate, sanitizeUntrusted, encode
-/
import Mathlib
import OverUnder.Library.Occurrences
import OverUnder.Oracles.Winner

namespace OverUnder.Oracles.Prompt

open OverUnder.Library.Splitting OverUnder.Library.Occurrences OverUnder.Oracles.Winner

abbrev Text := List Char

/-- `_FENCE_TOKENS`. -/
def fenceTokens : List Text := [['<', '<', '<'], ['>', '>', '>'], ['"']]

/-- `_CONTROL`. -/
def isControl (c : Char) : Bool := decide (c.toNat ≤ 0x1f ∨ c.toNat = 0x7f)

/-- `_CONTROL.sub(" ", text)`. -/
def subControl (text : Text) : Text := text.map fun c => if isControl c then ' ' else c

/-- `any(token in cleaned for token in _FENCE_TOKENS)`. -/
def holdsToken (text : Text) : Bool := fenceTokens.any fun token => decide (token <:+: text)

/-- One turn of the loop: every token is replaced by nothing. -/
def dropTokens (text : Text) : Text := fenceTokens.foldl (fun text token => remove token text) text

theorem fenceTokens_ne_nil : ∀ token ∈ fenceTokens, token ≠ [] := by decide

theorem holdsToken_iff {text : Text} :
    holdsToken text = true ↔ ∃ token ∈ fenceTokens, token <:+: text := by
  simp only [holdsToken, List.any_eq_true, decide_eq_true_iff]

theorem length_dropTokens {text : Text} (held : holdsToken text = true) :
    (dropTokens text).length < text.length :=
  length_foldl_remove_lt fenceTokens_ne_nil (holdsToken_iff.1 held)

/-- `while any(token in cleaned ...)`. -/
def stripTokens (text : Text) : Text :=
  if _held : holdsToken text = true then stripTokens (dropTokens text) else text
termination_by text.length
decreasing_by exact length_dropTokens ‹_›

/-- `" ".join(text.split())`. -/
def joinWords (text : Text) : Text := [' '].intercalate (runs isSpace text)

/-- `_CONTROL.sub` and the collapsing of white space, by line where newlines are kept. -/
def clean (keepNewlines : Bool) (text : Text) : Text :=
  if keepNewlines then
    let rawLines := (text.map fun c => if c = '\r' then '\n' else c).splitOn '\n'
    let kept := rawLines.map fun line => joinWords (subControl line)
    ['\n'].intercalate (kept.filter (!·.isEmpty))
  else joinWords (subControl text)

/-- `text.encode("utf-8")`. -/
def encode (text : Text) : List UInt8 := text.flatMap String.utf8EncodeChar

/-- `text.encode("utf-8")[:limit].decode("utf-8", errors="ignore")`: a character that is cut is
left out. -/
def takeBytes : Nat → Text → Text
  | _, [] => []
  | limit, c :: rest =>
      if c.utf8Size ≤ limit then c :: takeBytes (limit - c.utf8Size) rest else []

def truncate (limit : Nat) (limitBytes : Bool) (text : Text) : Text :=
  if limitBytes then takeBytes limit text else text.take limit

/-- `sanitize_untrusted`. -/
def sanitizeUntrusted (text : Option Text) (limit : Nat) (keepNewlines limitBytes : Bool) : Text :=
  let cleaned := stripTokens (text.getD [])
  let cleaned := clean keepNewlines cleaned
  strip (truncate limit limitBytes cleaned)

end OverUnder.Oracles.Prompt
