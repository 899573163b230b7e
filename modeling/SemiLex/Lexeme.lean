import SemiLex.Settings
import SemiLex.Source.Runs

/-!
# Lexemes

A lexeme is extracted in a phase.  Between lexemes the phase is `dispatch`, and the next
character decides the kind.  A phase that names a kind takes the next character whatever it is,
and goes on as that kind does: a run of blanks, a word, or a punctuation lexeme, where literals
and comments come before the operators of two characters.
-/

namespace SemiLex

/-- The operators of two characters that are kept together. -/
structure Operators where
  pairs : List (Char × Char)
  deriving DecidableEq, Repr

namespace Operators

def ofSettings (settings : ScanSettings) : Operators :=
  ⟨settings.pairs⟩

def contains (operators : Operators) (first second : Char) : Bool :=
  operators.pairs.contains (first, second)

instance : Inhabited Operators := ⟨ofSettings .default⟩

end Operators

inductive Phase where
  /-- Between lexemes. -/
  | dispatch
  | extracting (kind : Kind)
  deriving DecidableEq, Repr

namespace Source

/-- The characters after the first one of a punctuation lexeme: the rest of a literal or a
comment, or the second character of an operator. -/
def takePunctuationRest (operators : Operators) (first : Char) (s : Source) :
    Logged (Text × Source) := do
  let (second, s) ← s.peek 0
  if first = '"' ∨ first = '\'' then s.takeThrough first
  else if first = '/' ∧ second = some '/' then s.takeWhile fun c => !isLineBreak c
  else if first = '/' ∧ second = some '*' then
    let (text, s) ← s.advance.takeThroughClose
    return ('*' :: text, s)
  else match second with
    | none => return ([], s)
    | some c => if operators.contains first c then return ([c], s.advance) else return ([], s)

def takeRest (operators : Operators) (kind : Kind) (first : Char) (s : Source) :
    Logged (Text × Source) :=
  match kind with
  | .whitespace => s.takeWhile Unicode.isBlank
  | .word => s.takeWhile isWordPart
  | .punctuation => s.takePunctuationRest operators first

/-- Extracts a lexeme of this kind, whatever the next character is.  There is none only at the
end of the input. -/
def extractAs (operators : Operators) (kind : Kind) (s : Source) :
    Logged (Option Token × Source) := do
  match ← s.next with
  | (none, s) => return (none, s)
  | (some first, s) =>
    let (rest, s) ← s.takeRest operators kind first
    return (some ⟨first :: rest, kind⟩, s)

def dispatch (s : Source) : Logged (Option Phase × Source) := do
  let (c, s) ← s.peek 0
  return (c.map fun c => .extracting (Kind.of c), s)

def extract (operators : Operators) (phase : Phase) (s : Source) :
    Logged (Option Token × Source) :=
  match phase with
  | .extracting kind => s.extractAs operators kind
  | .dispatch => do
    match ← s.peek 0 with
    | (none, s) => return (none, s)
    | (some c, s) => s.extractAs operators (Kind.of c)

theorem size_takePunctuationRest_le (operators : Operators) (first : Char) (s : Source) :
    (s.takePunctuationRest operators first).value.2.size ≤ s.size := by
  have hpeek := size_peek_le 0 s
  have hadvance := size_advance_le (s.peek 0).value.2
  simp only [takePunctuationRest, Logged.value_bind]
  split
  · exact Nat.le_trans (size_takeThrough_le _ _) hpeek
  · split
    · exact Nat.le_trans (size_takeWhile_le _ _) hpeek
    · split
      · exact Nat.le_trans (size_takeThroughClose_le _) (Nat.le_trans hadvance hpeek)
      · split
        · exact hpeek
        · split
          · exact Nat.le_trans hadvance hpeek
          · exact hpeek

theorem size_takeRest_le (operators : Operators) (kind : Kind) (first : Char) (s : Source) :
    (s.takeRest operators kind first).value.2.size ≤ s.size := by
  cases kind with
  | whitespace => exact size_takeWhile_le _ _
  | word => exact size_takeWhile_le _ _
  | punctuation => exact size_takePunctuationRest_le _ _ _

theorem size_extractAs_lt {operators : Operators} {kind : Kind} {s t : Source} {token : Token}
    (h : (s.extractAs operators kind).value = (some token, t)) : t.size < s.size := by
  simp only [extractAs, Logged.value_bind] at h
  split at h
  · simp at h
  · rename_i first u hu
    simp only [Logged.value_bind, Logged.value_pure, Prod.mk.injEq] at h
    obtain ⟨-, rfl⟩ := h
    exact Nat.lt_of_le_of_lt (size_takeRest_le _ _ _ _) (size_next_lt hu)

theorem size_extractAs_le (operators : Operators) (kind : Kind) (s : Source) :
    (s.extractAs operators kind).value.2.size ≤ s.size := by
  have hnext := size_next_le s
  simp only [extractAs, Logged.value_bind]
  split
  · rename_i u hu
    simpa [hu] using hnext
  · rename_i first u hu
    rw [hu] at hnext
    exact Nat.le_trans (size_takeRest_le _ _ _ _) hnext

theorem size_extract_le (operators : Operators) (phase : Phase) (s : Source) :
    (s.extract operators phase).value.2.size ≤ s.size := by
  cases phase with
  | extracting kind => exact size_extractAs_le _ _ _
  | dispatch =>
    have hpeek := size_peek_le 0 s
    simp only [extract, Logged.value_bind]
    split
    · rename_i u hu
      simpa [hu] using hpeek
    · rename_i c u hu
      rw [hu] at hpeek
      exact Nat.le_trans (size_extractAs_le _ _ _) hpeek

theorem size_extract_lt {operators : Operators} {phase : Phase} {s t : Source} {token : Token}
    (h : (s.extract operators phase).value = (some token, t)) : t.size < s.size := by
  cases phase with
  | extracting kind => exact size_extractAs_lt h
  | dispatch =>
    have hpeek := size_peek_le 0 s
    simp only [extract, Logged.value_bind] at h
    split at h
    · simp at h
    · rename_i c u hu
      rw [hu] at hpeek
      exact Nat.lt_of_lt_of_le (size_extractAs_lt h) hpeek

theorem size_dispatch_le (s : Source) : s.dispatch.value.2.size ≤ s.size :=
  size_peek_le 0 s

end Source

end SemiLex
