import SemiLex.Lexeme
import SemiLex.Source.Open

/-!
# Tokenizers

A tokenizer hands out the lexemes of a source that are not whitespace.  It knows the phase of
the lexeme in front of it, so that it is done as soon as the last character is consumed.  On
request, whitespace with a line feed in it is surfaced as the marker of a line break.
-/

namespace SemiLex

structure Tokenizer where
  source : Source
  /-- The phase that extracts the next lexeme, none at the end of the input. -/
  phase : Option Phase
  operators : Operators
  returnNewlines : Bool
  deriving DecidableEq, Repr

namespace Tokenizer

def ofSettings (settings : ScanSettings) : Tokenizer where
  source := {}
  phase := none
  operators := .ofSettings settings
  returnNewlines := settings.returnNewlines

instance : Inhabited Tokenizer := ⟨ofSettings .default⟩

def isDone (t : Tokenizer) : Bool :=
  t.phase.isNone

def line (t : Tokenizer) : Nat :=
  t.source.line

/-- Looks at the next character for the next phase. -/
def dispatch (t : Tokenizer) : Logged Tokenizer := do
  let (phase, source) ← t.source.dispatch
  return { t with phase, source }

/-! ## Opening and closing -/

/-- Goes on with another source. -/
def attach (source : Source) (t : Tokenizer) : Logged Tokenizer := do
  let _ ← t.source.close
  dispatch { t with source }

def openText (text : Text) (t : Tokenizer) : Logged Tokenizer := do
  let source ← Source.ofText text
  t.attach source

/-- Goes on with the file at `path`.  If that fails, the tokenizer is done and without input. -/
def tryOpen (files : FileTree) (path : String) (t : Tokenizer) :
    Logged (Except ScanError Unit × Tokenizer) := do
  match ← t.source.tryOpen files path with
  | (.ok (), source) =>
    let t ← dispatch { t with source }
    return (.ok (), t)
  | (.error error, source) => return (.error error, { t with source, phase := none })

def openFile (files : FileTree) (path : String) (t : Tokenizer) :
    Logged (Bool × Tokenizer) := do
  match ← t.tryOpen files path with
  | (.ok (), t) => return (true, t)
  | (.error error, t) =>
    .report (.tokenizerNotOpened error)
    return (false, t)

def close (t : Tokenizer) : Logged Tokenizer := do
  let source ← t.source.close
  return { t with source, phase := none }

def takeFailure (t : Tokenizer) : Option ScanError × Tokenizer :=
  let (failure, source) := t.source.takeFailure
  (failure, { t with source })

/-! ## Tokens -/

theorem size_dispatch_le (t : Tokenizer) : t.dispatch.value.source.size ≤ t.source.size :=
  Source.size_dispatch_le t.source

/-- The next token, none at the end of the input. -/
def next (t : Tokenizer) : Logged (Option Token × Tokenizer) := do
  match t.phase with
  | none => return (none, t)
  | some phase =>
    match ← (t.source.extract t.operators phase).attach with
    | ⟨(none, source), _⟩ =>
      let t ← dispatch { t with source }
      return (none, t)
    | ⟨(some token, source), _extracted⟩ =>
      let ⟨u, _following⟩ ← (dispatch { t with source }).attach
      if !token.isWhitespace then
        .report (.tokenScanned token.text u.line)
        return (some token, u)
      else if u.returnNewlines && token.text.contains '\n' then return (some .newline, u)
      else next u
termination_by t.source.size
decreasing_by
  have hle := size_dispatch_le { t with source }
  rw [← _following] at hle
  exact Nat.lt_of_le_of_lt hle (Source.size_extract_lt _extracted.symm)

theorem next_eq (t : Tokenizer) :
    t.next = (match t.phase with
      | none => pure (none, t)
      | some phase => do
        match ← t.source.extract t.operators phase with
        | (none, source) =>
          let t ← dispatch { t with source }
          return (none, t)
        | (some token, source) =>
          let u ← dispatch { t with source }
          if !token.isWhitespace then
            .report (.tokenScanned token.text u.line)
            return (some token, u)
          else if u.returnNewlines && token.text.contains '\n' then return (some .newline, u)
          else u.next) := by
  rw [next]
  split
  · rfl
  · apply Logged.attach_bind_congr
    rintro ⟨_ | token, source⟩ h
    · rfl
    · apply Logged.attach_bind_congr
      intro u hu
      rfl

theorem size_next_lt {t u : Tokenizer} {token : Token} (h : t.next.value = (some token, u)) :
    u.source.size < t.source.size := by
  rw [next_eq] at h
  split at h
  · simp at h
  · rename_i phase hphase
    simp only [Logged.value_bind] at h
    split at h
    · simp at h
    · rename_i lexeme source hsource
      have hlt := Source.size_extract_lt hsource
      have hle := size_dispatch_le { t with source }
      simp only [Logged.value_bind] at h
      split at h
      · simp only [Logged.value_bind, Logged.value_pure, Prod.mk.injEq] at h
        obtain ⟨-, rfl⟩ := h
        exact Nat.lt_of_le_of_lt hle hlt
      · split at h
        · simp only [Logged.value_pure, Prod.mk.injEq] at h
          obtain ⟨-, rfl⟩ := h
          exact Nat.lt_of_le_of_lt hle hlt
        · exact Nat.lt_trans (size_next_lt h) (Nat.lt_of_le_of_lt hle hlt)
termination_by t.source.size
decreasing_by exact Nat.lt_of_le_of_lt hle hlt

theorem size_next_le (t : Tokenizer) : t.next.value.2.source.size ≤ t.source.size := by
  cases h : t.next.value with
  | mk token u =>
    cases token with
    | some token => exact Nat.le_of_lt (size_next_lt h)
    | none =>
      rw [next_eq] at h
      split at h
      · cases h
        exact Nat.le_refl _
      · rename_i phase hphase
        have hextract := Source.size_extract_le t.operators phase t.source
        simp only [Logged.value_bind] at h
        split at h
        · rename_i source hsource
          rw [hsource] at hextract
          simp only [Logged.value_bind, Logged.value_pure, Prod.mk.injEq, true_and] at h
          subst h
          exact Nat.le_trans (size_dispatch_le { t with source }) hextract
        · rename_i lexeme source hsource
          have hlt := Source.size_extract_lt hsource
          have hle := size_dispatch_le { t with source }
          simp only [Logged.value_bind] at h
          split at h
          · simp at h
          · split at h
            · simp at h
            · have := size_next_le (dispatch { t with source }).value
              rw [h] at this
              exact Nat.le_of_lt (Nat.lt_of_le_of_lt this (Nat.lt_of_le_of_lt hle hlt))
termination_by t.source.size
decreasing_by exact Nat.lt_of_le_of_lt hle hlt

/-! ## Runs of tokens -/

def take : Nat → Tokenizer → Logged (List (Token × Nat) × Tokenizer)
  | 0, t => pure ([], t)
  | n + 1, t => do
    match ← t.next with
    | (none, t) => return ([], t)
    | (some token, t) =>
      let (tokens, u) ← take n t
      return ((token, t.line) :: tokens, u)

/-- All tokens that are left, each with the line that the scan has reached after it. -/
def rest (t : Tokenizer) : Logged (List (Token × Nat) × Tokenizer) := do
  match ← t.next.attach with
  | ⟨(none, u), _⟩ => return ([], u)
  | ⟨(some token, u), _found⟩ =>
    let (tokens, v) ← rest u
    return ((token, u.line) :: tokens, v)
termination_by t.source.size
decreasing_by exact size_next_lt _found.symm

theorem rest_eq (t : Tokenizer) :
    t.rest = (do
      match ← t.next with
      | (none, u) => return ([], u)
      | (some token, u) =>
        let (tokens, v) ← u.rest
        return ((token, u.line) :: tokens, v)) := by
  rw [rest]
  apply Logged.attach_bind_congr
  rintro ⟨_ | token, u⟩ h <;> rfl

end Tokenizer

end SemiLex
