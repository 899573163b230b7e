import SemiLex.Event
import SemiLex.Stream

/-!
# Sources of characters

A source decodes characters from a stream on demand.  Characters that were looked at but not
consumed wait in a queue.  A failed read detaches the stream, reads as the end of the input and
is kept until it is taken.  The line is that of the next character to consume.
-/

namespace SemiLex

structure Source where
  stream : Option Stream := none
  /-- Decoded characters that are not yet consumed. -/
  lookahead : Text := []
  /-- Line of the next character, counted from 1. -/
  line : Nat := 1
  /-- The failure that detached the stream, until it is taken. -/
  failure : Option Fault := none
  deriving DecidableEq, Repr

namespace Source

def isOpen (s : Source) : Bool :=
  s.stream.isSome

/-- Bounds the characters, bytes and reads that are left. -/
def size (s : Source) : Nat :=
  s.lookahead.length + s.stream.elim 0 Stream.size

/-! ## Bytes -/

def peekByte (s : Source) : Logged (Option UInt8 × Source) :=
  match s.stream with
  | none => pure (none, s)
  | some stream =>
    match stream.fill with
    | .ok stream => pure (stream.buffer.head?, { s with stream := some stream })
    | .error cause =>
      ⟨(none, { s with stream := none, failure := some cause }), [.readFailed cause s.line]⟩

def dropByte (s : Source) : Source :=
  { s with stream := s.stream.map Stream.tail }

def readByte (s : Source) : Logged (Option UInt8 × Source) := do
  let (b, s) ← s.peekByte
  return (b, s.dropByte)

/-- Consumes up to `n` continuation bytes. -/
def readContinuation : Nat → Source → Logged (List UInt8 × Source)
  | 0, s => pure ([], s)
  | n + 1, s => do
    match ← s.peekByte with
    | (none, s) => return ([], s)
    | (some b, s) =>
      if Utf8.isContinuation b then
        let (bytes, s) ← readContinuation n s.dropByte
        return (b :: bytes, s)
      else return ([], s)

/-! ## Characters -/

/-- Decodes one character from the stream.  A byte that does not continue the sequence before it
is left for the next character. -/
def readChar (s : Source) : Logged (Option Char × Source) := do
  match ← s.readByte with
  | (none, s) => return (none, s)
  | (some lead, s) =>
    let (tail, s) ← s.readContinuation (Utf8.trailing lead)
    match Utf8.interpret lead tail with
    | .ok c => return (some c, s)
    | .error form => ⟨(some Utf8.replacement, s), [.malformed form lead]⟩

def readChars : Nat → Source → Logged (Text × Source)
  | 0, s => pure ([], s)
  | n + 1, s => do
    match ← s.readChar with
    | (none, s) => return ([], s)
    | (some c, s) =>
      let (text, s) ← readChars n s
      return (c :: text, s)

/-- The character `n` places after the next one.  Nothing is consumed. -/
def peek (n : Nat) (s : Source) : Logged (Option Char × Source) :=
  match s.lookahead[n]? with
  | some c => pure (some c, s)
  | none => do
    let (text, s) ← s.readChars (n + 1 - s.lookahead.length)
    let lookahead := s.lookahead ++ text
    return (lookahead[n]?, { s with lookahead })

def advance (s : Source) : Source :=
  match s.lookahead with
  | [] => s
  | c :: lookahead => { s with lookahead, line := if c = '\n' then s.line + 1 else s.line }

def next (s : Source) : Logged (Option Char × Source) := do
  let (c, s) ← s.peek 0
  return (c, s.advance)

/-- Whether every character has been consumed. -/
def atEnd (s : Source) : Logged (Bool × Source) :=
  if s.lookahead = [] then do
    let (b, s) ← s.peekByte
    return (b.isNone, s)
  else pure (false, s)

/-- Takes the failure that ended the input early. -/
def takeFailure (s : Source) : Option ScanError × Source :=
  (s.failure.map .readFailed, { s with failure := none })

/-! ## Opening and closing -/

/-- A source attached to a stream, past a leading byte order mark. -/
def ofStream (stream : Stream) : Logged Source := do
  let (c, s) ← ({ stream := some stream } : Source).peek 0
  return if c = some Utf8.byteOrderMark then { s with lookahead := s.lookahead.tail } else s

def ofBytes (bytes : List UInt8) : Logged Source :=
  ofStream (.ofBytes bytes)

def ofText (text : Text) : Logged Source :=
  ofBytes (Utf8.encode text)

/-- Detaches the stream and forgets the characters not yet consumed. -/
def close (s : Source) : Logged Source :=
  let closed := { s with stream := none, lookahead := [] }
  if s.isOpen then ⟨closed, [.sourceClosed s.line]⟩ else pure closed

/-! ## The measure -/

theorem size_dropByte_le (s : Source) : s.dropByte.size ≤ s.size := by
  cases h : s.stream with
  | none => simp [size, dropByte, h]
  | some stream =>
    have := stream.size_tail_le
    simp only [size, dropByte, h, Option.map_some, Option.elim_some]
    omega

theorem size_peekByte_le (s : Source) : s.peekByte.value.2.size ≤ s.size := by
  rw [peekByte]
  split
  · exact Nat.le_refl _
  · rename_i stream hs
    split
    · rename_i filled hfill
      have := Stream.size_fill_le hfill
      simp only [size, hs, Logged.value_pure, Option.elim_some]
      omega
    · simp only [size, Option.elim_none]
      omega

theorem size_dropByte_lt {s t : Source} {b : UInt8} (h : s.peekByte.value = (some b, t)) :
    t.dropByte.size < t.size := by
  rw [peekByte] at h
  split at h
  · simp at h
  · rename_i stream hs
    split at h
    · rename_i filled hfill
      simp only [Logged.value_pure, Prod.mk.injEq] at h
      obtain ⟨hb, rfl⟩ := h
      have hne : filled.buffer ≠ [] := by
        intro hnil
        simp [hnil] at hb
      have := Stream.size_tail_lt hne
      simp only [size, dropByte, Option.map_some, Option.elim_some]
      omega
    · simp at h

theorem size_readByte_le (s : Source) : s.readByte.value.2.size ≤ s.size :=
  Nat.le_trans (size_dropByte_le _) (size_peekByte_le s)

theorem size_readByte_lt {s t : Source} {b : UInt8} (h : s.readByte.value = (some b, t)) :
    t.size < s.size := by
  simp only [readByte, Logged.value_bind, Logged.value_pure, Prod.mk.injEq] at h
  obtain ⟨hb, rfl⟩ := h
  have hpeek : s.peekByte.value = (some b, s.peekByte.value.2) := by
    rw [← hb]
  exact Nat.lt_of_lt_of_le (size_dropByte_lt hpeek) (size_peekByte_le s)

theorem size_readContinuation_le (n : Nat) (s : Source) :
    (s.readContinuation n).value.2.size ≤ s.size := by
  induction n generalizing s with
  | zero => exact Nat.le_refl _
  | succ n ih =>
    have hpeek := size_peekByte_le s
    simp only [readContinuation, Logged.value_bind]
    split
    · rename_i t ht
      simpa [ht] using hpeek
    · rename_i b t ht
      rw [ht] at hpeek
      split
      · exact Nat.le_trans (ih _) (Nat.le_trans (size_dropByte_le t) hpeek)
      · exact hpeek

theorem size_readChar_le (s : Source) : s.readChar.value.2.size ≤ s.size := by
  have hread := size_readByte_le s
  simp only [readChar, Logged.value_bind]
  split
  · rename_i t ht
    simpa [ht] using hread
  · rename_i lead t ht
    rw [ht] at hread
    have := Nat.le_trans (size_readContinuation_le (Utf8.trailing lead) t) hread
    simp only [Logged.value_bind]
    split <;> exact this

theorem size_readChar_lt {s t : Source} {c : Char} (h : s.readChar.value = (some c, t)) :
    t.size < s.size := by
  simp only [readChar, Logged.value_bind] at h
  split at h
  · simp at h
  · rename_i lead u hu
    have hlt := size_readByte_lt hu
    have hle := size_readContinuation_le (Utf8.trailing lead) u
    simp only [Logged.value_bind] at h
    split at h <;>
    · simp only [Logged.value_pure, Prod.mk.injEq] at h
      obtain ⟨-, rfl⟩ := h
      omega

theorem size_readChars_le (n : Nat) (s : Source) :
    (s.readChars n).value.1.length + (s.readChars n).value.2.size ≤ s.size := by
  induction n generalizing s with
  | zero => simp [readChars]
  | succ n ih =>
    simp only [readChars, Logged.value_bind]
    split
    · rename_i t ht
      have := size_readChar_le s
      rw [ht] at this
      simpa using this
    · rename_i c t ht
      have hlt := size_readChar_lt ht
      have hrest := ih t
      simp only [Logged.value_bind, Logged.value_pure, List.length_cons]
      omega

theorem size_peek_le (n : Nat) (s : Source) : (s.peek n).value.2.size ≤ s.size := by
  have := size_readChars_le (n + 1 - s.lookahead.length) s
  rw [peek]
  split
  · exact Nat.le_refl _
  · simp only [Logged.value_bind, Logged.value_pure]
    simp only [size, List.length_append] at this ⊢
    omega

/-- What a look at position `n` finds is the character that it leaves there. -/
theorem lookahead_peek (n : Nat) (s : Source) :
    (s.peek n).value.2.lookahead[n]? = (s.peek n).value.1 := by
  rw [peek]
  split
  · assumption
  · rfl

theorem size_advance_le (s : Source) : s.advance.size ≤ s.size := by
  rw [advance]
  split
  · exact Nat.le_refl _
  · rename_i c lookahead h
    simp only [size, h, List.length_cons]
    omega

theorem size_advance_lt {s t : Source} {c : Char} (h : (s.peek 0).value = (some c, t)) :
    t.advance.size < s.size := by
  have hle : t.size ≤ s.size := by
    simpa [h] using size_peek_le 0 s
  have hfound := lookahead_peek 0 s
  rw [h] at hfound
  obtain ⟨d, lookahead, hcons⟩ : ∃ d lookahead, t.lookahead = d :: lookahead := by
    cases hl : t.lookahead with
    | nil => simp [hl] at hfound
    | cons d lookahead => exact ⟨d, lookahead, rfl⟩
  have : t.advance.size < t.size := by
    simp only [advance, hcons, size, List.length_cons]
    omega
  omega

theorem size_next_le (s : Source) : s.next.value.2.size ≤ s.size :=
  Nat.le_trans (size_advance_le _) (size_peek_le 0 s)

theorem size_next_lt {s t : Source} {c : Char} (h : s.next.value = (some c, t)) :
    t.size < s.size := by
  simp only [next, Logged.value_bind, Logged.value_pure, Prod.mk.injEq] at h
  obtain ⟨hc, rfl⟩ := h
  apply size_advance_lt (c := c)
  rw [← hc]

end Source

end SemiLex
