import SemiLex.Tokenizer

/-!
# From one moment to the next

All that a scan does to a stream is to look at its next byte and to drop it.  Everything else
happens in the queue.  So an invariant of the stream and of the failure that is kept by a look and
by a drop is kept by every scan, and it holds at every moment of it.
-/

namespace SemiLex

namespace Source

variable {s t u : Source} {operators : Operators}

/-- `t` is a moment at or after `s`: bytes were looked at and dropped, and the queue and the line
may be any. -/
inductive Later (s : Source) : Source → Prop
  | now : Later s s
  | peekByte {t : Source} (h : Later s t) : Later s t.peekByte.value.2
  | dropByte {t : Source} (h : Later s t) : Later s t.dropByte
  | queue {t u : Source} (h : Later s t) (hstream : u.stream = t.stream)
    (hfailure : u.failure = t.failure) : Later s u

theorem Later.trans (hst : Later s t) (htu : Later t u) : Later s u := by
  induction htu with
  | now => exact hst
  | peekByte _ ih => exact ih.peekByte
  | dropByte _ ih => exact ih.dropByte
  | queue _ hstream hfailure ih => exact ih.queue hstream hfailure

/-! ## Characters -/

theorem later_readByte (s : Source) : Later s s.readByte.value.2 :=
  Later.now.peekByte.dropByte

theorem later_readContinuation (n : Nat) (s : Source) :
    Later s (s.readContinuation n).value.2 := by
  induction n generalizing s with
  | zero => exact .now
  | succ n ih =>
    have hpeek : Later s s.peekByte.value.2 := Later.now.peekByte
    simp only [readContinuation, Logged.value_bind]
    split
    · rename_i t ht
      rwa [ht] at hpeek
    · rename_i b t ht
      rw [ht] at hpeek
      split
      · exact hpeek.dropByte.trans (ih t.dropByte)
      · exact hpeek

theorem later_readChar (s : Source) : Later s s.readChar.value.2 := by
  have hread := later_readByte s
  simp only [readChar, Logged.value_bind]
  split
  · rename_i t ht
    rwa [ht] at hread
  · rename_i lead t ht
    rw [ht] at hread
    have hboth := hread.trans (later_readContinuation (Utf8.trailing lead) t)
    simp only [Logged.value_bind]
    split <;> exact hboth

theorem later_readChars (n : Nat) (s : Source) : Later s (s.readChars n).value.2 := by
  induction n generalizing s with
  | zero => exact .now
  | succ n ih =>
    have hread := later_readChar s
    simp only [readChars, Logged.value_bind]
    split
    · rename_i t ht
      rwa [ht] at hread
    · rename_i c t ht
      rw [ht] at hread
      exact hread.trans (ih t)

theorem later_peek (n : Nat) (s : Source) : Later s (s.peek n).value.2 := by
  rw [peek]
  split
  · exact .now
  · exact (later_readChars _ s).queue rfl rfl

theorem later_advance (s : Source) : Later s s.advance := by
  rw [advance]
  split
  · exact .now
  · exact Later.now.queue rfl rfl

theorem later_next (s : Source) : Later s s.next.value.2 :=
  (later_peek 0 s).trans (later_advance _)

theorem later_ofStream (stream : Stream) :
    Later { stream := some stream } (ofStream stream).value := by
  have hpeek := later_peek 0 { stream := some stream }
  simp only [ofStream, Logged.value_bind, Logged.value_pure]
  split
  · exact hpeek.queue rfl rfl
  · exact hpeek

/-! ## Lexemes -/

theorem later_takeWhile (p : Char → Bool) (s : Source) : Later s (s.takeWhile p).value.2 := by
  have hpeek := later_peek 0 s
  rw [takeWhile_eq]
  simp only [Logged.value_bind]
  split
  · rename_i t ht
    rwa [ht] at hpeek
  · rename_i c t ht
    have hlt := size_advance_lt ht
    rw [ht] at hpeek
    split
    · exact (hpeek.trans (later_advance t)).trans (later_takeWhile p t.advance)
    · exact hpeek
termination_by s.size

theorem later_takeThrough (mark : Char) (s : Source) :
    Later s (s.takeThrough mark).value.2 := by
  have hnext := later_next s
  rw [takeThrough_eq]
  simp only [Logged.value_bind]
  split
  · rename_i t ht
    rwa [ht] at hnext
  · rename_i c t ht
    have hlt := size_next_lt ht
    rw [ht] at hnext
    split
    · exact hnext
    · exact hnext.trans (later_takeThrough mark t)
termination_by s.size

theorem later_takeThroughClose (s : Source) : Later s s.takeThroughClose.value.2 := by
  have hnext := later_next s
  rw [takeThroughClose_eq]
  simp only [Logged.value_bind]
  split
  · rename_i t ht
    rwa [ht] at hnext
  · rename_i c t ht
    have hlt := size_next_lt ht
    have hle := size_peek_le 0 t
    rw [ht] at hnext
    split
    · have hpeek := hnext.trans (later_peek 0 t)
      simp only [Logged.value_bind]
      split
      · exact hpeek.trans (later_advance _)
      · exact hpeek.trans (later_takeThroughClose (t.peek 0).value.2)
    · exact hnext.trans (later_takeThroughClose t)
termination_by s.size

theorem later_takePunctuationRest (operators : Operators) (first : Char) (s : Source) :
    Later s (s.takePunctuationRest operators first).value.2 := by
  have hpeek := later_peek 0 s
  have hadvance := hpeek.trans (later_advance _)
  simp only [takePunctuationRest, Logged.value_bind]
  split
  · exact hpeek.trans (later_takeThrough _ _)
  · split
    · exact hpeek.trans (later_takeWhile _ _)
    · split
      · exact hadvance.trans (later_takeThroughClose _)
      · split
        · exact hpeek
        · split
          · exact hadvance
          · exact hpeek

theorem later_takeRest (operators : Operators) (kind : Kind) (first : Char) (s : Source) :
    Later s (s.takeRest operators kind first).value.2 := by
  cases kind with
  | whitespace => exact later_takeWhile _ _
  | word => exact later_takeWhile _ _
  | punctuation => exact later_takePunctuationRest _ _ _

theorem later_extractAs (operators : Operators) (kind : Kind) (s : Source) :
    Later s (s.extractAs operators kind).value.2 := by
  have hnext := later_next s
  simp only [extractAs, Logged.value_bind]
  split
  · rename_i t ht
    rwa [ht] at hnext
  · rename_i first t ht
    rw [ht] at hnext
    exact hnext.trans (later_takeRest operators kind first t)

theorem later_extract (operators : Operators) (phase : Phase) (s : Source) :
    Later s (s.extract operators phase).value.2 := by
  cases phase with
  | extracting kind => exact later_extractAs operators kind s
  | dispatch =>
    have hpeek := later_peek 0 s
    simp only [extract, Logged.value_bind]
    split
    · rename_i t ht
      rwa [ht] at hpeek
    · rename_i c t ht
      rw [ht] at hpeek
      exact hpeek.trans (later_extractAs operators (Kind.of c) t)

end Source

/-! ## Tokens -/

theorem Tokenizer.later_dispatch (t : Tokenizer) :
    t.source.Later t.dispatch.value.source :=
  Source.later_peek 0 t.source

theorem Tokenizer.later_next (t : Tokenizer) : t.source.Later t.next.value.2.source := by
  rw [next_eq]
  split
  · exact .now
  · rename_i phase hphase
    have hextract := Source.later_extract t.operators phase t.source
    simp only [Logged.value_bind]
    split
    · rename_i source hsource
      rw [hsource] at hextract
      exact hextract.trans (later_dispatch { t with source })
    · rename_i lexeme source hsource
      have hlt := Source.size_extract_lt hsource
      have hle := size_dispatch_le { t with source }
      rw [hsource] at hextract
      have hdispatch := hextract.trans (later_dispatch { t with source })
      simp only [Logged.value_bind]
      split
      · exact hdispatch
      · split
        · exact hdispatch
        · exact hdispatch.trans (later_next (dispatch { t with source }).value)
termination_by t.source.size
decreasing_by exact Nat.lt_of_le_of_lt hle hlt

end SemiLex
