import SemiLex.Source

/-!
# Runs of characters

The three ways in which a lexeme goes on: while the characters are of a class, through a closing
mark, and through the close of a block comment.  Beside them, the characters up to the first end:
as many as asked for, or all.
-/

namespace SemiLex.Source

def takeWhile (p : Char → Bool) (s : Source) : Logged (Text × Source) := do
  match ← (s.peek 0).attach with
  | ⟨(none, t), _⟩ => return ([], t)
  | ⟨(some c, t), _found⟩ =>
    if p c then
      let (text, u) ← takeWhile p t.advance
      return (c :: text, u)
    else return ([], t)
termination_by s.size
decreasing_by exact size_advance_lt _found.symm

/-- Consumes characters through the first `mark`. -/
def takeThrough (mark : Char) (s : Source) : Logged (Text × Source) := do
  match ← s.next.attach with
  | ⟨(none, t), _⟩ => return ([], t)
  | ⟨(some c, t), _found⟩ =>
    if c = mark then return ([c], t)
    else
      let (text, u) ← takeThrough mark t
      return (c :: text, u)
termination_by s.size
decreasing_by exact size_next_lt _found.symm

/-- Consumes characters through the first asterisk that a slash follows, and that slash. -/
def takeThroughClose (s : Source) : Logged (Text × Source) := do
  match ← s.next.attach with
  | ⟨(none, t), _⟩ => return ([], t)
  | ⟨(some c, t), _found⟩ =>
    if c = '*' then
      let ⟨(d, u), _seen⟩ ← (t.peek 0).attach
      if d = some '/' then return (['*', '/'], u.advance)
      else
        let (text, v) ← takeThroughClose u
        return ('*' :: text, v)
    else
      let (text, u) ← takeThroughClose t
      return (c :: text, u)
termination_by s.size
decreasing_by
  · have hlt := size_next_lt _found.symm
    have hle := size_peek_le 0 t
    rw [← _seen] at hle
    exact Nat.lt_of_le_of_lt hle hlt
  · exact size_next_lt _found.symm

def take : Nat → Source → Logged (Text × Source)
  | 0, s => pure ([], s)
  | n + 1, s => do
    match ← s.next with
    | (none, s) => return ([], s)
    | (some c, s) =>
      let (text, s) ← take n s
      return (c :: text, s)

def rest (s : Source) : Logged (Text × Source) :=
  s.takeWhile fun _ => true

/-! ## One step of each run -/

theorem takeWhile_eq (p : Char → Bool) (s : Source) :
    s.takeWhile p = do
      match ← s.peek 0 with
      | (none, t) => return ([], t)
      | (some c, t) =>
        if p c then
          let (text, u) ← t.advance.takeWhile p
          return (c :: text, u)
        else return ([], t) := by
  rw [takeWhile]
  apply Logged.attach_bind_congr
  rintro ⟨_ | c, t⟩ h <;> rfl

theorem takeThrough_eq (mark : Char) (s : Source) :
    s.takeThrough mark = do
      match ← s.next with
      | (none, t) => return ([], t)
      | (some c, t) =>
        if c = mark then return ([c], t)
        else
          let (text, u) ← t.takeThrough mark
          return (c :: text, u) := by
  rw [takeThrough]
  apply Logged.attach_bind_congr
  rintro ⟨_ | c, t⟩ h <;> rfl

theorem takeThroughClose_eq (s : Source) :
    s.takeThroughClose = do
      match ← s.next with
      | (none, t) => return ([], t)
      | (some c, t) =>
        if c = '*' then
          let (d, u) ← t.peek 0
          if d = some '/' then return (['*', '/'], u.advance)
          else
            let (text, v) ← u.takeThroughClose
            return ('*' :: text, v)
        else
          let (text, u) ← t.takeThroughClose
          return (c :: text, u) := by
  rw [takeThroughClose]
  apply Logged.attach_bind_congr
  rintro ⟨_ | c, t⟩ h
  · rfl
  · dsimp only
    split
    · apply Logged.attach_bind_congr
      rintro ⟨d, u⟩ hd
      rfl
    · rfl

/-! ## The measure -/

theorem size_takeWhile_le (p : Char → Bool) (s : Source) :
    (s.takeWhile p).value.2.size ≤ s.size := by
  have hpeek := size_peek_le 0 s
  rw [takeWhile_eq]
  simp only [Logged.value_bind]
  split
  · rename_i t ht
    simpa [ht] using hpeek
  · rename_i c t ht
    rw [ht] at hpeek
    split
    · have hlt := size_advance_lt ht
      have := size_takeWhile_le p t.advance
      simp only [Logged.value_bind, Logged.value_pure]
      omega
    · exact hpeek
termination_by s.size

theorem size_takeThrough_le (mark : Char) (s : Source) :
    (s.takeThrough mark).value.2.size ≤ s.size := by
  have hnext := size_next_le s
  rw [takeThrough_eq]
  simp only [Logged.value_bind]
  split
  · rename_i t ht
    simpa [ht] using hnext
  · rename_i c t ht
    rw [ht] at hnext
    split
    · exact hnext
    · have hlt := size_next_lt ht
      have := size_takeThrough_le mark t
      simp only [Logged.value_bind, Logged.value_pure]
      omega
termination_by s.size

theorem size_takeThroughClose_le (s : Source) :
    s.takeThroughClose.value.2.size ≤ s.size := by
  have hnext := size_next_le s
  rw [takeThroughClose_eq]
  simp only [Logged.value_bind]
  split
  · rename_i t ht
    simpa [ht] using hnext
  · rename_i c t ht
    have hlt := size_next_lt ht
    have hpeek := size_peek_le 0 t
    split
    · have hadvance := size_advance_le (t.peek 0).value.2
      have := size_takeThroughClose_le (t.peek 0).value.2
      simp only [Logged.value_bind]
      split <;> simp only [Logged.value_bind, Logged.value_pure] <;> omega
    · have := size_takeThroughClose_le t
      simp only [Logged.value_bind, Logged.value_pure]
      omega
termination_by s.size

end SemiLex.Source
