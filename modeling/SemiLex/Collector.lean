import SemiLex.SemiExpression
import SemiLex.Tokenizer

/-!
# Collecting semi-expressions

A unit ends with `;`, `{` or `}`, and on a directive line, which starts with `#`, with the line
break.  A semi-expression is one unit, or three of them if the first contains `for`, so that the
header of a loop stays in one piece.
-/

namespace SemiLex

structure Collector where
  tokenizer : Tokenizer
  semi : SemiExpression
  settings : GroupSettings
  deriving DecidableEq, Repr

namespace Collector

/-- A collector without input.  Line break markers are always surfaced, since directive lines end
with them. -/
def ofSettings (settings : Settings) : Collector where
  tokenizer := { Tokenizer.ofSettings settings.scanner with returnNewlines := true }
  semi := ∅
  settings := settings.semi

instance : Inhabited Collector := ⟨ofSettings .default⟩

def isDone (c : Collector) : Bool :=
  c.tokenizer.isDone

def line (c : Collector) : Nat :=
  c.tokenizer.line

/-! ## Opening and closing -/

def openText (text : Text) (c : Collector) : Logged Collector := do
  let tokenizer ← c.tokenizer.openText text
  return { c with tokenizer }

def tryOpen (files : FileTree) (path : String) (c : Collector) :
    Logged (Except ScanError Unit × Collector) := do
  let (result, tokenizer) ← c.tokenizer.tryOpen files path
  return (result, { c with tokenizer })

def openFile (files : FileTree) (path : String) (c : Collector) :
    Logged (Bool × Collector) := do
  let (opened, tokenizer) ← c.tokenizer.openFile files path
  return (opened, { c with tokenizer })

def close (c : Collector) : Logged Collector := do
  let tokenizer ← c.tokenizer.close
  return { c with tokenizer }

/-! ## Units -/

def terminates (first : Option Token) (t : Token) : Bool :=
  t.text == [';'] || t.text == ['{'] || t.text == ['}'] ||
    (t.isNewline && first.any fun f => f.text == ['#'])

/-- Whether a token goes into the unit whose first token is `first`.  Line break markers are kept
only on request, and never at the start. -/
def keeps (settings : GroupSettings) (first : Option Token) (t : Token) : Bool :=
  !t.isNewline || (settings.returnNewlines && first.isSome)

/-- The tokens up to the end of the unit whose first token is `first`. -/
def takeUnit (settings : GroupSettings) (first : Option Token) (t : Tokenizer) :
    Logged (List Token × Tokenizer) := do
  match ← t.next.attach with
  | ⟨(none, u), _⟩ => return ([], u)
  | ⟨(some token, u), _found⟩ =>
    if settings.discardComments && token.isComment then takeUnit settings first u
    else if keeps settings first token then
      if terminates first token then return ([token], u)
      else
        let (tokens, v) ← takeUnit settings (first.or (some token)) u
        return (token :: tokens, v)
    else if terminates first token then return ([], u)
    else takeUnit settings first u
termination_by t.source.size
decreasing_by all_goals exact Tokenizer.size_next_lt _found.symm

def collectUnit (settings : GroupSettings) (t : Tokenizer) :
    Logged (SemiExpression × Tokenizer) := do
  let (tokens, t) ← takeUnit settings none t
  return (SemiExpression.trim (.ofTokens tokens) settings.returnNewlines, t)

/-! ## Semi-expressions -/

/-- Adds the two units that a loop header needs after its first one. -/
def mergeClauses (settings : GroupSettings) (semi : SemiExpression) (line : Nat) (t : Tokenizer) :
    Logged (SemiExpression × Tokenizer) := do
  if (semi.findFirst ['f', 'o', 'r']).isSome then
    .report (.clausesMerged line)
    let (second, t) ← collectUnit settings t
    let (third, t) ← collectUnit settings t
    return ((semi.extend second.tokens).extend third.tokens, t)
  else return (semi, t)

def render (c : Collector) : Text :=
  c.semi.render c.settings.displayNewlines

/-- The rendering of the current semi-expression on an output line of its own. -/
def display (c : Collector) : Text :=
  c.semi.display c.settings.displayNewlines

/-- Logs the current semi-expression if that is wanted and there is one.  The line is that of its
start. -/
def announce (line : Nat) (c : Collector) : Logged Unit :=
  if c.settings.verbose && !c.semi.isEmpty then .report (.semiCollected c.render line)
  else pure ()

/-- Collects the next semi-expression.  There is none at the end of the input. -/
def next (c : Collector) : Logged (Bool × Collector) := do
  let (unit, tokenizer) ← collectUnit c.settings c.tokenizer
  let (semi, tokenizer) ← mergeClauses c.settings unit c.line tokenizer
  let d := { c with tokenizer, semi }
  d.announce c.line
  return (!semi.isEmpty, d)

def takeSemi (c : Collector) : SemiExpression × Collector :=
  (c.semi, { c with semi := ∅ })

/-! ## The measure -/

theorem takeUnit_eq (settings : GroupSettings) (first : Option Token) (t : Tokenizer) :
    takeUnit settings first t = (do
      match ← t.next with
      | (none, u) => return ([], u)
      | (some token, u) =>
        if settings.discardComments && token.isComment then takeUnit settings first u
        else if keeps settings first token then
          if terminates first token then return ([token], u)
          else
            let (tokens, v) ← takeUnit settings (first.or (some token)) u
            return (token :: tokens, v)
        else if terminates first token then return ([], u)
        else takeUnit settings first u) := by
  rw [takeUnit]
  apply Logged.attach_bind_congr
  rintro ⟨_ | token, u⟩ h <;> rfl

/-- A unit never gives input back, and one with a token in it has used some up. -/
theorem size_takeUnit (settings : GroupSettings) (first : Option Token) (t : Tokenizer) :
    (takeUnit settings first t).value.2.source.size ≤ t.source.size ∧
      ((takeUnit settings first t).value.1 ≠ [] →
        (takeUnit settings first t).value.2.source.size < t.source.size) := by
  have hle := t.size_next_le
  rw [takeUnit_eq]
  simp only [Logged.value_bind]
  split
  · rename_i u hu
    rw [hu] at hle
    exact ⟨hle, fun h => absurd rfl h⟩
  · rename_i token u hu
    have hlt := Tokenizer.size_next_lt hu
    split
    · have := size_takeUnit settings first u
      omega
    · split
      · split
        · exact ⟨Nat.le_of_lt hlt, fun _ => hlt⟩
        · have := (size_takeUnit settings (first.or (some token)) u).1
          simp only [Logged.value_bind, Logged.value_pure]
          omega
      · split
        · exact ⟨Nat.le_of_lt hlt, fun h => absurd rfl h⟩
        · have := size_takeUnit settings first u
          omega
termination_by t.source.size

theorem size_collectUnit_le (settings : GroupSettings) (t : Tokenizer) :
    (collectUnit settings t).value.2.source.size ≤ t.source.size :=
  (size_takeUnit settings none t).1

theorem size_collectUnit_lt {settings : GroupSettings} {t : Tokenizer}
    (h : (collectUnit settings t).value.1.tokens ≠ []) :
    (collectUnit settings t).value.2.source.size < t.source.size := by
  refine (size_takeUnit settings none t).2 fun hnil => h ?_
  simp [collectUnit, hnil, SemiExpression.ofTokens, SemiExpression.trim]

theorem size_mergeClauses_le (settings : GroupSettings) (semi : SemiExpression) (line : Nat)
    (t : Tokenizer) :
    (mergeClauses settings semi line t).value.2.source.size ≤ t.source.size := by
  rw [mergeClauses]
  split
  · exact Nat.le_trans (size_collectUnit_le _ _) (size_collectUnit_le _ _)
  · exact Nat.le_refl _

theorem mergeClauses_of_nil {settings : GroupSettings} {semi : SemiExpression} {line : Nat}
    {t : Tokenizer} (h : semi.tokens = []) :
    mergeClauses settings semi line t = pure (semi, t) := by
  simp [mergeClauses, SemiExpression.findFirst, h]

theorem size_next_lt {c d : Collector} (h : c.next.value = (true, d)) :
    d.tokenizer.source.size < c.tokenizer.source.size := by
  simp only [next, Logged.value_bind, Logged.value_pure, Prod.mk.injEq] at h
  obtain ⟨hsome, rfl⟩ := h
  refine Nat.lt_of_le_of_lt (size_mergeClauses_le _ _ _ _) (size_collectUnit_lt fun hnil => ?_)
  rw [mergeClauses_of_nil hnil] at hsome
  simp [SemiExpression.isEmpty, hnil] at hsome

/-! ## Runs of semi-expressions -/

/-- The collector after each semi-expression that is left, and the one at the end of the input. -/
def rest (c : Collector) : Logged (List Collector × Collector) := do
  match ← c.next.attach with
  | ⟨(false, d), _⟩ => return ([], d)
  | ⟨(true, d), _found⟩ =>
    let (collectors, e) ← rest d
    return (d :: collectors, e)
termination_by c.tokenizer.source.size
decreasing_by exact size_next_lt _found.symm

theorem rest_eq (c : Collector) :
    c.rest = (do
      match ← c.next with
      | (false, d) => return ([], d)
      | (true, d) =>
        let (collectors, e) ← d.rest
        return (d :: collectors, e)) := by
  rw [rest]
  apply Logged.attach_bind_congr
  rintro ⟨_ | _, d⟩ h <;> rfl

end Collector

end SemiLex
