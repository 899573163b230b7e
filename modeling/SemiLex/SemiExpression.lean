import SemiLex.Token

/-!
# Semi-expressions

A semi-expression is an editable sequence of tokens.  Every operation that adds tokens leaves
out empty ones, except for the assignment to a position, which takes any token.
-/

namespace SemiLex

structure SemiExpression where
  tokens : List Token
  deriving DecidableEq, Repr

structure OutOfBounds where
  length : Nat
  index : Nat
  deriving DecidableEq, Repr

def OutOfBounds.message (e : OutOfBounds) : String :=
  "index out of bounds: the len is " ++ toString e.length ++ " but the index is " ++
    toString e.index

namespace SemiExpression

def empty : SemiExpression :=
  ⟨[]⟩

instance : EmptyCollection SemiExpression := ⟨empty⟩

instance : Inhabited SemiExpression := ⟨empty⟩

def length (s : SemiExpression) : Nat :=
  s.tokens.length

def isEmpty (s : SemiExpression) : Bool :=
  s.tokens.isEmpty

/-! ## Building -/

/-- The sequence of these tokens, without the empty ones. -/
def ofTokens (tokens : List Token) : SemiExpression :=
  ⟨tokens.filter fun t => !t.isEmpty⟩

def push (s : SemiExpression) (token : Token) : SemiExpression :=
  if token.isEmpty then s else ⟨s.tokens ++ [token]⟩

def extend (s : SemiExpression) (tokens : List Token) : SemiExpression :=
  ⟨s.tokens ++ tokens.filter fun t => !t.isEmpty⟩

/-! ## Editing

Each of these edits says whether it was made. -/

def set (s : SemiExpression) (index : Nat) (token : Token) : Bool × SemiExpression :=
  if index < s.length ∧ token.isEmpty = false then (true, ⟨s.tokens.set index token⟩)
  else (false, s)

/-- Inserts in front of the token at a position. -/
def insert (s : SemiExpression) (index : Nat) (token : Token) : Bool × SemiExpression :=
  if index < s.length ∧ token.isEmpty = false then
    (true, ⟨s.tokens.take index ++ token :: s.tokens.drop index⟩)
  else (false, s)

def remove (s : SemiExpression) (index : Nat) : Bool × SemiExpression :=
  if index < s.length then (true, ⟨s.tokens.eraseIdx index⟩) else (false, s)

def findFirst (s : SemiExpression) (text : Text) : Option Nat :=
  s.tokens.findIdx? fun t => t.text == text

def findLast (s : SemiExpression) (text : Text) : Option Nat :=
  (s.tokens.reverse.findIdx? fun t => t.text == text).map fun i => s.length - 1 - i

/-- Removes the first token with this text. -/
def removeToken (s : SemiExpression) (text : Text) : Bool × SemiExpression :=
  match s.findFirst text with
  | some index => s.remove index
  | none => (false, s)

/-- Drops the whitespace tokens, apart from line break markers if they are to be kept. -/
def trim (s : SemiExpression) (keepNewlines : Bool) : SemiExpression :=
  ⟨s.tokens.filter fun t => !t.isWhitespace || (keepNewlines && t.isNewline)⟩

/-! ## Positions -/

def get? (s : SemiExpression) (index : Nat) : Option Token :=
  s.tokens[index]?

def tokenAt (s : SemiExpression) (index : Nat) : Except OutOfBounds Token :=
  match s.tokens[index]? with
  | some token => .ok token
  | none => .error ⟨s.length, index⟩

/-- Puts any token, also an empty one, at a position that has to exist. -/
def assign (s : SemiExpression) (index : Nat) (token : Token) :
    Except OutOfBounds SemiExpression :=
  if index < s.length then .ok ⟨s.tokens.set index token⟩ else .error ⟨s.length, index⟩

/-! ## Rendering -/

/-- What stands between a token and the next one.  A line comment needs a line break, and a
token that ends with one needs nothing. -/
def separatorAfter (t : Token) : Option Char :=
  if t.endsWithNewline then none
  else if t.isLineComment then some '\n'
  else some ' '

/-- The separator in front of a token.  A line break marker replaces a line break. -/
def separatorBefore (separator : Option Char) (t : Token) : Text :=
  if separator = some '\n' ∧ t.isNewline = true then [] else separator.toList

def renderAfter (separator : Option Char) : List Token → Text
  | [] => []
  | t :: tokens => separatorBefore separator t ++ t.text ++ renderAfter (separatorAfter t) tokens

/-- The tokens as text.  Line break markers are left out unless they are to be shown. -/
def render (s : SemiExpression) (displayNewlines : Bool) : Text :=
  renderAfter none (s.tokens.filter fun t => displayNewlines || !t.isNewline)

/-- The rendering on an output line of its own. -/
def display (s : SemiExpression) (displayNewlines : Bool) : Text :=
  ['\n', ' ', '-', '-', ' '] ++ s.render displayNewlines

end SemiExpression

end SemiLex
