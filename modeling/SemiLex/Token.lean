import SemiLex.Unicode.Class

/-!
# Tokens

A token is a text and the lexical kind it was scanned as.  The kind is stored, because a scan
that is forced into one kind may start at a character of another.
-/

namespace SemiLex

/-- The text of a token, or any run of decoded characters. -/
abbrev Text := List Char

def Text.byteLength : Text → Nat
  | [] => 0
  | c :: text => c.utf8Size + Text.byteLength text

inductive Kind where
  | whitespace
  | word
  /-- An operator, a literal or a comment. -/
  | punctuation
  deriving DecidableEq, Repr

def Kind.of (c : Char) : Kind :=
  if Unicode.isBlank c then .whitespace
  else if Unicode.isAlphanumeric c then .word
  else .punctuation

def isWordPart (c : Char) : Bool :=
  Unicode.isAlphanumeric c || c == '_'

def isLineBreak (c : Char) : Bool :=
  c == '\n' || c == '\r'

structure Token where
  text : Text
  kind : Kind
  deriving DecidableEq, Repr

namespace Token

/-- The token with this text, of the kind its first character has.  The empty text counts as
punctuation. -/
def ofText : Text → Token
  | [] => ⟨[], .punctuation⟩
  | c :: text => ⟨c :: text, Kind.of c⟩

/-- The marker of a line break. -/
def newline : Token := ⟨['\n'], .whitespace⟩

def byteLength (t : Token) : Nat :=
  Text.byteLength t.text

def isEmpty (t : Token) : Bool :=
  t.text.isEmpty

/-- Whether the text starts with a blank or a line break. -/
def isWhitespace (t : Token) : Bool :=
  t.text.head?.any Unicode.isBlank

def isNewline (t : Token) : Bool :=
  t.text == ['\n']

def isLineComment (t : Token) : Bool :=
  ['/', '/'].isPrefixOf t.text

def isComment (t : Token) : Bool :=
  t.isLineComment || ['/', '*'].isPrefixOf t.text

def endsWithNewline (t : Token) : Bool :=
  t.text.getLast? == some '\n'

@[simp] theorem text_ofText (text : Text) : (ofText text).text = text := by
  cases text <;> rfl

@[simp] theorem ofText_cons (c : Char) (text : Text) :
    ofText (c :: text) = ⟨c :: text, Kind.of c⟩ := rfl

theorem ofText_newline : ofText ['\n'] = newline := by
  decide

end Token

end SemiLex
