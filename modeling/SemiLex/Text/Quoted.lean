import SemiLex.Token

/-!
# Quoted text

How messages show a text: between quotes, with the quote, the backslash and the common controls
escaped and every other character without a glyph of its own written by number.
-/

namespace SemiLex.Text

/-- A number in lower-case hexadecimal, without leading zeros. -/
def hexadecimal (n : Nat) : List Char :=
  Nat.toDigits 16 n

/-- How one character is shown inside a text quoted by `mark`. -/
def quotedChar (mark c : Char) : List Char :=
  if c == '\x00' then ['\\', '0']
  else if c == '\t' then ['\\', 't']
  else if c == '\n' then ['\\', 'n']
  else if c == '\r' then ['\\', 'r']
  else if c == '\\' || c == mark then ['\\', c]
  else if Unicode.isPrintable c then [c]
  else ['\\', 'u', '\x7b'] ++ hexadecimal c.toNat ++ ['\x7d']

def quotedBy (mark : Char) (text : Text) : List Char :=
  mark :: text.flatMap (quotedChar mark) ++ [mark]

def quoted (text : Text) : String :=
  .ofList (quotedBy '"' text)

def quotedLetter (c : Char) : String :=
  .ofList (quotedBy '\'' [c])

end SemiLex.Text
