import SemiLex.Document.Escape
import SemiLex.Document.Number

/-!
# Lexemes of a document

A document is cut into lexemes before its structure is read.  A lexeme that is damaged carries its
fault along, so that the fault counts only if the reading gets there, and ends the cutting.
-/

namespace SemiLex

inductive DocumentLexeme where
  | openBrace
  | closeBrace
  | openBracket
  | closeBracket
  | comma
  | colon
  /-- `null` is none. -/
  | literal (value : Except DocumentFault (Option Bool))
  /-- A number whose value is wanted, and the fault of one that is passed over. -/
  | number (value : Except DocumentFault Number) (passed : Except DocumentFault Unit)
  | string (value : Except DocumentFault Text) (passed : Except DocumentFault Unit)
  | stray

namespace DocumentLexeme

def isBlank (c : Char) : Bool :=
  c == ' ' || c == '\t' || c == '\n' || c == '\r'

/-- What follows these letters. -/
def after? : Text → Text → Except DocumentFault Text
  | [], text => .ok text
  | _ :: _, [] => .error .noValue
  | letter :: letters, c :: text =>
    if c = letter then after? letters text else .error .notALiteral

def literalOf (value : Option Bool) (letters text : Text) : DocumentLexeme × Option Text :=
  match after? letters text with
  | .ok rest => (literal (.ok value), some rest)
  | .error fault => (literal (.error fault), none)

def numberOf (text : Text) : DocumentLexeme × Option Text :=
  match Numeral.at? text with
  | .ok (numeral, rest) => (number numeral.value (.ok ()), some rest)
  | .error fault => (number (.error fault) (.error .invalidNumber), none)

def stringOf (text : Text) : DocumentLexeme × Option Text :=
  let value := (Escape.unescape text).map Prod.fst
  match Escape.pass text with
  | .ok rest => (string value (.ok ()), some rest)
  | .error fault => (string value (.error fault), none)

/-- The lexeme that starts with `c`, and the text after it unless the lexeme is damaged. -/
def first (c : Char) (text : Text) : DocumentLexeme × Option Text :=
  match c with
  | '{' => (openBrace, some text)
  | '}' => (closeBrace, some text)
  | '[' => (openBracket, some text)
  | ']' => (closeBracket, some text)
  | ',' => (comma, some text)
  | ':' => (colon, some text)
  | 'n' => literalOf none ['u', 'l', 'l'] text
  | 't' => literalOf (some true) ['r', 'u', 'e'] text
  | 'f' => literalOf (some false) ['a', 'l', 's', 'e'] text
  | '"' => stringOf text
  | _ => if c = '-' ∨ c.isDigit then numberOf (c :: text) else (stray, none)

theorem length_after?_le {letters text rest : Text} (h : after? letters text = .ok rest) :
    rest.length ≤ text.length := by
  fun_induction after? letters text with
  | case1 =>
    cases h
    exact Nat.le_refl _
  | case2 => cases h
  | case3 letters c text ih =>
    have := ih h
    simp only [List.length_cons]
    omega
  | case4 => cases h

theorem length_literalOf_le {value : Option Bool} {letters text rest : Text}
    {lexeme : DocumentLexeme} (h : literalOf value letters text = (lexeme, some rest)) :
    rest.length ≤ text.length := by
  rw [literalOf] at h
  split at h
  · rename_i after hafter
    cases h
    exact length_after?_le hafter
  · cases h

theorem length_stringOf_le {text rest : Text} {lexeme : DocumentLexeme}
    (h : stringOf text = (lexeme, some rest)) : rest.length ≤ text.length := by
  simp only [stringOf] at h
  split at h
  · rename_i after hafter
    cases h
    exact Escape.length_pass_le hafter
  · cases h

theorem length_numberOf_lt {text rest : Text} {lexeme : DocumentLexeme}
    (h : numberOf text = (lexeme, some rest)) : rest.length < text.length := by
  rw [numberOf] at h
  split at h
  · rename_i numeral after hafter
    cases h
    exact Numeral.length_at?_lt hafter
  · cases h

theorem length_first_le {c : Char} {text rest : Text} {lexeme : DocumentLexeme}
    (h : first c text = (lexeme, some rest)) : rest.length ≤ text.length := by
  unfold first at h
  split at h
  case h_7 => exact length_literalOf_le h
  case h_8 => exact length_literalOf_le h
  case h_9 => exact length_literalOf_le h
  case h_10 => exact length_stringOf_le h
  case h_11 =>
    split at h
    · exact Nat.le_of_lt_succ (length_numberOf_lt h)
    · cases h
  all_goals
    cases h
    exact Nat.le_refl _

def all (text : Text) : List DocumentLexeme :=
  match _h : text.dropWhile isBlank with
  | [] => []
  | c :: rest =>
    match _hfirst : first c rest with
    | (lexeme, none) => [lexeme]
    | (lexeme, some rest) => lexeme :: all rest
termination_by text.length
decreasing_by
  have hle := length_first_le _hfirst
  have hdrop := (List.dropWhile_sublist isBlank : (text.dropWhile isBlank).Sublist text).length_le
  rw [_h, List.length_cons] at hdrop
  omega

end DocumentLexeme

end SemiLex
