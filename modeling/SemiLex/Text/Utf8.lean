import SemiLex.Token

/-!
# UTF-8 sequences

A lead byte fixes how many continuation bytes belong to its character.  `interpret` judges a
lead byte together with the continuation bytes that were found after it; `decode` cuts a whole
byte string that way, one character for every piece.
-/

namespace SemiLex.Utf8

/-- Stands for a piece that encodes no character. -/
def replacement : Char := '\ufffd'

/-- The character that is dropped at the very start of a stream. -/
def byteOrderMark : Char := '\ufeff'

inductive Malformation where
  | lead
  | truncated
  /-- Overlong, a surrogate, or above U+10FFFF. -/
  | invalid
  deriving DecidableEq, Repr

def Malformation.message : Malformation → String
  | .lead => "invalid UTF-8 lead byte"
  | .truncated => "truncated UTF-8 sequence"
  | .invalid => "invalid UTF-8 sequence"

/-- Length of the sequence that a lead byte announces, 0 if it can start none. -/
def width (lead : UInt8) : Nat :=
  if lead < 0x80 then 1
  else if lead < 0xc2 then 0
  else if lead < 0xe0 then 2
  else if lead < 0xf0 then 3
  else if lead < 0xf5 then 4
  else 0

def trailing (lead : UInt8) : Nat :=
  width lead - 1

def isContinuation (b : UInt8) : Bool :=
  b &&& 0xc0 == 0x80

def leadBits (lead : UInt8) : Nat :=
  match width lead with
  | 2 => (lead &&& 0x1f).toNat
  | 3 => (lead &&& 0x0f).toNat
  | 4 => (lead &&& 0x07).toNat
  | _ => lead.toNat

def codePoint (lead : UInt8) (tail : List UInt8) : Nat :=
  tail.foldl (fun n b => n * 64 + (b &&& 0x3f).toNat) (leadBits lead)

/-- The character whose encoding is exactly `lead :: tail`. -/
def character? (lead : UInt8) (tail : List UInt8) : Option Char :=
  let c := Char.ofNat (codePoint lead tail)
  if String.utf8EncodeChar c = lead :: tail then some c else none

def interpret (lead : UInt8) (tail : List UInt8) : Except Malformation Char :=
  if width lead = 0 then .error .lead
  else if tail.length < trailing lead then .error .truncated
  else match character? lead tail with
    | some c => .ok c
    | none => .error .invalid

/-- The continuation bytes that belong to `lead` when `bytes` follow it. -/
def tailOf (lead : UInt8) (bytes : List UInt8) : List UInt8 :=
  (bytes.take (trailing lead)).takeWhile isContinuation

/-- Decodes a byte string; each malformed piece reads as the replacement character. -/
def decode : List UInt8 → Text
  | [] => []
  | lead :: bytes =>
    let tail := tailOf lead bytes
    ((interpret lead tail).toOption.getD replacement) :: decode (bytes.drop tail.length)
termination_by bytes => bytes.length
decreasing_by simp only [List.length_drop, List.length_cons]; omega

def encode (text : Text) : List UInt8 :=
  text.flatMap String.utf8EncodeChar

def decode? (bytes : List UInt8) : Option Text :=
  let text := decode bytes
  if encode text = bytes then some text else none

theorem eq_encode_of_character? {lead : UInt8} {tail : List UInt8} {c : Char}
    (h : character? lead tail = some c) : String.utf8EncodeChar c = lead :: tail := by
  simp only [character?] at h
  split at h
  · rename_i heq
    rw [← Option.some.inj h]
    exact heq
  · cases h

end SemiLex.Utf8
