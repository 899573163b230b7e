import SemiLex.Token

/-!
# Settings

What a scan keeps together and surfaces, and how tokens are grouped and shown.
-/

namespace SemiLex

structure ScanSettings where
  specialPairs : List Text
  /-- Whether whitespace with a line feed in it is surfaced as a marker. -/
  returnNewlines : Bool
  deriving DecidableEq, Repr

structure GroupSettings where
  /-- Whether line break markers are kept in a semi-expression. -/
  returnNewlines : Bool
  displayNewlines : Bool
  discardComments : Bool
  /-- Whether every semi-expression is logged. -/
  verbose : Bool
  deriving DecidableEq, Repr

structure Settings where
  scanner : ScanSettings
  semi : GroupSettings
  deriving DecidableEq, Repr

namespace ScanSettings

def default : ScanSettings where
  specialPairs :=
    [['<', '<'], ['>', '>'], [':', ':'], ['=', '='], ['*', '='], ['|', '|'], ['&', '&'],
      ['+', '+'], ['-', '-'], ['+', '='], ['-', '='], ['/', '=']]
  returnNewlines := false

instance : Inhabited ScanSettings := ⟨default⟩

/-- The characters of an entry that has exactly two. -/
def pair? : Text → Option (Char × Char)
  | [a, b] => some (a, b)
  | _ => none

def isOperator (entry : Text) : Bool :=
  (pair? entry).any fun (a, b) => Kind.of a == .punctuation && Kind.of b == .punctuation

/-- The first entry that is not two punctuation characters. -/
def invalidPair? (s : ScanSettings) : Option Text :=
  s.specialPairs.find? fun entry => !isOperator entry

def IsValid (s : ScanSettings) : Prop :=
  ∀ entry ∈ s.specialPairs, isOperator entry = true

/-- The entries as pairs of characters.  Other entries are skipped. -/
def pairs (s : ScanSettings) : List (Char × Char) :=
  s.specialPairs.filterMap pair?

theorem invalidPair?_eq_none_iff {s : ScanSettings} : s.invalidPair? = none ↔ s.IsValid := by
  simp [invalidPair?, IsValid]

instance (s : ScanSettings) : Decidable s.IsValid :=
  inferInstanceAs (Decidable (∀ entry ∈ s.specialPairs, isOperator entry = true))

end ScanSettings

namespace GroupSettings

def default : GroupSettings where
  returnNewlines := true
  displayNewlines := false
  discardComments := true
  verbose := false

instance : Inhabited GroupSettings := ⟨default⟩

end GroupSettings

namespace Settings

def default : Settings :=
  ⟨.default, .default⟩

instance : Inhabited Settings := ⟨default⟩

end Settings

end SemiLex
