import SemiLex.Settings
import SemiLex.Text.Quoted

/-!
# Settings as text

The compact document of settings: every field, in order, without blanks.
-/

namespace SemiLex

namespace Printer

def escape (c : Char) : Text :=
  if c = '"' ∨ c = '\\' then ['\\', c]
  else if c = '\x08' then ['\\', 'b']
  else if c = '\x0c' then ['\\', 'f']
  else if c = '\n' then ['\\', 'n']
  else if c = '\r' then ['\\', 'r']
  else if c = '\t' then ['\\', 't']
  else if c < ' ' then
    ['\\', 'u', '0', '0', Nat.digitChar (c.toNat / 16), Nat.digitChar (c.toNat % 16)]
  else [c]

def string (text : Text) : Text :=
  '"' :: text.flatMap escape ++ ['"']

def boolean (b : Bool) : Text :=
  if b then ['t', 'r', 'u', 'e'] else ['f', 'a', 'l', 's', 'e']

def sequence (items : List Text) : Text :=
  '[' :: List.intercalate [','] items ++ [']']

def object (members : List (Text × Text)) : Text :=
  '\x7b' :: List.intercalate [','] (members.map fun (key, value) => string key ++ ':' :: value) ++
    ['\x7d']

end Printer

def ScanSettings.print (s : ScanSettings) : Text :=
  Printer.object [
    ("specialPairs".toList, Printer.sequence (s.specialPairs.map Printer.string)),
    ("returnNewlines".toList, Printer.boolean s.returnNewlines)]

def GroupSettings.print (s : GroupSettings) : Text :=
  Printer.object [
    ("returnNewlines".toList, Printer.boolean s.returnNewlines),
    ("displayNewlines".toList, Printer.boolean s.displayNewlines),
    ("discardComments".toList, Printer.boolean s.discardComments),
    ("verbose".toList, Printer.boolean s.verbose)]

def Settings.print (s : Settings) : Text :=
  Printer.object [("scanner".toList, s.scanner.print), ("semi".toList, s.semi.print)]

end SemiLex
