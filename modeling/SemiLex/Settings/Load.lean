import SemiLex.FileTree
import SemiLex.Settings.Fields

/-!
# Loading settings

A document is read as settings, and then its operators are checked.  So every fault of the
document comes before one of an operator.
-/

namespace SemiLex

inductive SettingsError where
  /-- The document could not be had. -/
  | unreadable (cause : Fault)
  | malformed (fault : DocumentFault)
  | invalidPair (entry : Text)

def SettingsError.message : SettingsError → String
  | unreadable cause => "failed to read config: " ++ cause.message
  | malformed fault => "invalid config: " ++ fault.message
  | invalidPair entry =>
    "special pair " ++ Text.quoted entry ++ " must be exactly two punctuation characters"

def ScanSettings.validate (s : ScanSettings) : Except SettingsError Unit :=
  match s.invalidPair? with
  | some entry => .error (.invalidPair entry)
  | none => .ok ()

namespace Settings

def parse (text : Text) : Except SettingsError Settings := do
  let settings ← (record.readAll text).mapError .malformed
  settings.scanner.validate
  return settings

def load (files : FileTree) (path : String) : Except SettingsError Settings := do
  let text ← (files.text path.toList).mapError .unreadable
  parse text

end Settings

end SemiLex
