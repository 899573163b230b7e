import SemiLex.Document.Record
import SemiLex.Settings

/-!
# Settings as records of a document
-/

namespace SemiLex

/-- A field whose value is read by `read` and put into a record by `put`. -/
def Field.ofReader {σ α : Type} (key : Text)
    (read : List DocumentLexeme → Except DocumentFault (α × List DocumentLexeme))
    (length_read_lt : ∀ {lexemes value rest}, read lexemes = .ok (value, rest) →
      rest.length < lexemes.length)
    (put : α → σ → σ) : Field σ where
  key := key
  read lexemes := match read lexemes with
    | .ok (value, rest) => .ok (put value, rest)
    | .error fault => .error fault
  length_read_lt h := by
    split at h <;> cases h
    rename_i hread
    exact length_read_lt hread

def Field.boolean {σ : Type} (key : Text) (put : Bool → σ → σ) : Field σ :=
  .ofReader key Document.readBoolean Document.length_readBoolean_lt put

def Field.texts {σ : Type} (key : Text) (put : List Text → σ → σ) : Field σ :=
  .ofReader key Document.readTexts Document.length_readTexts_lt put

def Field.record {σ τ : Type} (key : Text) (r : Record τ) (put : τ → σ → σ) : Field σ :=
  .ofReader key r.read Record.length_read_lt put

def ScanSettings.record : Record ScanSettings where
  wanted := .scanSettings
  fields := [
    .texts "specialPairs".toList fun pairs s => { s with specialPairs := pairs },
    .boolean "returnNewlines".toList fun b s => { s with returnNewlines := b }]
  default := .default

def GroupSettings.record : Record GroupSettings where
  wanted := .groupSettings
  fields := [
    .boolean "returnNewlines".toList fun b s => { s with returnNewlines := b },
    .boolean "displayNewlines".toList fun b s => { s with displayNewlines := b },
    .boolean "discardComments".toList fun b s => { s with discardComments := b },
    .boolean "verbose".toList fun b s => { s with verbose := b }]
  default := .default

def Settings.record : Record Settings where
  wanted := .settings
  fields := [
    .record "scanner".toList ScanSettings.record fun scanner s => { s with scanner },
    .record "semi".toList GroupSettings.record fun semi s => { s with semi }]
  default := .default

end SemiLex
