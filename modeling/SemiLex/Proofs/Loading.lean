import SemiLex.Lexeme
import SemiLex.Proofs.Documents
import SemiLex.Settings.Load

/-!
# Settings that are loaded

Settings that are written load as they were.  A document may leave fields out, and it may give them
in any order; what it leaves out has its default.  Whatever a document says, settings are only
loaded if every operator is two punctuation characters, and then a scan knows all of them.
-/

namespace SemiLex

open DocumentLexeme

/-! ## Written settings -/

def ScanSettings.members (s : ScanSettings) : List (Text × Text) :=
  [("specialPairs".toList, Printer.sequence (s.specialPairs.map Printer.string)),
    ("returnNewlines".toList, Printer.boolean s.returnNewlines)]

def GroupSettings.members (s : GroupSettings) : List (Text × Text) :=
  [("returnNewlines".toList, Printer.boolean s.returnNewlines),
    ("displayNewlines".toList, Printer.boolean s.displayNewlines),
    ("discardComments".toList, Printer.boolean s.discardComments),
    ("verbose".toList, Printer.boolean s.verbose)]

def Settings.members (scanner semi : List (Text × Text)) : List (Text × Text) :=
  [("scanner".toList, Printer.object scanner), ("semi".toList, Printer.object semi)]

theorem Settings.print_eq (s : Settings) :
    s.print = Printer.object (members s.scanner.members s.semi.members) := rfl

/-- These settings in the fields with these keys, and the defaults in the others. -/
def ScanSettings.only (s : ScanSettings) (keys : List Text) : ScanSettings where
  specialPairs :=
    if keys.contains "specialPairs".toList then s.specialPairs
    else ScanSettings.default.specialPairs
  returnNewlines :=
    if keys.contains "returnNewlines".toList then s.returnNewlines
    else ScanSettings.default.returnNewlines

@[inherit_doc ScanSettings.only]
def GroupSettings.only (s : GroupSettings) (keys : List Text) : GroupSettings where
  returnNewlines :=
    if keys.contains "returnNewlines".toList then s.returnNewlines
    else GroupSettings.default.returnNewlines
  displayNewlines :=
    if keys.contains "displayNewlines".toList then s.displayNewlines
    else GroupSettings.default.displayNewlines
  discardComments :=
    if keys.contains "discardComments".toList then s.discardComments
    else GroupSettings.default.discardComments
  verbose := if keys.contains "verbose".toList then s.verbose else GroupSettings.default.verbose

/-- These settings in the fields with these keys, of which the inner ones are given for each field,
and the defaults in the others. -/
def Settings.only (s : Settings) (scanner semi keys : List Text) : Settings where
  scanner := if keys.contains "scanner".toList then s.scanner.only scanner else .default
  semi := if keys.contains "semi".toList then s.semi.only semi else .default

/-! ## Reading them -/

variable {σ α : Type} {r : Record σ} {only : List Text → σ} {key text : Text} {value : α}
  {put : α → σ → σ} {read : List DocumentLexeme → Except DocumentFault (α × List DocumentLexeme)}

theorem Record.Adds.of_ofReader
    {length_read_lt : ∀ {lexemes value rest}, read lexemes = .ok (value, rest) →
      rest.length < lexemes.length}
    (hfield : r.field? key = some (.ofReader key read length_read_lt put))
    (hread : ∀ rest, read (all (text ++ rest)) = .ok (value, all rest))
    (hput : ∀ keys, put value (only keys) = only (key :: keys)) : r.Adds only (key, text) := by
  refine ⟨_, put value, hfield, fun rest => ?_, hput⟩
  simp only [Field.ofReader, hread rest]

theorem Record.Adds.boolean {put : Bool → σ → σ} {b : Bool}
    (hfield : r.field? key = some (.boolean key put))
    (hput : ∀ keys, put b (only keys) = only (key :: keys)) :
    r.Adds only (key, Printer.boolean b) :=
  .of_ofReader hfield (Document.readBoolean_boolean b) hput

theorem ScanSettings.adds (s : ScanSettings) : ∀ m ∈ s.members, record.Adds s.only m := by
  refine List.forall_mem_cons.mpr ⟨?_, List.forall_mem_singleton.mpr ?_⟩
  · refine .of_ofReader rfl (Document.readTexts_sequence s.specialPairs) fun keys => ?_
    rfl
  · refine .boolean rfl fun keys => ?_
    rfl

theorem GroupSettings.adds (s : GroupSettings) : ∀ m ∈ s.members, record.Adds s.only m := by
  refine List.forall_mem_cons.mpr ⟨.boolean rfl fun keys => ?_,
    List.forall_mem_cons.mpr ⟨.boolean rfl fun keys => ?_,
    List.forall_mem_cons.mpr ⟨.boolean rfl fun keys => ?_,
    List.forall_mem_singleton.mpr (.boolean rfl fun keys => ?_)⟩⟩⟩
  all_goals rfl

theorem ScanSettings.read_members {s : ScanSettings} {chosen : List (Text × Text)}
    (h : chosen.Subperm s.members) (rest : Text) :
    record.read (all (Printer.object chosen ++ rest)) =
      .ok (s.only (chosen.map Prod.fst), all rest) := by
  refine Record.read_chosen rfl (fun keys => ?_) s.adds ?_ h rest
  · simp only [only, List.contains_reverse]
  · simp [members]

theorem GroupSettings.read_members {s : GroupSettings} {chosen : List (Text × Text)}
    (h : chosen.Subperm s.members) (rest : Text) :
    record.read (all (Printer.object chosen ++ rest)) =
      .ok (s.only (chosen.map Prod.fst), all rest) := by
  refine Record.read_chosen rfl (fun keys => ?_) s.adds ?_ h rest
  · simp only [only, List.contains_reverse]
  · simp [members]

namespace Settings

variable {s : Settings} {scanner semi chosen : List (Text × Text)}

theorem adds (hscanner : scanner.Subperm s.scanner.members)
    (hsemi : semi.Subperm s.semi.members) :
    ∀ m ∈ members scanner semi,
      record.Adds (s.only (scanner.map Prod.fst) (semi.map Prod.fst)) m := by
  refine List.forall_mem_cons.mpr ⟨?_, List.forall_mem_singleton.mpr ?_⟩
  · refine .of_ofReader rfl (ScanSettings.read_members hscanner) fun keys => ?_
    rfl
  · refine .of_ofReader rfl (GroupSettings.read_members hsemi) fun keys => ?_
    rfl

theorem read_members (hscanner : scanner.Subperm s.scanner.members)
    (hsemi : semi.Subperm s.semi.members) (h : chosen.Subperm (members scanner semi))
    (rest : Text) :
    record.read (all (Printer.object chosen ++ rest)) =
      .ok (s.only (scanner.map Prod.fst) (semi.map Prod.fst) (chosen.map Prod.fst), all rest) := by
  refine Record.read_chosen rfl (fun keys => ?_) (adds hscanner hsemi) ?_ h rest
  · simp only [only, List.contains_reverse]
  · simp [members]

/-- A document counts for its lexemes, so it may have any blanks and escapes. -/
theorem readAll_members (hscanner : scanner.Subperm s.scanner.members)
    (hsemi : semi.Subperm s.semi.members) (h : chosen.Subperm (members scanner semi))
    (htext : all text = all (Printer.object chosen)) :
    record.readAll text =
      .ok (s.only (scanner.map Prod.fst) (semi.map Prod.fst) (chosen.map Prod.fst)) := by
  have hread := read_members hscanner hsemi h []
  rw [List.append_nil, all_nil] at hread
  rw [Record.readAll, htext, hread]
  rfl

theorem only_members (s : Settings) :
    s.only (s.scanner.members.map Prod.fst) (s.semi.members.map Prod.fst)
      ((members s.scanner.members s.semi.members).map Prod.fst) = s := by
  rfl

end Settings

/-! ## Operators -/

namespace ScanSettings

variable {s : ScanSettings} {entry : Text}

theorem exists_of_isOperator (h : isOperator entry = true) :
    ∃ a b, entry = [a, b] ∧ pair? entry = some (a, b) := by
  match entry with
  | [a, b] => exact ⟨a, b, rfl, rfl⟩
  | [] | [_] | _ :: _ :: _ :: _ => cases h

theorem specialPairs_eq_pairs (h : s.IsValid) :
    s.specialPairs = s.pairs.map fun (a, b) => [a, b] := by
  obtain ⟨entries, markers⟩ := s
  induction entries with
  | nil => rfl
  | cons entry entries ih =>
    obtain ⟨hentry, hentries⟩ := List.forall_mem_cons.mp h
    obtain ⟨a, b, rfl, -⟩ := exists_of_isOperator hentry
    exact congrArg ([a, b] :: ·) (ih hentries)

theorem contains_ofSettings_iff (s : ScanSettings) (a b : Char) :
    (Operators.ofSettings s).contains a b = true ↔ [a, b] ∈ s.specialPairs := by
  rw [Operators.contains, Operators.ofSettings, List.contains_iff_mem, pairs, List.mem_filterMap]
  constructor
  · rintro ⟨entry, hentry, hpair⟩
    match entry with
    | [_, _] =>
      cases hpair
      exact hentry
    | [] | [_] | _ :: _ :: _ :: _ => cases hpair
  · exact fun hentry => ⟨[a, b], hentry, rfl⟩

theorem validate_eq (s : ScanSettings) :
    s.IsValid ∧ s.validate = .ok () ∨
      ∃ before entry after, s.specialPairs = before ++ entry :: after ∧
        (∀ other ∈ before, isOperator other = true) ∧ isOperator entry = false ∧
        s.validate = .error (.invalidPair entry) := by
  rw [validate]
  cases hinvalid : s.invalidPair? with
  | none => exact Or.inl ⟨invalidPair?_eq_none_iff.mp hinvalid, rfl⟩
  | some entry =>
    obtain ⟨hentry, before, after, hsplit, hbefore⟩ := List.find?_eq_some_iff_append.mp hinvalid
    refine Or.inr ⟨before, entry, after, hsplit, fun other hother => ?_, ?_, rfl⟩
    · simpa using hbefore other hother
    · simpa using hentry

end ScanSettings

/-! ## Loading -/

namespace Settings

variable {s : Settings} {scanner semi chosen : List (Text × Text)}

theorem parse_of_readAll (h : record.readAll text = .ok s) :
    parse text = s.scanner.validate.map fun _ => s := by
  rw [parse, h]
  show (s.scanner.validate >>= fun _ => pure s) = _
  cases s.scanner.validate <;> rfl

theorem readAll_of_parse (h : parse text = .ok s) :
    record.readAll text = .ok s ∧ s.scanner.IsValid := by
  cases hread : record.readAll text with
  | error fault =>
    rw [parse, hread] at h
    cases h
  | ok found =>
    rw [parse_of_readAll hread] at h
    rcases found.scanner.validate_eq with ⟨hvalid, hok⟩ | ⟨_, _, _, _, _, _, herror⟩
    · rw [hok] at h
      cases h
      exact ⟨rfl, hvalid⟩
    · rw [herror] at h
      cases h

theorem parse_of_isValid (h : record.readAll text = .ok s) (hvalid : s.scanner.IsValid) :
    parse text = .ok s := by
  rw [parse_of_readAll h, ScanSettings.validate, ScanSettings.invalidPair?_eq_none_iff.mpr hvalid]
  rfl

theorem isValid_only (hvalid : s.scanner.IsValid) (scanner semi keys : List Text) :
    (s.only scanner semi keys).scanner.IsValid := by
  have hdefault : ScanSettings.default.IsValid := by decide
  unfold only ScanSettings.only
  split
  · unfold ScanSettings.IsValid
    split
    · exact hvalid
    · exact hdefault
  · exact hdefault

/-- Written settings load as they were, and some of their fields in any order load with defaults in
the others.  Settings that are loaded have valid operators, and a scan knows all of them; settings
with others are refused for the first of these. -/
theorem parse_document :
    (∀ s : Settings, s.scanner.IsValid → parse s.print = .ok s ∧
      ∀ scanner semi chosen, scanner.Subperm s.scanner.members → semi.Subperm s.semi.members →
        chosen.Subperm (members scanner semi) →
        ∀ text, all text = all (Printer.object chosen) → parse text =
          .ok (s.only (scanner.map Prod.fst) (semi.map Prod.fst) (chosen.map Prod.fst))) ∧
    (∀ text s, parse text = .ok s → s.scanner.IsValid ∧
      (s.scanner.specialPairs = s.scanner.pairs.map fun (a, b) => [a, b]) ∧
      ∀ a b, (Operators.ofSettings s.scanner).contains a b = true ↔
        [a, b] ∈ s.scanner.specialPairs) ∧
    ∀ text s, record.readAll text = .ok s → parse text = .ok s ∧ s.scanner.IsValid ∨
      ∃ before entry after, s.scanner.specialPairs = before ++ entry :: after ∧
        (∀ other ∈ before, ScanSettings.isOperator other = true) ∧
        ScanSettings.isOperator entry = false ∧ parse text = .error (.invalidPair entry) := by
  refine ⟨fun s hvalid => ⟨?_, fun scanner semi chosen hscanner hsemi hchosen text htext => ?_⟩,
    fun text s hparse => ?_, fun text s hread => ?_⟩
  · have hread := readAll_members (s := s) (.refl _) (.refl _) (.refl _)
      (congrArg all s.print_eq)
    exact parse_of_isValid (s.only_members ▸ hread) hvalid
  · have hread := readAll_members hscanner hsemi hchosen htext
    exact parse_of_isValid hread (isValid_only hvalid _ _ _)
  · have hvalid := (readAll_of_parse hparse).2
    exact ⟨hvalid, ScanSettings.specialPairs_eq_pairs hvalid,
      s.scanner.contains_ofSettings_iff⟩
  · rw [parse_of_readAll hread]
    rcases s.scanner.validate_eq with ⟨hvalid, hok⟩ | ⟨before, entry, after, hsplit, hbefore,
      hentry, herror⟩
    · rw [hok]
      exact Or.inl ⟨rfl, hvalid⟩
    · rw [herror]
      exact Or.inr ⟨before, entry, after, hsplit, hbefore, hentry, rfl⟩

/-- Operators of quotes, controls and characters beyond the first plane, and one that is none. -/
theorem parse_document_quoted :
    let s : Settings := ⟨⟨[['"', '\\'], ['\x00', '\''], ['\u2192', '😀']], true⟩,
      ⟨false, true, false, true⟩⟩
    let scanner := s.scanner.members.take 1
    let semi := s.semi.members.drop 2
    let wrong : Settings := { s with scanner := ⟨[['<', '<'], ['a', '+'], ['+']], false⟩ }
    s.scanner.IsValid ∧ parse s.print = .ok s ∧
      parse (Printer.object (members scanner semi).reverse) = .ok ⟨⟨s.scanner.specialPairs, false⟩,
        ⟨true, false, false, true⟩⟩ ∧
      record.readAll wrong.print = .ok wrong ∧
      ∃ entry ∈ wrong.scanner.specialPairs, parse wrong.print = .error (.invalidPair entry) := by
  intro s scanner semi wrong
  have hvalid : s.scanner.IsValid := by decide +kernel
  obtain ⟨hprint, hpart⟩ := parse_document.1 s hvalid
  have hscanner : scanner.Subperm s.scanner.members := (List.take_sublist 1 _).subperm
  have hsemi : semi.Subperm s.semi.members := (List.drop_sublist 2 _).subperm
  have hread : record.readAll wrong.print = .ok wrong :=
    readAll_members (s := wrong) (.refl _) (.refl _) (.refl _) rfl
  refine ⟨hvalid, hprint, ?_, hread, ?_⟩
  · exact hpart scanner semi _ hscanner hsemi (List.reverse_perm _).subperm _ rfl
  · rcases parse_document.2.2 _ _ hread with
      ⟨-, hwrong⟩ | ⟨before, entry, after, hsplit, -, -, hfail⟩
    · exact absurd hwrong (by decide +kernel)
    · exact ⟨entry, hsplit ▸ by simp, hfail⟩

end Settings

end SemiLex
