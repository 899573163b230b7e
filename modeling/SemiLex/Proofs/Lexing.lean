import SemiLex.Proofs.Grammar
import SemiLex.Proofs.Reading

/-!
# Extraction follows the grammar

Each loop of a scan takes the run that the grammar prescribes and leaves the rest in the source.
So whatever phase a scan is in, an extraction hands out a prefix of what the source holds, and a
whole run of extractions cuts the text into its lexemes.
-/

namespace SemiLex.Source

variable {s t : Source} {text taken : Text} {last : Nat}

/-! ## Runs of characters -/

theorem Holds.exists_peek (h : s.Holds text last) :
    ∃ t, (s.peek 0).value = (text.head?, t) ∧ t.Holds text last ∧ t.advance.Holds text.tail last :=
  ⟨_, Prod.ext h.peek_zero.1 rfl, h.peek_zero.2, h.next.2⟩

theorem Holds.exists_next (h : s.Holds text last) :
    ∃ t, s.next.value = (text.head?, t) ∧ t.Holds text.tail last :=
  ⟨_, Prod.ext h.next.1 rfl, h.next.2⟩

/-- A computation that takes a run from the front of the text and leaves the rest. -/
def Takes (x : Logged (Text × Source)) (text : Text) (last : Nat)
    (IsRun : Text → Text → Prop) : Prop :=
  ∃ run rest t, x.value = (run, t) ∧ run ++ rest = text ∧ IsRun run rest ∧ Holds t rest last

theorem Holds.takeWhile (h : s.Holds text last) (p : Char → Bool) :
    Takes (s.takeWhile p) text last (RunsWhile p) := by
  induction text generalizing s with
  | nil =>
    obtain ⟨t, hpeek, ht, -⟩ := h.exists_peek
    refine ⟨[], [], t, ?_, rfl, .nil (by simp), ht⟩
    rw [takeWhile_eq]
    simp [hpeek]
  | cons c text ih =>
    obtain ⟨t, hpeek, ht, hadvance⟩ := h.exists_peek
    by_cases hc : p c = true
    · obtain ⟨run, rest, u, hrun, rfl, hruns, hu⟩ := ih hadvance
      refine ⟨c :: run, rest, u, ?_, rfl, hruns.cons hc, hu⟩
      rw [takeWhile_eq]
      simp [hpeek, hc, hrun]
    · refine ⟨[], c :: text, t, ?_, rfl, .nil (by simpa using hc), ht⟩
      rw [takeWhile_eq]
      simp [hpeek, hc]

theorem Holds.takeThrough (h : s.Holds text last) (mark : Char) :
    Takes (s.takeThrough mark) text last (RunsThrough mark) := by
  induction text generalizing s with
  | nil =>
    obtain ⟨t, hnext, ht⟩ := h.exists_next
    refine ⟨[], [], t, ?_, rfl, .unclosed (by simp), ht⟩
    rw [takeThrough_eq]
    simp [hnext]
  | cons c text ih =>
    obtain ⟨t, hnext, ht⟩ := h.exists_next
    by_cases hc : c = mark
    · subst hc
      refine ⟨[c], text, t, ?_, rfl, .closed [] (by simp), ht⟩
      rw [takeThrough_eq]
      simp [hnext]
    · obtain ⟨run, rest, u, hrun, rfl, hruns, hu⟩ := ih ht
      refine ⟨c :: run, rest, u, ?_, rfl, hruns.cons hc, hu⟩
      rw [takeThrough_eq]
      simp [hnext, hc, hrun]

theorem Holds.takeThroughClose (h : s.Holds text last) :
    Takes s.takeThroughClose text last RunsThroughClose := by
  induction text generalizing s with
  | nil =>
    obtain ⟨t, hnext, ht⟩ := h.exists_next
    refine ⟨[], [], t, ?_, rfl, .unclosed (by simp [commentClose]), ht⟩
    rw [takeThroughClose_eq]
    simp [hnext]
  | cons c text ih =>
    obtain ⟨t, hnext, ht⟩ := h.exists_next
    by_cases hc : c = '*'
    · subst hc
      obtain ⟨u, hpeek, hu, hadvance⟩ := ht.exists_peek
      by_cases hclose : text.head? = some '/'
      · obtain ⟨text, rfl⟩ := List.head?_eq_some_iff.mp hclose
        refine ⟨commentClose, text, u.advance, ?_, rfl, .closed [] ?_, hadvance⟩
        · rw [takeThroughClose_eq]
          simp [hnext, hpeek, commentClose]
        · decide
      · obtain ⟨run, rest, v, hrun, rfl, hruns, hv⟩ := ih hu
        refine ⟨'*' :: run, rest, v, ?_, rfl, hruns.cons fun hopen => hclose hopen.2, hv⟩
        rw [takeThroughClose_eq]
        simp [hnext, hpeek, hclose, hrun, -List.head?_append]
    · obtain ⟨run, rest, u, hrun, rfl, hruns, hu⟩ := ih ht
      refine ⟨c :: run, rest, u, ?_, rfl, hruns.cons fun hopen => hc hopen.1, hu⟩
      rw [takeThroughClose_eq]
      simp [hnext, hc, hrun]

/-! ## Lexemes -/

theorem Holds.takePunctuationRest (h : s.Holds text last) (operators : Operators) (first : Char) :
    Takes (s.takePunctuationRest operators first) text last fun run rest =>
      IsLexeme operators .punctuation (first :: run) rest := by
  obtain ⟨t, hpeek, ht, hadvance⟩ := h.exists_peek
  simp only [Source.takePunctuationRest, Takes, Logged.value_bind, hpeek]
  split
  · rename_i hquote
    obtain ⟨run, rest, u, hrun, hsplit, hruns, hu⟩ := ht.takeThrough first
    exact ⟨run, rest, u, hrun, hsplit, .literal hquote hruns, hu⟩
  · rename_i hquote
    split
    · rename_i hline
      obtain ⟨rfl, hhead⟩ := hline
      obtain ⟨text, rfl⟩ := List.head?_eq_some_iff.mp hhead
      obtain ⟨run, rest, u, hrun, hsplit, hruns, hu⟩ := ht.takeWhile fun c => !isLineBreak c
      refine ⟨run, rest, u, hrun, hsplit, ?_, hu⟩
      cases run with
      | nil =>
        rw [List.nil_append] at hsplit
        exact absurd (hruns.2 '/' (by rw [hsplit]; rfl)) (by decide)
      | cons c run =>
        obtain ⟨rfl, -⟩ := List.cons.inj hsplit
        exact .lineComment ⟨fun c hc => hruns.1 c (List.mem_cons_of_mem _ hc), hruns.2⟩
    · rename_i hline
      split
      · rename_i hblock
        obtain ⟨rfl, hhead⟩ := hblock
        obtain ⟨text, rfl⟩ := List.head?_eq_some_iff.mp hhead
        obtain ⟨run, rest, u, hrun, hsplit, hruns, hu⟩ := Holds.takeThroughClose hadvance
        refine ⟨'*' :: run, rest, u, ?_, congrArg _ hsplit, .blockComment hruns, hu⟩
        simp [hrun]
      · rename_i hblock
        have hopens : ¬ Opens first text.head? := by
          rintro (h | ⟨h, h' | h'⟩)
          · exact hquote h
          · exact hline ⟨h, h'⟩
          · exact hblock ⟨h, h'⟩
        cases text with
        | nil => exact ⟨[], [], t, rfl, rfl, .single hopens (by simp), ht⟩
        | cons c text =>
          simp only [List.head?_cons]
          split
          · rename_i hpair
            exact ⟨[c], text, t.advance, rfl, rfl, .operator hopens hpair, hadvance⟩
          · rename_i hpair
            refine ⟨[], c :: text, t, rfl, rfl, .single hopens ?_, ht⟩
            simpa using hpair

theorem Holds.takeRest (h : s.Holds text last) (operators : Operators) (kind : Kind)
    (first : Char) :
    Takes (s.takeRest operators kind first) text last fun run rest =>
      IsLexeme operators kind (first :: run) rest := by
  cases kind with
  | whitespace =>
    obtain ⟨run, rest, t, hrun, hsplit, hruns, ht⟩ := h.takeWhile Unicode.isBlank
    exact ⟨run, rest, t, hrun, hsplit, .whitespace hruns, ht⟩
  | word =>
    obtain ⟨run, rest, t, hrun, hsplit, hruns, ht⟩ := h.takeWhile isWordPart
    exact ⟨run, rest, t, hrun, hsplit, .word hruns, ht⟩
  | punctuation => exact h.takePunctuationRest operators first

theorem Holds.extractAs_nil (h : s.Holds [] last) (operators : Operators) (kind : Kind) :
    ∃ t, (s.extractAs operators kind).value = (none, t) ∧ t.Holds [] last := by
  obtain ⟨t, hnext, ht⟩ := h.exists_next
  refine ⟨t, ?_, ht⟩
  simp [extractAs, hnext]

theorem Holds.extractAs_cons {first : Char} (h : s.Holds (first :: text) last)
    (operators : Operators) (kind : Kind) :
    ∃ tail rest t, (s.extractAs operators kind).value = (some ⟨first :: tail, kind⟩, t) ∧
      tail ++ rest = text ∧ IsLexeme operators kind (first :: tail) rest ∧ t.Holds rest last := by
  obtain ⟨t, hnext, ht⟩ := h.exists_next
  obtain ⟨tail, rest, u, htail, hsplit, hlexeme, hu⟩ := ht.takeRest operators kind first
  refine ⟨tail, rest, u, ?_, hsplit, hlexeme, hu⟩
  simp only [extractAs, Logged.value_bind, hnext, List.head?_cons, htail, Logged.value_pure]

def kindIn (phase : Phase) (first : Char) : Kind :=
  match phase with
  | .dispatch => Kind.of first
  | .extracting kind => kind

theorem Holds.extract_nil (h : s.Holds [] last) (operators : Operators) (phase : Phase) :
    ∃ t, (s.extract operators phase).value = (none, t) ∧ t.Holds [] last := by
  cases phase with
  | extracting kind => exact h.extractAs_nil operators kind
  | dispatch =>
    obtain ⟨t, hpeek, ht, -⟩ := h.exists_peek
    refine ⟨t, ?_, ht⟩
    simp [extract, hpeek]

theorem Holds.extract_cons {first : Char} (h : s.Holds (first :: text) last)
    (operators : Operators) (phase : Phase) :
    ∃ tail rest t, (s.extract operators phase).value =
        (some ⟨first :: tail, kindIn phase first⟩, t) ∧ tail ++ rest = text ∧
      IsLexeme operators (kindIn phase first) (first :: tail) rest ∧ t.Holds rest last := by
  cases phase with
  | extracting kind => exact h.extractAs_cons operators kind
  | dispatch =>
    obtain ⟨t, hpeek, ht, -⟩ := h.exists_peek
    obtain ⟨tail, rest, u, hextract, hrest⟩ := ht.extractAs_cons operators (Kind.of first)
    refine ⟨tail, rest, u, ?_, hrest⟩
    simp only [extract, Logged.value_bind, hpeek, List.head?_cons, hextract, kindIn]

def lexemes (operators : Operators) (s : Source) : Logged (List Token × Source) := do
  match ← (s.extract operators .dispatch).attach with
  | ⟨(none, t), _⟩ => return ([], t)
  | ⟨(some token, t), _found⟩ =>
    let (tokens, u) ← lexemes operators t
    return (token :: tokens, u)
termination_by s.size
decreasing_by exact size_extract_lt _found.symm

theorem lexemes_eq (operators : Operators) (s : Source) :
    s.lexemes operators = (do
      match ← s.extract operators .dispatch with
      | (none, t) => return ([], t)
      | (some token, t) =>
        let (tokens, u) ← t.lexemes operators
        return (token :: tokens, u)) := by
  rw [lexemes]
  apply Logged.attach_bind_congr
  rintro ⟨_ | token, t⟩ h <;> rfl

theorem Holds.lexemes (h : s.Holds text last) (operators : Operators) :
    ∃ tokens t, (s.lexemes operators).value = (tokens, t) ∧ Lexes operators tokens text ∧
      t.Holds [] last := by
  induction hlength : text.length using Nat.strongRecOn generalizing s text with
  | ind n ih =>
    cases text with
    | nil =>
      obtain ⟨t, hextract, ht⟩ := h.extract_nil operators .dispatch
      refine ⟨[], t, ?_, .nil, ht⟩
      rw [lexemes_eq, Logged.value_bind, hextract]
      rfl
    | cons first text =>
      obtain ⟨tail, rest, t, hextract, rfl, hlexeme, ht⟩ := h.extract_cons operators .dispatch
      obtain ⟨tokens, u, hrun, hlexes, hu⟩ := ih rest.length
        (by simp only [← hlength, List.length_cons, List.length_append]; omega) ht rfl
      refine ⟨_, u, ?_, .cons hlexeme hlexes, hu⟩
      rw [lexemes_eq, Logged.value_bind, hextract]
      simp only [Logged.value_bind, hrun, Logged.value_pure, kindIn]

/-! ## Every source over a text -/

/-- A source over `text` after any operations in any order.  `taken` is what they have handed out,
one character or one lexeme after the other. -/
inductive Reached (text : Text) : Text → Source → Prop
  | opened {stream : Stream} (hsteady : stream.Steady) (hbytes : stream.bytes = Utf8.encode text) :
    Reached text [] (ofStream stream).value
  | peek {taken : Text} {s : Source} (n : Nat) (h : Reached text taken s) :
    Reached text taken (s.peek n).value.2
  | dispatch {taken : Text} {s : Source} (h : Reached text taken s) :
    Reached text taken s.dispatch.value.2
  | atEnd {taken : Text} {s : Source} (h : Reached text taken s) :
    Reached text taken s.atEnd.value.2
  | takeFailure {taken : Text} {s : Source} (h : Reached text taken s) :
    Reached text taken s.takeFailure.2
  | next {taken : Text} {s : Source} (h : Reached text taken s) :
    Reached text (taken ++ s.next.value.1.toList) s.next.value.2
  | extract {taken : Text} {s : Source} (operators : Operators) (phase : Phase)
    (h : Reached text taken s) :
    Reached text (taken ++ (s.extract operators phase).value.1.elim [] Token.text)
      (s.extract operators phase).value.2

theorem Reached.holds (h : Reached text taken s) :
    ∃ rest, taken ++ rest = withoutMark text ∧
      s.Holds rest (1 + (withoutMark text).count '\n') := by
  induction h with
  | opened hsteady hbytes =>
    exact ⟨_, List.nil_append _, holds_ofStream hsteady (by rw [hbytes, Utf8.decode_encode])⟩
  | peek n _ ih =>
    obtain ⟨rest, hsplit, hs⟩ := ih
    exact ⟨rest, hsplit, (hs.peek n).2⟩
  | dispatch _ ih =>
    obtain ⟨rest, hsplit, hs⟩ := ih
    exact ⟨rest, hsplit, hs.peek_zero.2⟩
  | atEnd _ ih =>
    obtain ⟨rest, hsplit, hs⟩ := ih
    exact ⟨rest, hsplit, hs.atEnd.2⟩
  | takeFailure _ ih =>
    obtain ⟨rest, hsplit, hs⟩ := ih
    exact ⟨rest, hsplit, hs.takeFailure⟩
  | next _ ih =>
    obtain ⟨rest, hsplit, hs⟩ := ih
    refine ⟨rest.tail, ?_, hs.next.2⟩
    rw [hs.next.1, List.append_assoc, ← hsplit]
    cases rest <;> rfl
  | extract operators phase _ ih =>
    obtain ⟨rest, hsplit, hs⟩ := ih
    cases rest with
    | nil =>
      obtain ⟨t, hextract, ht⟩ := hs.extract_nil operators phase
      rw [hextract]
      exact ⟨[], by simpa using hsplit, ht⟩
    | cons first rest =>
      obtain ⟨tail, rest, t, hextract, rfl, -, ht⟩ := hs.extract_cons operators phase
      rw [hextract]
      exact ⟨rest, by simpa using hsplit, ht⟩

/-- Extraction is lossless and exact.  A run of extractions cuts a text, less a leading byte order
mark, into the lexemes of the grammar, none of them empty, each of the kind of its first
character.  And from any source over a text, in any phase, there is no lexeme exactly when the
text is used up; otherwise the next characters are handed out, up to the end of the lexeme that
the phase asks for. -/
theorem extract_lossless_exact (text : Text) :
    (∀ operators,
      let tokens := (ofText text >>= Source.lexemes operators).value.1
      Lexes operators tokens (withoutMark text) ∧
        (tokens.map Token.text).flatten = withoutMark text ∧
        ∀ token ∈ tokens, token.text ≠ [] ∧ token = Token.ofText token.text) ∧
    ∀ taken s, Reached text taken s → ∀ operators phase,
      ((s.extract operators phase).value.1 = none ↔ taken = withoutMark text) ∧
      ∀ token t, (s.extract operators phase).value = (some token, t) →
        ∃ first tail rest, token = ⟨first :: tail, kindIn phase first⟩ ∧
          taken ++ (first :: tail) ++ rest = withoutMark text ∧
          IsLexeme operators token.kind token.text rest ∧
          t.line = s.line + token.text.count '\n' := by
  refine ⟨fun operators => ?_, fun taken s hs operators phase => ?_⟩
  · obtain ⟨tokens, t, hrun, hlexes, -⟩ := (holds_ofText text).lexemes operators
    simp only [Logged.value_bind, hrun]
    exact ⟨hlexes, hlexes.flatten, hlexes.eq_ofText⟩
  · obtain ⟨rest, hsplit, hs⟩ := hs.holds
    cases rest with
    | nil =>
      obtain ⟨t, hextract, -⟩ := hs.extract_nil operators phase
      rw [hextract]
      refine ⟨⟨fun _ => by simpa using hsplit, fun _ => rfl⟩, ?_⟩
      rintro token u ⟨⟩
    | cons first rest =>
      obtain ⟨tail, rest, t, hextract, rfl, hlexeme, ht⟩ := hs.extract_cons operators phase
      rw [hextract]
      refine ⟨⟨nofun, fun hall => ?_⟩, ?_⟩
      · rw [← hsplit] at hall
        simp at hall
      · rintro token u ⟨⟩
        refine ⟨first, tail, rest, rfl, by simpa using hsplit, hlexeme, ?_⟩
        have hbefore := hs.line
        have hafter := ht.line
        rw [← List.cons_append, List.count_append] at hbefore
        show t.line = s.line + (first :: tail).count '\n'
        omega

/-- A scan forced into whitespace hands out a slash that was only looked at. -/
theorem extract_whitespace_at_slash :
    let s := ((ofText ['/', '*', '/']).value.peek 1).value.2
    Reached ['/', '*', '/'] [] s ∧
      (s.extract default (.extracting .whitespace)).value.1 ≠ none := by
  have hs : Reached ['/', '*', '/'] [] ((ofText ['/', '*', '/']).value.peek 1).value.2 :=
    .peek 1 (.opened (Stream.steady_ofBytes _) (Stream.bytes_ofBytes _))
  refine ⟨hs, fun hnone => ?_⟩
  have hall := ((extract_lossless_exact _).2 _ _ hs default (.extracting .whitespace)).1.mp hnone
  exact absurd hall (by decide)

end SemiLex.Source
