import SemiLex.Proofs.Grouping
import SemiLex.Proofs.Markers
import SemiLex.Proofs.Separators

/-!
# What a rendering scans to

Whatever the tokens of a semi-expression are and wherever they come from, their rendering scans back
to them if each of them scans to itself between line breaks.  Of the separators only those behind
line comments break a line.  Markers are shown as line breaks, which run together with each other
and with the separators, and such a run is one marker again.
-/

namespace SemiLex

open Grouping SemiExpression Tokenizer

variable {operators : Operators} {lexemes tokens : List Token} {t : Token} {text rest gap : Text}

/-! ## Tokens that scan to themselves -/

namespace Token

/-- Between line breaks, the text of the token scans to just this token. -/
def ScansAlone (settings : ScanSettings) (t : Token) : Prop :=
  tokensOf { settings with returnNewlines := false } ('\n' :: (t.text ++ ['\n'])) = [t]

/-- Behind a line break and at the end, the text of the token scans to just this token. -/
def ScansLast (settings : ScanSettings) (t : Token) : Prop :=
  tokensOf { settings with returnNewlines := false } ('\n' :: t.text) = [t]

end Token

theorem surfaced_cons (markers : Bool) (first : Char) (tail : Text) (kind : Kind) :
    surfaced markers ⟨first :: tail, kind⟩ =
      if Unicode.isBlank first then
        if markers && (first :: tail).contains '\n' then some .newline else none
      else some ⟨first :: tail, kind⟩ := by
  rw [surfaced, Token.isWhitespace, List.head?_cons, Option.any_some]
  cases Unicode.isBlank first <;> rfl

theorem IsLexeme.forall_isBlank {first : Char} {tail : Text}
    (h : IsLexeme operators (Kind.of first) (first :: tail) rest)
    (hfirst : Unicode.isBlank first = true) : ∀ c ∈ first :: tail, Unicode.isBlank c = true := by
  rw [Kind.of_eq_whitespace_iff.mpr hfirst] at h
  cases h with
  | whitespace hrun => exact List.forall_mem_cons.mpr ⟨hfirst, hrun.1⟩

theorem Lexes.exists_of_singleton (h : Lexes operators lexemes text)
    (ht : lexemes.filterMap (surfaced false) = [t]) :
    ∃ before first tail after, text = before ++ (first :: tail ++ after) ∧
      t = ⟨first :: tail, Kind.of first⟩ ∧ Unicode.isBlank first = false ∧
      IsLexeme operators (Kind.of first) (first :: tail) after ∧
      ∀ c ∈ before, Unicode.isBlank c = true := by
  induction h with
  | nil => cases ht
  | @cons first tail rest lexemes hlexeme hlexes ih =>
    rw [List.filterMap_cons, surfaced_cons] at ht
    cases hfirst : Unicode.isBlank first with
    | true =>
      rw [hfirst] at ht
      obtain ⟨before, first', tail', after, rfl, ht', hfirst', hlexeme', hbefore⟩ := ih ht
      refine ⟨first :: tail ++ before, first', tail', after, by simp, ht', hfirst', hlexeme', ?_⟩
      rw [List.forall_mem_append]
      exact ⟨hlexeme.forall_isBlank hfirst, hbefore⟩
    | false =>
      rw [hfirst] at ht
      obtain ⟨rfl, -⟩ := List.cons.inj ht
      exact ⟨[], first, tail, rest, rfl, rfl, hfirst, hlexeme, List.forall_mem_nil _⟩

variable {settings : ScanSettings}

theorem isLexeme_of_tokensOf (h : tokensOf { settings with returnNewlines := false }
      ('\n' :: (t.text ++ rest)) = [t]) :
    ∃ first tail, t = ⟨first :: tail, Kind.of first⟩ ∧ Unicode.isBlank first = false ∧
      IsLexeme (.ofSettings settings) (Kind.of first) (first :: tail) rest := by
  have hmark : ('\n' :: (t.text ++ rest)).head? ≠ some Utf8.byteOrderMark := by
    rw [List.head?_cons, ne_eq, Option.some.injEq]
    decide
  obtain ⟨lexemes, hlexes⟩ :=
    Tokenizer.exists_lexes (.ofSettings settings) ('\n' :: (t.text ++ rest))
  rw [tokensOf_eq { settings with returnNewlines := false } hlexes] at h
  rw [Source.withoutMark_eq_self hmark] at hlexes
  obtain ⟨before, first, tail, after, htext, rfl, hfirst, hlexeme, hbefore⟩ :=
    hlexes.exists_of_singleton h
  refine ⟨first, tail, rfl, hfirst, ?_⟩
  -- The token does not start with a blank, so in front of it there is the line break alone.
  match before with
  | [] =>
    rw [List.nil_append] at htext
    rw [← (List.cons.inj htext).1] at hfirst
    exact absurd hfirst (by decide)
  | [_] =>
    obtain rfl := List.append_cancel_left (List.cons.inj htext).2
    exact hlexeme
  | _ :: blank :: _ =>
    obtain ⟨hsame, -⟩ := List.cons.inj (List.cons.inj htext).2
    rw [hsame, hbefore blank (by simp)] at hfirst
    cases hfirst

theorem Token.ScansAlone.ends (h : t.ScansAlone settings) : t.Ends (.ofSettings settings) := by
  obtain ⟨first, tail, rfl, hfirst, hlexeme⟩ := isLexeme_of_tokensOf h
  exact ⟨first, tail, rfl, hfirst, hlexeme.ends⟩

theorem Token.ScansAlone.closed (hvalid : settings.IsValid) (h : t.ScansAlone settings) :
    t.Closed (.ofSettings settings) := by
  obtain ⟨first, tail, rfl, hfirst, hlexeme⟩ := isLexeme_of_tokensOf h
  refine IsLexeme.closed (Operators.allPunctuation_ofSettings hvalid) hlexeme (by simp) ?_
    (List.cons_ne_nil _ _)
  simp [Kind.of_eq_whitespace_iff, hfirst]

theorem Token.ScansLast.ends (h : t.ScansLast settings) : t.Ends (.ofSettings settings) := by
  rw [Token.ScansLast, ← List.append_nil t.text] at h
  obtain ⟨first, tail, rfl, hfirst, hlexeme⟩ := isLexeme_of_tokensOf h
  exact ⟨first, tail, rfl, hfirst, hlexeme⟩

/-! ## Gaps -/

theorem Lexes.exists_gap (h : Lexes operators lexemes rest)
    (hgap : ∀ c ∈ gap, Unicode.isBlank c = true)
    (hrest : ∀ c ∈ rest.head?, Unicode.isBlank c = false) :
    ∃ found, Lexes operators (found ++ lexemes) (gap ++ rest) ∧
      found.filterMap (surfaced false) = [] ∧ found.filterMap (surfaced true) = breaks gap := by
  cases gap with
  | nil => exact ⟨[], h, rfl, rfl⟩
  | cons blank gap =>
    obtain ⟨hblank, hgap⟩ := List.forall_mem_cons.mp hgap
    refine ⟨[⟨blank :: gap, Kind.of blank⟩], .cons ?_ h, ?_, ?_⟩
    · rw [Kind.of_eq_whitespace_iff.mpr hblank]
      exact .whitespace ⟨hgap, hrest⟩
    · rw [List.filterMap_cons, surfaced_cons, hblank]
      rfl
    · rw [List.filterMap_cons, surfaced_cons, hblank, breaks]
      by_cases hbreak : '\n' ∈ blank :: gap
      · simp [hbreak]
      · simp [hbreak]

theorem exists_lexes_cons (ht : t.Ends operators)
    (hlexeme : IsLexeme operators t.kind t.text rest) (h : Lexes operators lexemes rest)
    (hgap : ∀ c ∈ gap, Unicode.isBlank c = true) :
    ∃ found, Lexes operators found (gap ++ (t.text ++ rest)) ∧
      found.filterMap (surfaced false) = t :: lexemes.filterMap (surfaced false) ∧
      found.filterMap (surfaced true) = breaks gap ++ t :: lexemes.filterMap (surfaced true) := by
  have hsurfaced := ht.surfaced
  obtain ⟨first, tail, rfl, hfirst, -⟩ := ht
  obtain ⟨blanks, hlexes, hnone, hbreaks⟩ := (Lexes.cons hlexeme h).exists_gap hgap (by simpa)
  refine ⟨_, hlexes, ?_, ?_⟩
  · rw [List.filterMap_append, hnone, List.filterMap_cons, hsurfaced, List.nil_append]
  · rw [List.filterMap_append, hbreaks, List.filterMap_cons, hsurfaced]

/-! ## Renderings -/

/-- The tokens that a rendering shows: markers for its line breaks, also for those that line
comments need. -/
def shown : List Token → List Token
  | [] => []
  | t :: tokens =>
    (if t.isNewline then .newline else t) ::
      ((if t.isLineComment && tokens.head?.any (fun next => !next.isNewline) then [.newline]
        else []) ++ shown tokens)

theorem shown_eq_self (hnewlines : ∀ t ∈ tokens, t.isNewline = false)
    (hcomments : ∀ t ∈ tokens, t.isLineComment = false) : shown tokens = tokens := by
  induction tokens with
  | nil => rfl
  | cons t tokens ih =>
    obtain ⟨hnewline, hnewlines⟩ := List.forall_mem_cons.mp hnewlines
    obtain ⟨hcomment, hcomments⟩ := List.forall_mem_cons.mp hcomments
    rw [shown, hnewline, hcomment, ih hnewlines hcomments]
    rfl

theorem text_of_isNewline (h : t.isNewline = true) : t.text = ['\n'] := by
  rwa [Token.isNewline, beq_iff_eq] at h

theorem renderAfter_none_cons (t : Token) (tokens : List Token) :
    renderAfter none (t :: tokens) = t.text ++ renderAfter (separatorAfter t) tokens := by
  rw [renderAfter, separatorBefore]
  simp

theorem renderAfter_cons_of_isNewline (h : t.isNewline = true) (tokens : List Token) :
    renderAfter none (t :: tokens) = '\n' :: renderAfter none tokens := by
  have hnone : separatorAfter t = none := by
    rw [separatorAfter, Token.endsWithNewline, text_of_isNewline h]
    rfl
  rw [renderAfter_none_cons, text_of_isNewline h, hnone]
  rfl

theorem renderAfter_cons (separator : Option Char) (t : Token) (tokens : List Token) :
    renderAfter separator (t :: tokens) =
      separatorBefore separator t ++ renderAfter none (t :: tokens) := by
  rw [renderAfter, renderAfter_none_cons, List.append_assoc]

theorem exists_separated (separator : Char) (next : Token) (tokens : List Token) :
    ∃ more, separatorBefore (some separator) next ++ renderAfter none (next :: tokens) =
      separator :: more := by
  rw [separatorBefore]
  split
  · rename_i h
    rw [renderAfter_cons_of_isNewline h.2]
    exact ⟨_, by rw [Option.some.inj h.1]; rfl⟩
  · exact ⟨_, rfl⟩

theorem forall_isBlank_separatorBefore {separator : Char} (h : Unicode.isBlank separator = true)
    (next : Token) :
    ∀ c ∈ separatorBefore (some separator) next, Unicode.isBlank c = true := by
  rw [separatorBefore]
  split
  · exact List.forall_mem_nil _
  · exact List.forall_mem_singleton.mpr h

/-- The separator behind a token shows as a marker if the token is a line comment and no marker
follows it. -/
theorem breaks_separatorBefore {separator : Char} (h : separatorAfter t = some separator)
    (next : Token) :
    breaks (separatorBefore (some separator) next) =
      if t.isLineComment && !next.isNewline then [.newline] else [] := by
  rw [separatorAfter] at h
  split at h
  · cases h
  · split at h
    · rename_i hcomment
      cases h
      rw [hcomment, separatorBefore]
      cases next.isNewline <;> rfl
    · rename_i hcomment
      cases h
      rw [Bool.eq_false_iff.mpr hcomment]
      rfl

theorem shown_cons_of_isNewline (h : t.isNewline = true) (tokens : List Token) :
    shown (t :: tokens) = .newline :: shown tokens := by
  have hcomment : t.isLineComment = false := by
    rw [Token.isLineComment, text_of_isNewline h]
    rfl
  rw [shown, h, hcomment]
  rfl

theorem exists_lexes_gap (hends : ∀ t ∈ tokens, t.isNewline = true ∨ t.Ends operators)
    (hclosed : tokens.Pairwise fun t _ => t.isNewline = true ∨ t.Closed operators)
    (hgap : ∀ c ∈ gap, Unicode.isBlank c = true) :
    ∃ lexemes, Lexes operators lexemes (gap ++ renderAfter none tokens) ∧
      lexemes.filterMap (surfaced false) = solid tokens ∧
      lexemes.filterMap (surfaced true) = collapsed (breaks gap ++ shown tokens) := by
  induction tokens generalizing gap with
  | nil =>
    obtain ⟨found, hlexes, hnone, hbreaks⟩ :=
      (Lexes.nil : Lexes operators [] []).exists_gap hgap (by simp)
    rw [List.append_nil] at hlexes
    refine ⟨found, hlexes, hnone, ?_⟩
    rw [hbreaks, shown, List.append_nil, collapsed_breaks]
  | cons t tokens ih =>
    obtain ⟨ht, hends⟩ := List.forall_mem_cons.mp hends
    obtain ⟨htclosed, hclosed⟩ := List.pairwise_cons.mp hclosed
    cases hnewline : t.isNewline with
    | true =>
      -- The line break of a marker goes on with the blanks in front of it.
      have hlonger : ∀ c ∈ gap ++ ['\n'], Unicode.isBlank c = true := by
        rw [List.forall_mem_append, List.forall_mem_singleton]
        exact ⟨hgap, by decide⟩
      obtain ⟨lexemes, hlexes, hfalse, htrue⟩ := ih hends hclosed hlonger
      rw [List.append_assoc] at hlexes
      refine ⟨lexemes, ?_, ?_, ?_⟩
      · rwa [renderAfter_cons_of_isNewline hnewline]
      · rw [hfalse, solid, solid, List.filter_cons, hnewline]
        rfl
      · rw [htrue, collapsed_breaks_append, shown_cons_of_isNewline hnewline]
        rfl
    | false =>
      have ht : t.Ends operators := ht.resolve_left (by simp [hnewline])
      have hsolid : solid (t :: tokens) = t :: solid tokens := by
        rw [solid, List.filter_cons, hnewline]
        rfl
      rw [renderAfter_none_cons, hsolid, shown, hnewline]
      cases tokens with
      | nil =>
        have hlexeme : IsLexeme operators t.kind t.text [] := by
          obtain ⟨first, tail, rfl, -, hlexeme⟩ := ht
          exact hlexeme
        obtain ⟨found, hlexes, hfalse, htrue⟩ := exists_lexes_cons ht hlexeme .nil hgap
        refine ⟨found, hlexes, hfalse, htrue.trans ?_⟩
        rw [List.head?_nil, Option.any_none, Bool.and_false]
        exact (collapsed_breaks_cons hnewline gap []).symm
      | cons next tokens =>
        obtain ⟨separator, hseparator, hblank, hlexeme⟩ :=
          (htclosed next List.mem_cons_self).resolve_left (by simp [hnewline])
        obtain ⟨lexemes, hlexes, hfalse, htrue⟩ :=
          ih hends hclosed (forall_isBlank_separatorBefore hblank next)
        rw [breaks_separatorBefore hseparator] at htrue
        obtain ⟨more, hmore⟩ := exists_separated separator next tokens
        rw [hseparator, renderAfter_cons, hmore]
        rw [hmore] at hlexes
        obtain ⟨found, hfound, hfalse', htrue'⟩ := exists_lexes_cons ht (hlexeme more) hlexes hgap
        refine ⟨found, hfound, hfalse'.trans (congrArg _ hfalse), htrue'.trans ?_⟩
        rw [htrue]
        exact (collapsed_breaks_cons hnewline gap _).symm

theorem tokensOf_renderAfter
    (hends : ∀ t ∈ tokens, t.isNewline = true ∨ t.Ends (.ofSettings settings))
    (hclosed : tokens.Pairwise fun t _ => t.isNewline = true ∨ t.Closed (.ofSettings settings))
    (hmark : (renderAfter none tokens).head? ≠ some Utf8.byteOrderMark) :
    tokensOf { settings with returnNewlines := false } (renderAfter none tokens) = solid tokens ∧
      tokensOf { settings with returnNewlines := true } (renderAfter none tokens) =
        collapsed (shown tokens) := by
  have hnone : ∀ c ∈ ([] : Text), Unicode.isBlank c = true := List.forall_mem_nil _
  obtain ⟨lexemes, hlexes, hfalse, htrue⟩ := exists_lexes_gap hends hclosed hnone
  rw [List.nil_append, ← Source.withoutMark_eq_self hmark] at hlexes
  exact ⟨(tokensOf_eq { settings with returnNewlines := false } hlexes).trans hfalse,
    (tokensOf_eq { settings with returnNewlines := true } hlexes).trans htrue⟩

theorem ends_and_closed_of_scans (hvalid : settings.IsValid)
    (halone : ∀ t ∈ tokens.dropLast, t.isNewline = true ∨ t.ScansAlone settings)
    (hlast : ∀ t ∈ tokens.getLast?,
      t.isNewline = true ∨ t.ScansAlone settings ∨ t.ScansLast settings) :
    (∀ t ∈ tokens, t.isNewline = true ∨ t.Ends (.ofSettings settings)) ∧
      tokens.Pairwise fun t _ => t.isNewline = true ∨ t.Closed (.ofSettings settings) := by
  rcases List.eq_nil_or_concat tokens with rfl | ⟨front, last, rfl⟩
  · exact ⟨List.forall_mem_nil _, .nil⟩
  rw [List.concat_eq_append] at halone hlast ⊢
  rw [List.dropLast_concat] at halone
  rw [List.getLast?_concat] at hlast
  have hclosed : ∀ t ∈ front, t.isNewline = true ∨ t.Closed (.ofSettings settings) :=
    fun t ht => (halone t ht).imp_right fun h => h.closed hvalid
  constructor
  · rw [List.forall_mem_append, List.forall_mem_singleton]
    refine ⟨fun t ht => (halone t ht).imp_right Token.ScansAlone.ends, ?_⟩
    exact (hlast last rfl).imp_right fun h => h.elim Token.ScansAlone.ends Token.ScansLast.ends
  · refine List.pairwise_append.mpr ⟨?_, List.pairwise_singleton _ _, fun t ht _ _ => hclosed t ht⟩
    exact List.pairwise_of_forall_mem_list fun t ht _ _ => hclosed t ht

/-- Whatever the tokens of a semi-expression, if each of them is a marker or scans to itself between
line breaks, and the last one at least behind one, its rendering scans to the tokens that are no
markers.  Where markers are shown and surfaced, they come back as well, one for each run of them,
and one more behind each line comment that another token follows at once. -/
theorem tokensOf_render_eq_shown (hvalid : settings.IsValid) (s : SemiExpression)
    (halone : ∀ t ∈ s.tokens.dropLast, t.isNewline = true ∨ t.ScansAlone settings)
    (hlast : ∀ t ∈ s.tokens.getLast?,
      t.isNewline = true ∨ t.ScansAlone settings ∨ t.ScansLast settings) :
    (∀ displayNewlines, (s.render displayNewlines).head? ≠ some Utf8.byteOrderMark →
      tokensOf { settings with returnNewlines := false } (s.render displayNewlines) =
        solid s.tokens) ∧
    ((s.render true).head? ≠ some Utf8.byteOrderMark →
      tokensOf { settings with returnNewlines := true } (s.render true) =
        collapsed (shown s.tokens)) := by
  obtain ⟨hends, hclosed⟩ := ends_and_closed_of_scans hvalid halone hlast
  have hsolid : s.render false = renderAfter none (solid s.tokens) := rfl
  have hall : s.render true = renderAfter none s.tokens := by
    rw [render, List.filter_eq_self.mpr]
    exact fun _ _ => rfl
  refine ⟨fun displayNewlines hmark => ?_, fun hmark => ?_⟩
  · cases displayNewlines with
    | true =>
      rw [hall] at hmark ⊢
      exact (tokensOf_renderAfter hends hclosed hmark).1
    | false =>
      have htwice : solid (solid s.tokens) = solid s.tokens := by
        rw [solid, solid, List.filter_filter]
        simp only [Bool.and_self]
      rw [hsolid] at hmark ⊢
      exact (tokensOf_renderAfter (fun t ht => hends t (List.mem_of_mem_filter ht))
        (hclosed.filter _) hmark).1.trans htwice
  · rw [hall] at hmark ⊢
    exact (tokensOf_renderAfter hends hclosed hmark).2

/-- A line comment with a marker behind it and one without, and an open comment at the end. -/
theorem tokensOf_render_eq_shown_open_comment :
    let settings := ScanSettings.default
    let s : SemiExpression := ⟨[.newline, .ofText "// a".toList, .ofText "\"//\"".toList,
      .ofText "+=".toList, .newline, .newline, .ofText "// b".toList, .newline,
      .ofText "/* c".toList]⟩
    settings.IsValid ∧
      (∀ t ∈ s.tokens.dropLast, t.isNewline = true ∨ t.ScansAlone settings) ∧
      (∀ t ∈ s.tokens.getLast?,
        t.isNewline = true ∨ t.ScansAlone settings ∨ t.ScansLast settings) ∧
      s.render true = "\n// a\n\"//\" += \n\n// b\n/* c".toList ∧
      tokensOf { settings with returnNewlines := false } (s.render true) = solid s.tokens ∧
      tokensOf { settings with returnNewlines := true } (s.render true) =
        [.newline, .ofText "// a".toList, .newline, .ofText "\"//\"".toList,
          .ofText "+=".toList, .newline, .ofText "// b".toList, .newline,
          .ofText "/* c".toList] := by
  intro settings s
  have hvalid : settings.IsValid := by decide
  have halone : ∀ t ∈ s.tokens.dropLast, t.isNewline = true ∨ t.ScansAlone settings := by
    unfold Token.ScansAlone
    decide +kernel
  have hlast : ∀ t ∈ s.tokens.getLast?,
      t.isNewline = true ∨ t.ScansAlone settings ∨ t.ScansLast settings := by
    rintro _ ⟨⟩
    refine Or.inr (Or.inr ?_)
    unfold Token.ScansLast
    decide +kernel
  have hrender : s.render true = "\n// a\n\"//\" += \n\n// b\n/* c".toList := by decide +kernel
  have hmark : (s.render true).head? ≠ some Utf8.byteOrderMark := by
    rw [hrender]
    decide +kernel
  obtain ⟨hsolid, hshown⟩ := tokensOf_render_eq_shown hvalid s halone hlast
  refine ⟨hvalid, halone, hlast, hrender, hsolid true hmark, (hshown hmark).trans ?_⟩
  decide +kernel

end SemiLex
