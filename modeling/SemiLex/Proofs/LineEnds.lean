import SemiLex.Proofs.Displaying
import SemiLex.Proofs.Lines
import SemiLex.Proofs.Stability

/-!
# Texts put together at a line end

If a line break behind a text leaves its tokens as they are, nothing is open at the end of the text:
no literal, no block comment, and no operator that the line break would complete.  Then it does not
matter to its tokens what comes in further lines, nor does it matter to those what came before.
-/

namespace SemiLex

open Tokenizer

variable {operators : Operators} {lexemes lexemes' others : List Token} {kind : Kind}
  {lexeme gap text rest second : Text}

/-! ## Blanks in front of a text -/

theorem surfaced_blank {first : Char} (hfirst : Unicode.isBlank first = true) (tail : Text)
    (kind : Kind) : surfaced false ⟨first :: tail, kind⟩ = none := by
  rw [surfaced_cons, if_pos hfirst]
  rfl

theorem surfaced_solid {first : Char} (hfirst : Unicode.isBlank first = false) (tail : Text)
    (kind : Kind) : surfaced false ⟨first :: tail, kind⟩ = some ⟨first :: tail, kind⟩ := by
  rw [surfaced_cons, hfirst]
  rfl

theorem Lexes.exists_behind_blanks (h : Lexes operators lexemes rest)
    (hgap : ∀ c ∈ gap, Unicode.isBlank c = true) :
    ∃ found, Lexes operators found (gap ++ rest) ∧
      found.filterMap (surfaced false) = lexemes.filterMap (surfaced false) := by
  cases gap with
  | nil => exact ⟨lexemes, h, rfl⟩
  | cons blank gap =>
    have hblank := hgap blank List.mem_cons_self
    obtain ⟨run, kept, hrun, hlexes, hkept⟩ := h.exists_longer hgap
    refine ⟨_, hlexes, ?_⟩
    rw [List.filterMap_cons, surfaced_blank hblank]
    rcases hkept with ⟨-, rfl⟩ | ⟨first, tail, rfl, rfl⟩
    · rfl
    · rw [List.filterMap_cons, surfaced_blank (hrun first List.mem_cons_self)]

/-! ## The last lexeme of a text -/

/-- At the end of a text, a lexeme that is no whitespace ends in front of a line break, whatever
follows it there, or it goes on with the line break. -/
theorem IsLexeme.before_newline (h : IsLexeme operators kind lexeme [])
    (hkind : kind ≠ .whitespace) :
    (∀ more, IsLexeme operators kind lexeme ('\n' :: more)) ∨
      IsLexeme operators kind (lexeme ++ ['\n']) [] := by
  cases h with
  | whitespace => exact absurd rfl hkind
  | word hrun =>
    refine Or.inl fun more => .word ⟨hrun.1, ?_⟩
    rintro _ ⟨⟩
    decide
  | literal hquote hrun =>
    cases hrun with
    | closed body hbody => exact Or.inl fun more => .literal hquote (.closed body hbody)
    | unclosed hbody =>
      have hnewline : ¬ IsQuote '\n' := by
        unfold IsQuote
        decide
      refine Or.inr (.literal hquote (.unclosed fun hmem => ?_))
      rcases List.mem_append.mp hmem with hmem | hmem
      · exact hbody hmem
      · obtain rfl := List.mem_singleton.mp hmem
        exact hnewline hquote
  | lineComment hrun =>
    refine Or.inl fun more => .lineComment ⟨hrun.1, ?_⟩
    rintro _ ⟨⟩
    decide
  | blockComment hrun =>
    cases hrun with
    | closed body hbody => exact Or.inl fun more => .blockComment (.closed body hbody)
    | unclosed hbody =>
      exact Or.inr (.blockComment (.unclosed (not_close_infix_concat hbody (by decide))))
  | operator hopens hpair => exact Or.inl fun more => .operator hopens hpair
  | @single first _ hopens hpair =>
    have hquote : ¬ IsQuote first := fun h => hopens (Or.inl h)
    have hopens' : ¬ Opens first (some '\n') := by
      rintro (h | ⟨-, h | h⟩)
      · exact hquote h
      · exact absurd h (by decide)
      · exact absurd h (by decide)
    -- nothing keeps a line break from being the second character of an operator
    cases hpair' : operators.contains first '\n' with
    | true => exact Or.inr (.operator hopens' hpair')
    | false =>
      refine Or.inl fun more => .single hopens' ?_
      rintro _ ⟨⟩
      exact hpair'

theorem IsLexeme.exists_line_behind {first : Char} {tail : Text}
    (h : IsLexeme operators (Kind.of first) (first :: tail) [])
    (h' : Lexes operators lexemes' (first :: tail ++ ['\n']))
    (htokens : lexemes'.filterMap (surfaced false) =
      [⟨first :: tail, Kind.of first⟩].filterMap (surfaced false))
    (hothers : Lexes operators others second) :
    ∃ found, Lexes operators found (first :: tail ++ '\n' :: second) ∧
      found.filterMap (surfaced false) =
        [⟨first :: tail, Kind.of first⟩].filterMap (surfaced false) ++
          others.filterMap (surfaced false) := by
  have hnewline : ∀ c ∈ ['\n'], Unicode.isBlank c = true :=
    List.forall_mem_singleton.mpr (by decide)
  cases hfirst : Unicode.isBlank first with
  | true =>
    have hgap : ∀ c ∈ first :: tail ++ ['\n'], Unicode.isBlank c = true :=
      List.forall_mem_append.mpr ⟨h.forall_isBlank hfirst, hnewline⟩
    obtain ⟨found, hfound, hsame⟩ := hothers.exists_behind_blanks hgap
    rw [List.append_assoc] at hfound
    refine ⟨found, hfound, ?_⟩
    rw [hsame, List.filterMap_cons, surfaced_blank hfirst]
    rfl
  | false =>
    have hkind : Kind.of first ≠ .whitespace := by
      rw [ne_eq, Kind.of_eq_whitespace_iff, hfirst]
      exact Bool.false_ne_true
    rcases h.before_newline hkind with hends | hlonger
    · obtain ⟨found, hfound, hsame⟩ := hothers.exists_behind_blanks hnewline
      refine ⟨_, .cons (hends second) hfound, ?_⟩
      rw [List.filterMap_cons, List.filterMap_cons, surfaced_solid hfirst, hsame]
      rfl
    · -- The token would be another one with the line break in it.
      have hall := Lexes.cons hlonger .nil
      rw [List.append_nil] at hall
      rw [h'.unique hall, List.filterMap_cons, List.filterMap_cons, surfaced_solid hfirst,
        surfaced_solid hfirst] at htokens
      obtain ⟨hsame, -⟩ := List.cons.inj htokens
      exact absurd (List.cons.inj (congrArg Token.text hsame)).2 (by simp)

/-! ## Texts put together -/

/-- The lexemes of a text in front of a line break and more, if the line break alone adds no token:
those in front of the last one depend on what is behind them no further than it. -/
theorem Lexes.exists_lines (h : Lexes operators lexemes text)
    (h' : Lexes operators lexemes' (text ++ ['\n']))
    (htokens : lexemes'.filterMap (surfaced false) = lexemes.filterMap (surfaced false))
    (hothers : Lexes operators others second) :
    ∃ found, Lexes operators found (text ++ '\n' :: second) ∧
      found.filterMap (surfaced false) =
        lexemes.filterMap (surfaced false) ++ others.filterMap (surfaced false) := by
  induction h generalizing lexemes' with
  | nil =>
    have hnewline : ∀ c ∈ ['\n'], Unicode.isBlank c = true :=
      List.forall_mem_singleton.mpr (by decide)
    exact hothers.exists_behind_blanks hnewline
  | @cons first tail rest lexemes hlexeme hrest ih =>
    cases hrest with
    | nil =>
      rw [List.append_nil] at h' ⊢
      exact hlexeme.exists_line_behind h' htokens hothers
    | @cons next tail' rest' lexemes hnext hrest' =>
      have hsplit (others : List Token) :
          (⟨first :: tail, Kind.of first⟩ :: others).filterMap (surfaced false) =
            [⟨first :: tail, Kind.of first⟩].filterMap (surfaced false) ++
              others.filterMap (surfaced false) :=
        List.filterMap_append (l := [_])
      obtain ⟨ended, hended⟩ := exists_lexes operators (next :: (tail' ++ rest') ++ ['\n'])
      rw [h'.unique (.cons_append hlexeme hended), hsplit ended, hsplit (_ :: lexemes)] at htokens
      obtain ⟨found, hfound, hsame⟩ := ih hended (List.append_cancel_left htokens)
      refine ⟨_, .cons_append hlexeme hfound, ?_⟩
      rw [hsplit found, hsplit (_ :: lexemes), hsame, List.append_assoc]

end SemiLex

namespace SemiLex.Tokenizer

/-- Scanning composes at line ends.  Whatever the operators, if a line break behind a text leaves
its tokens as they are, the tokens of the text with more lines behind it are its own and those of
these lines, which must not start with a byte order mark.  The lines add up, too. -/
theorem tokensOf_append_newline_append {settings : ScanSettings} {first second : Text}
    (hmark : second.head? ≠ some Utf8.byteOrderMark)
    (hclosed : tokensOf { settings with returnNewlines := false } (first ++ ['\n']) =
      tokensOf { settings with returnNewlines := false } first) :
    let unmarked := { settings with returnNewlines := false }
    let lines (text : Text) := ((ofSettings unmarked).openText text >>= rest).value.2.line
    tokensOf unmarked (first ++ '\n' :: second) =
        tokensOf unmarked first ++ tokensOf unmarked second ∧
      lines (first ++ '\n' :: second) = lines first + lines second := by
  intro unmarked lines
  have hnewline (more : Text) : ('\n' :: more).head? ≠ some Utf8.byteOrderMark := by
    rw [List.head?_cons, ne_eq, Option.some.injEq]
    decide
  obtain ⟨lexemes, hlexes⟩ := exists_lexes (.ofSettings settings) first
  obtain ⟨ended, hended⟩ := exists_lexes (.ofSettings settings) (first ++ ['\n'])
  obtain ⟨others, hothers⟩ := exists_lexes (.ofSettings settings) second
  rw [tokensOf_eq unmarked hlexes, tokensOf_eq unmarked hended] at hclosed
  rw [Source.withoutMark_append _ (hnewline [])] at hended
  have hsecond := hothers
  rw [Source.withoutMark_eq_self hmark] at hsecond
  obtain ⟨found, hfound, hsame⟩ := hlexes.exists_lines hended hclosed hsecond
  rw [← Source.withoutMark_append _ (hnewline second)] at hfound
  constructor
  · rw [tokensOf_eq unmarked hfound, tokensOf_eq unmarked hlexes, tokensOf_eq unmarked hothers]
    exact hsame
  · have hcount : (first ++ '\n' :: second).count '\n' =
        first.count '\n' + (second.count '\n' + 1) := by
      rw [List.count_append, List.count_cons_self]
    simp only [lines, line_rest_openText]
    omega

/-- A literal over two lines and a line comment, with operators that are not valid: one of them has
a line break, and one is a single letter. -/
theorem tokensOf_append_newline_append_invalid :
    let settings : ScanSettings := ⟨[['=', '\n'], ['a']], false⟩
    let first := "x=\"a\n\" // c".toList
    let second := "*/ =\n d".toList
    ¬ settings.IsValid ∧ second.head? ≠ some Utf8.byteOrderMark ∧
      tokensOf settings (first ++ ['\n']) = tokensOf settings first ∧
      tokensOf settings (first ++ '\n' :: second) =
        [.ofText ['x'], .ofText ['='], .ofText "\"a\n\"".toList, .ofText "// c".toList,
          .ofText ['*'], .ofText ['/'], .ofText ['=', '\n'], .ofText ['d']] ∧
      ((ofSettings settings).openText (first ++ '\n' :: second) >>= rest).value.2.line = 2 + 2 := by
  intro settings first second
  have hmark : second.head? ≠ some Utf8.byteOrderMark := by decide
  have hclosed : tokensOf settings (first ++ ['\n']) = tokensOf settings first := by
    decide +kernel
  obtain ⟨htokens, hlines⟩ := @tokensOf_append_newline_append settings _ _ hmark hclosed
  refine ⟨by decide, hmark, hclosed, htokens.trans ?_, hlines.trans ?_⟩
  · decide +kernel
  · decide +kernel

end SemiLex.Tokenizer
