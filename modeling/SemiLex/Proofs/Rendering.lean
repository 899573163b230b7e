import SemiLex.Proofs.Collecting
import SemiLex.Proofs.Displaying

/-!
# Rendered tokens scan back

The tokens of a semi-expression end in front of their separators, so a scan of its rendering finds
the same tokens again.  There is one exception: a rendering that starts with a byte order mark loses
it, because a source skips the mark.
-/

namespace SemiLex

variable {operators : Operators} {tokens : List Token}

/-! ## Scanning a rendering -/

open SemiExpression Tokenizer

theorem count_renderAfter (separator : Option Char) (hends : ∀ u ∈ tokens, u.Ends operators)
    (hseparator : separator ≠ some Utf8.byteOrderMark) :
    (renderAfter separator tokens).count Utf8.byteOrderMark =
      (tokens.flatMap Token.text).count Utf8.byteOrderMark := by
  induction tokens generalizing separator with
  | nil => rfl
  | cons u tokens ih =>
    obtain ⟨hu, hends⟩ := List.forall_mem_cons.mp hends
    have hafter : separatorAfter u ≠ some Utf8.byteOrderMark := by
      unfold separatorAfter
      split
      · nofun
      · split <;> decide
    have hbefore : (separatorBefore separator u).count Utf8.byteOrderMark = 0 := by
      rw [separatorBefore, hu.isNewline]
      cases separator with
      | none => rfl
      | some c =>
        have hne : c ≠ Utf8.byteOrderMark := fun h => hseparator (congrArg some h)
        simp [hne]
    rw [renderAfter, List.count_append, List.count_append, hbefore, ih _ hends hafter,
      List.flatMap_cons, List.count_append, Nat.zero_add]

theorem sublist_of_surfaced (lexemes : List Token) :
    ((lexemes.filterMap (surfaced false)).flatMap Token.text).Sublist
      (lexemes.map Token.text).flatten := by
  induction lexemes with
  | nil => exact .slnil
  | cons lexeme lexemes ih =>
    rw [List.filterMap_cons, surfaced, List.map_cons, List.flatten_cons]
    cases lexeme.isWhitespace with
    | false => exact (List.Sublist.refl lexeme.text).append ih
    | true => exact ih.trans (List.sublist_append_right _ _)

/-- A rendering without markers scans to its tokens.  Only line comments put line breaks in it. -/
theorem tokensOf_renderAfter_of_ends {settings : ScanSettings}
    (hends : ∀ t ∈ tokens, t.Ends (.ofSettings settings))
    (hclosed : tokens.Pairwise fun t _ => t.Closed (.ofSettings settings))
    (hmark : (renderAfter none tokens).head? ≠ some Utf8.byteOrderMark) :
    tokensOf { settings with returnNewlines := false } (renderAfter none tokens) = tokens ∧
      ((∀ t ∈ tokens, t.isLineComment = false) →
        tokensOf { settings with returnNewlines := true } (renderAfter none tokens) = tokens) := by
  have hnewlines : ∀ t ∈ tokens, t.isNewline = false := fun t ht => (hends t ht).isNewline
  obtain ⟨hfalse, htrue⟩ := tokensOf_renderAfter (fun t ht => Or.inr (hends t ht))
    (hclosed.imp Or.inr) hmark
  refine ⟨hfalse.trans ?_, fun hcomments => htrue.trans ?_⟩
  · rw [Grouping.solid, List.filter_eq_self]
    intro t ht
    rw [hnewlines t ht]
    rfl
  · rw [shown_eq_self hnewlines hcomments, Grouping.collapsed_eq_self]
    exact fun hmem => ne_newline_of_not_isNewline (hnewlines _ hmem) rfl

theorem tokensOf_renderAfter_eq_iff {settings : ScanSettings}
    (hends : ∀ t ∈ tokens, t.Ends (.ofSettings settings))
    (hclosed : tokens.Pairwise fun t _ => t.Closed (.ofSettings settings)) :
    tokensOf { settings with returnNewlines := false } (renderAfter none tokens) = tokens ↔
      (renderAfter none tokens).head? ≠ some Utf8.byteOrderMark := by
  constructor
  · intro heq hmark
    obtain ⟨text, htext⟩ := List.head?_eq_some_iff.mp hmark
    obtain ⟨lexemes, hlexes⟩ := exists_lexes (.ofSettings settings) (renderAfter none tokens)
    have hscan := tokensOf_eq { settings with returnNewlines := false } hlexes
    have hcount := count_renderAfter none hends (by decide)
    have hle := (sublist_of_surfaced lexemes).count_le Utf8.byteOrderMark
    rw [← hscan, heq, hlexes.flatten, ← hcount, htext, Source.withoutMark, if_pos rfl,
      List.count_cons_self] at hle
    omega
  · exact fun hmark => (tokensOf_renderAfter_of_ends hends hclosed hmark).1

/-! ## Collected tokens -/

theorem solid_surfaced (markers : Bool) (lexemes : List Token) :
    Grouping.solid (lexemes.filterMap (surfaced markers)) =
      lexemes.filter fun t => !t.isWhitespace := by
  induction lexemes with
  | nil => rfl
  | cons lexeme lexemes ih =>
    rw [List.filterMap_cons, surfaced, List.filter_cons]
    cases hblank : lexeme.isWhitespace with
    | false =>
      have hnewline : lexeme.isNewline = false := by
        by_contra hnewline
        rw [Bool.not_eq_false, Token.isNewline, beq_iff_eq] at hnewline
        rw [Token.isWhitespace, hnewline] at hblank
        exact absurd hblank (by decide)
      simpa [Grouping.solid, hnewline] using ih
    | true =>
      cases markers && lexeme.text.contains '\n' with
      | false => exact ih
      | true => exact ih

end SemiLex

namespace SemiLex.Collector

open Grouping Tokenizer

variable {settings : Settings} {text : Text} {semi : List Token} {d : Collector}

theorem sublist_of_mem_collected (hmarkers : settings.semi.returnNewlines = false)
    (h : semi ∈ collected settings text) :
    semi.Sublist
      (solid (tokensOf { settings.scanner with returnNewlines := true } text)) := by
  rw [collected_eq] at h
  refine (List.sublist_flatten_of_mem h).trans ?_
  rw [groups, flatten_joined, unitsOf, hmarkers, flatten_units_false, List.nil_append]
  exact List.filter_sublist.filter _

/-- A rendering scans back to the tokens that it renders, unless it starts with a byte order mark.
Of the collected semi-expressions, these are the ones whose first token does. -/
theorem tokensOf_render_eq_iff (hvalid : settings.scanner.IsValid)
    (hmarkers : settings.semi.returnNewlines = false)
    (hd : d ∈ ((ofSettings settings).openText text >>= rest).value.1) :
    tokensOf { settings.scanner with returnNewlines := false } d.render = d.semi.tokens ↔
      d.render.head? ≠ some Utf8.byteOrderMark := by
  obtain ⟨lexemes, hlexes⟩ := exists_lexes (.ofSettings settings.scanner) text
  have hsublist := sublist_of_mem_collected hmarkers (List.mem_map_of_mem hd)
  rw [tokensOf_eq { settings.scanner with returnNewlines := true } hlexes, solid_surfaced]
    at hsublist
  have hends : ∀ t ∈ d.semi.tokens, t.Ends (.ofSettings settings.scanner) :=
    fun t ht => hlexes.ends t (hsublist.subset ht)
  have hclosed := (hlexes.closed (Operators.allPunctuation_ofSettings hvalid)).sublist hsublist
  have hrender : d.render = SemiExpression.renderAfter none d.semi.tokens := by
    rw [render, SemiExpression.render, List.filter_eq_self.mpr]
    intro t ht
    rw [(hends t ht).isNewline, Bool.not_false, Bool.or_true]
  rw [hrender]
  exact tokensOf_renderAfter_eq_iff hends hclosed

/-- Comments and operators are kept apart, and an open comment stays the last token. -/
theorem tokensOf_render_open_comment :
    (Settings.default.unmarked false).scanner.IsValid ∧
      (Settings.default.unmarked false).semi.returnNewlines = false ∧
      ∃ d ∈ ((ofSettings (Settings.default.unmarked false)).openText
          "// a\n+=b /* c".toList >>= rest).value.1,
        d.render = "// a\n+= b /* c".toList ∧
        tokensOf { (Settings.default.unmarked false).scanner with returnNewlines := false }
          d.render = d.semi.tokens := by
  have hvalid : (Settings.default.unmarked false).scanner.IsValid := by decide
  have hrun : ((ofSettings (Settings.default.unmarked false)).openText
      "// a\n+=b /* c".toList >>= rest).value.1.map render = ["// a\n+= b /* c".toList] := by
    decide +kernel
  obtain ⟨d, hd, hrender⟩ := List.mem_map.mp (hrun ▸ List.mem_singleton_self _)
  refine ⟨hvalid, rfl, d, hd, hrender, (tokensOf_render_eq_iff hvalid rfl hd).mpr ?_⟩
  rw [hrender]
  decide

/-- The second semi-expression starts with a byte order mark, and its rendering loses it. -/
theorem tokensOf_render_byteOrderMark :
    ((ofSettings (Settings.default.unmarked true)).openText "x;\ufeffy;".toList >>=
        rest).value.1.map (fun d => tokensOf ScanSettings.default d.render) ≠
      collected (Settings.default.unmarked true) "x;\ufeffy;".toList := by
  decide +kernel

end SemiLex.Collector
