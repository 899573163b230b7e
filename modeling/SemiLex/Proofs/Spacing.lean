import SemiLex.Proofs.Collecting
import SemiLex.Proofs.Markers
import SemiLex.Proofs.Separators

/-!
# Comments as blanks

Where comments are discarded, each of them might as well be one blank.  Around a comment the text
is cut into the same lexemes, and only whitespace on both sides of it grows together.  So of two
markers with nothing but a comment between them one is left, and a second marker in a row makes no
difference to the grouping: the first one has ended the directive, or none does.
-/

namespace SemiLex.Grouping

variable {keepMarkers discardComments : Bool} {unit unit' tokens tokens' first second : List Token}
  {t : Token}

/-! ## Units of collapsed tokens -/

theorem ends_congr (h : unit.head? = unit'.head?) (t : Token) : ends unit t = ends unit' t := by
  rw [ends, ends, isDirective, isDirective, h]

theorem eq_nil_congr (h : unit.head? = unit'.head?) : unit = [] ↔ unit' = [] := by
  rw [← List.head?_eq_none_iff, h, List.head?_eq_none_iff]

theorem added_congr (h : unit.head? = unit'.head?) (t : Token) :
    added keepMarkers unit t = added keepMarkers unit' t := by
  have hempty : unit.isEmpty = unit'.isEmpty := by
    rw [Bool.eq_iff_iff, List.isEmpty_iff, List.isEmpty_iff, eq_nil_congr h]
  rw [added, added, hempty]

theorem map_collapsed_units_congr (h : collapsed unit = collapsed unit') :
    (units keepMarkers unit tokens).map collapsed =
      (units keepMarkers unit' tokens).map collapsed := by
  induction tokens generalizing unit unit' with
  | nil =>
    have hnil := eq_nil_congr (head?_eq_of_collapsed_eq h)
    unfold units
    by_cases hunit : unit = []
    · rw [if_pos hunit, if_pos (hnil.mp hunit)]
    · rw [if_neg hunit, if_neg (hnil.not.mp hunit), List.map_singleton, List.map_singleton, h]
  | cons t tokens ih =>
    have hhead := head?_eq_of_collapsed_eq h
    have hextended : collapsed (unit ++ added keepMarkers unit t) =
        collapsed (unit' ++ added keepMarkers unit' t) := by
      rw [added_congr hhead]
      exact collapsed_append_congr h rfl
    rw [units_cons, units_cons, ends_congr hhead]
    split
    · rw [List.map_cons, List.map_cons, hextended]
    · exact ih hextended

theorem added_newline_nil : added keepMarkers [] .newline = [] := by
  cases keepMarkers <;> rfl

theorem added_newline_of_ne_nil (h : unit ≠ []) :
    added keepMarkers unit .newline = if keepMarkers then [.newline] else [] := by
  cases unit with
  | nil => exact absurd rfl h
  | cons t unit => cases keepMarkers <;> rfl

theorem ends_newline (unit : List Token) : ends unit .newline = isDirective unit := rfl

/-- A marker in front of another one makes no difference.  If it ends the open unit, the other one
does not start a unit; if it does not, it is kept beside the other one or dropped with it. -/
theorem map_collapsed_units_newline_newline :
    (units keepMarkers unit (.newline :: .newline :: tokens)).map collapsed =
      (units keepMarkers unit (.newline :: tokens)).map collapsed := by
  by_cases hunit : unit = []
  · subst hunit
    rw [units_cons, ends_newline, added_newline_nil]
    rfl
  rw [units_cons, units_cons keepMarkers unit, ends_newline, added_newline_of_ne_nil hunit]
  split
  · rw [units_cons, ends_newline, added_newline_nil]
    rfl
  · rename_i hdirective
    set extended := unit ++ if keepMarkers then [.newline] else [] with hextended
    have hhead : extended.head? = unit.head? := by
      rw [hextended, List.head?_append_of_ne_nil _ hunit]
    have hne : extended ≠ [] := by simp [hextended, hunit]
    rw [units_cons, ends_congr hhead, ends_newline, if_neg hdirective,
      added_newline_of_ne_nil hne]
    apply map_collapsed_units_congr
    cases keepMarkers with
    | false => simp
    | true =>
      rw [hextended, List.append_assoc]
      exact collapsed_append_left unit (collapsed_newline_cons rfl)

theorem map_collapsed_units (keepMarkers : Bool) (unit tokens : List Token) :
    (units keepMarkers unit (collapsed tokens)).map collapsed =
      (units keepMarkers unit tokens).map collapsed := by
  induction tokens generalizing unit with
  | nil => rfl
  | cons t tokens ih =>
    rw [collapsed]
    split
    · rename_i h
      obtain ⟨rest, rfl⟩ := List.head?_eq_some_iff.mp h.2
      rw [ih, h.1, map_collapsed_units_newline_newline]
    · rw [units_cons, units_cons]
      split
      · rw [List.map_cons, List.map_cons, ih]
      · exact ih _

/-! ## Joining collapsed units -/

theorem containsFor_collapsed (unit : List Token) :
    containsFor (collapsed unit) = containsFor unit := by
  induction unit with
  | nil => rfl
  | cons t unit ih =>
    rw [collapsed]
    split
    · rename_i h
      rw [ih, h.1]
      rfl
    · rw [containsFor, List.any_cons, ← containsFor, ih]
      rfl

theorem collapsed_flatten_map (units : List (List Token)) :
    collapsed (units.map collapsed).flatten = collapsed units.flatten := by
  induction units with
  | nil => rfl
  | cons unit units ih => exact collapsed_append_congr (collapsed_collapsed unit) ih

theorem map_collapsed_joined (units : List (List Token)) :
    (joined (units.map collapsed)).map collapsed = (joined units).map collapsed := by
  fun_induction joined units with
  | case1 => rw [List.map_nil, joined_nil, List.map_nil]
  | case2 unit units hfor ih =>
    rw [List.map_cons, joined_cons, containsFor_collapsed, if_pos hfor, ← List.map_take,
      ← List.map_drop, List.map_cons, List.map_cons, ih]
    congr 1
    exact collapsed_append_congr (collapsed_collapsed unit) (collapsed_flatten_map _)
  | case3 unit units hfor ih =>
    rw [List.map_cons, joined_cons, containsFor_collapsed, if_neg hfor, List.map_cons,
      List.map_cons, ih, collapsed_collapsed]

theorem map_collapsed_groups_congr {settings : GroupSettings}
    (h : collapsed (visible settings.discardComments tokens) =
      collapsed (visible settings.discardComments tokens')) :
    (groups settings tokens).map collapsed = (groups settings tokens').map collapsed := by
  have hunits : (unitsOf settings tokens).map collapsed =
      (unitsOf settings tokens').map collapsed := by
    rw [unitsOf, unitsOf, ← map_collapsed_units, h, map_collapsed_units]
  rw [groups, groups, ← map_collapsed_joined, hunits, map_collapsed_joined]

theorem map_collapsed_groups_eq_self {settings : GroupSettings}
    (h : settings.returnNewlines = false) (tokens : List Token) :
    (groups settings tokens).map collapsed = groups settings tokens := by
  have hself : ∀ group ∈ groups settings tokens, collapsed group = id group := by
    intro group hgroup
    apply collapsed_eq_self
    intro hmarker
    have hmem : Token.newline ∈ (groups settings tokens).flatten :=
      List.mem_flatten.mpr ⟨group, hgroup, hmarker⟩
    rw [groups, flatten_joined, unitsOf, h, flatten_units_false, List.nil_append] at hmem
    exact absurd (List.mem_filter.mp hmem).2 (by decide)
  rw [List.map_congr_left hself, List.map_id]

end SemiLex.Grouping

namespace SemiLex

open Grouping Tokenizer

variable {operators : Operators} {kind : Kind} {lexeme text rest rest' : Text}
  {tokens lexemes : List Token}

/-! ## Comments replaced by blanks -/

/-- These lexemes as a text, with one blank for each comment. -/
def spaced (lexemes : List Token) : Text :=
  lexemes.flatMap fun t => if t.isComment then [' '] else t.text

theorem spaced_cons_of_isComment {t : Token} (h : t.isComment = true) :
    spaced (t :: lexemes) = ' ' :: spaced lexemes := by
  rw [spaced, List.flatMap_cons, if_pos h]
  rfl

theorem spaced_cons_of_not_isComment {t : Token} (h : t.isComment = false) :
    spaced (t :: lexemes) = t.text ++ spaced lexemes := by
  rw [spaced, List.flatMap_cons, h]
  rfl

theorem Lexes.head?_spaced (h : Lexes operators lexemes text) :
    (text ≠ [] ∧ ∃ more, spaced lexemes = ' ' :: more) ∨
      (spaced lexemes).head? = text.head? := by
  cases h with
  | nil => exact Or.inr rfl
  | @cons first tail rest lexemes _ _ =>
    cases hcomment : (⟨first :: tail, Kind.of first⟩ : Token).isComment with
    | true =>
      exact Or.inl ⟨List.cons_ne_nil _ _, spaced lexemes, spaced_cons_of_isComment hcomment⟩
    | false =>
      refine Or.inr ?_
      rw [spaced_cons_of_not_isComment hcomment]
      rfl

theorem IsLexeme.congr_head? (h : IsLexeme operators kind lexeme rest)
    (hrest : rest'.head? = rest.head?) : IsLexeme operators kind lexeme rest' := by
  have hnil : rest = [] → rest' = [] := by
    rintro rfl
    exact List.head?_eq_none_iff.mp hrest
  cases h with
  | whitespace hrun => exact .whitespace ⟨hrun.1, hrest ▸ hrun.2⟩
  | word hrun => exact .word ⟨hrun.1, hrest ▸ hrun.2⟩
  | literal hquote hrun =>
    cases hrun with
    | closed body hbody => exact .literal hquote (.closed body hbody)
    | unclosed hbody =>
      rw [hnil rfl]
      exact .literal hquote (.unclosed hbody)
  | lineComment hrun => exact .lineComment ⟨hrun.1, hrest ▸ hrun.2⟩
  | blockComment hrun =>
    cases hrun with
    | closed body hbody => exact .blockComment (.closed body hbody)
    | unclosed hbody =>
      rw [hnil rfl]
      exact .blockComment (.unclosed hbody)
  | operator hopens hpair => exact .operator hopens hpair
  | single hopens hpair => exact .single (hrest ▸ hopens) (hrest ▸ hpair)

/-- What is neither whitespace nor a comment is the same lexeme when the comments behind it are
replaced. -/
theorem IsLexeme.before_spaced {t : Token} (hoperators : operators.AllPunctuation)
    (h : IsLexeme operators t.kind t.text text) (hfirst : ∀ c ∈ t.text.head?, Kind.of c = t.kind)
    (hkind : t.kind ≠ .whitespace) (hcomment : t.isComment = false)
    (hrest : Lexes operators lexemes text) :
    IsLexeme operators t.kind t.text (spaced lexemes) := by
  rcases hrest.head?_spaced with ⟨hne, more, hmore⟩ | hhead
  · obtain ⟨separator, hseparator, -, hlexeme⟩ := h.closed hoperators hfirst hkind hne
    have hline : t.isLineComment = false := by
      rw [Token.isComment, Bool.or_eq_false_iff] at hcomment
      exact hcomment.1
    have hblank : separator = ' ' := by
      rw [SemiExpression.separatorAfter, hline] at hseparator
      split at hseparator
      · cases hseparator
      · exact (Option.some.inj hseparator).symm
    rw [hmore, ← hblank]
    exact hlexeme more
  · exact h.congr_head? hhead

/-! ## What is grouped -/

/-- The tokens of these lexemes that are grouped where comments are discarded. -/
def grouped (lexemes : List Token) : List Token :=
  visible true (lexemes.filterMap (surfaced true))

theorem not_isWhitespace_of_isComment {t : Token} (h : t.isComment = true) :
    t.isWhitespace = false := by
  obtain ⟨text, kind⟩ := t
  match text with
  | [] => rfl
  | first :: tail =>
    have hfirst : first = '/' := by
      simp only [Token.isComment, Token.isLineComment, List.isPrefixOf_cons_cons, Bool.or_eq_true,
        Bool.and_eq_true, beq_iff_eq] at h
      rcases h with ⟨h, -⟩ | ⟨h, -⟩ <;> exact h.symm
    have hblank : Unicode.isBlank '/' = false := by decide
    rw [hfirst]
    exact hblank

theorem grouped_cons_blank {first : Char} (hfirst : Unicode.isBlank first = true) (tail : Text)
    (kind : Kind) (lexemes : List Token) :
    grouped (⟨first :: tail, kind⟩ :: lexemes) = breaks (first :: tail) ++ grouped lexemes := by
  have hblank : (⟨first :: tail, kind⟩ : Token).isWhitespace = true := hfirst
  have hmarker (tokens : List Token) :
      visible true (.newline :: tokens) = .newline :: visible true tokens :=
    Collector.visible_cons true .newline tokens
  rw [grouped, List.filterMap_cons, surfaced, hblank, breaks]
  by_cases hbreak : '\n' ∈ first :: tail
  · simp only [Bool.not_true, Bool.false_eq_true, if_false, Bool.true_and, List.contains_iff_mem,
      if_pos hbreak, hmarker]
    rfl
  · simp only [Bool.not_true, Bool.false_eq_true, if_false, Bool.true_and, List.contains_iff_mem,
      if_neg hbreak]
    rfl

theorem grouped_cons_of_isComment {t : Token} (h : t.isComment = true) (lexemes : List Token) :
    grouped (t :: lexemes) = grouped lexemes := by
  rw [grouped, List.filterMap_cons, surfaced, not_isWhitespace_of_isComment h]
  exact (Collector.visible_cons true t _).trans (if_pos h)

theorem grouped_cons_solid {t : Token} (hblank : t.isWhitespace = false)
    (hcomment : t.isComment = false) (lexemes : List Token) :
    grouped (t :: lexemes) = t :: grouped lexemes := by
  rw [grouped, List.filterMap_cons, surfaced, hblank]
  refine (Collector.visible_cons true t _).trans (if_neg ?_)
  rw [hcomment]
  exact Bool.false_ne_true

/-! ## The lexemes between blanks -/

theorem Lexes.exists_longer (h : Lexes operators lexemes rest) {blank : Char} {blanks : Text}
    (hblanks : ∀ c ∈ blank :: blanks, Unicode.isBlank c = true) :
    ∃ run kept, (∀ c ∈ run, Unicode.isBlank c = true) ∧
      Lexes operators (⟨blank :: (blanks ++ run), Kind.of blank⟩ :: kept)
        (blank :: (blanks ++ rest)) ∧
      (run = [] ∧ lexemes = kept ∨
        ∃ first tail, run = first :: tail ∧ lexemes = ⟨run, Kind.of first⟩ :: kept) := by
  obtain ⟨hblank, htail⟩ := List.forall_mem_cons.mp hblanks
  have hlexes {run rest : Text} {kept : List Token} (hrun : ∀ c ∈ run, Unicode.isBlank c = true)
      (hend : ∀ c ∈ rest.head?, Unicode.isBlank c = false) (h : Lexes operators kept rest) :
      Lexes operators (⟨blank :: (blanks ++ run), Kind.of blank⟩ :: kept)
        (blank :: ((blanks ++ run) ++ rest)) := by
    refine .cons ?_ h
    rw [Kind.of_eq_whitespace_iff.mpr hblank]
    exact .whitespace ⟨List.forall_mem_append.mpr ⟨htail, hrun⟩, hend⟩
  by_cases hrest : ∀ c ∈ rest.head?, Unicode.isBlank c = false
  · have hnone : ∀ c ∈ ([] : Text), Unicode.isBlank c = true := List.forall_mem_nil _
    have hcons := hlexes hnone hrest h
    rw [List.append_assoc] at hcons
    exact ⟨[], lexemes, hnone, hcons, Or.inl ⟨rfl, rfl⟩⟩
  · cases h with
    | nil => exact absurd (by simp) hrest
    | @cons first tail rest kept hlexeme hmore =>
      have hfirst : Unicode.isBlank first = true := by simpa using hrest
      rw [Kind.of_eq_whitespace_iff.mpr hfirst] at hlexeme
      cases hlexeme with
      | whitespace hrun =>
        have hall : ∀ c ∈ first :: tail, Unicode.isBlank c = true :=
          List.forall_mem_cons.mpr ⟨hfirst, hrun.1⟩
        have hcons := hlexes hall hrun.2 hmore
        rw [List.append_assoc] at hcons
        exact ⟨first :: tail, kept, hall, hcons, Or.inr ⟨first, tail, rfl, rfl⟩⟩

theorem Lexes.exists_blanks (h : Lexes operators lexemes rest) {blank : Char} {blanks : Text}
    (hblanks : ∀ c ∈ blank :: blanks, Unicode.isBlank c = true) :
    ∃ lexemes', Lexes operators lexemes' (blank :: (blanks ++ rest)) ∧
      collapsed (grouped lexemes') = collapsed (breaks (blank :: blanks) ++ grouped lexemes) := by
  have hblank := hblanks blank List.mem_cons_self
  obtain ⟨run, kept, hrun, hlexes, hkept⟩ := h.exists_longer hblanks
  refine ⟨_, hlexes, ?_⟩
  rw [grouped_cons_blank hblank]
  rcases hkept with ⟨rfl, rfl⟩ | ⟨first, tail, rfl, rfl⟩
  · rw [List.append_nil]
  · rw [grouped_cons_blank (hrun first List.mem_cons_self), ← List.cons_append,
      collapsed_breaks_append]

/-- With its comments replaced, a text is grouped as before, up to collapsing. -/
theorem Lexes.exists_spaced (hoperators : operators.AllPunctuation)
    (h : Lexes operators lexemes text) :
    ∃ lexemes', Lexes operators lexemes' (spaced lexemes) ∧
      collapsed (grouped lexemes') = collapsed (grouped lexemes) := by
  induction h with
  | nil => exact ⟨[], .nil, rfl⟩
  | @cons first tail rest lexemes hlexeme hlexes ih =>
    obtain ⟨lexemes', hlexes', htokens⟩ := ih
    cases hcomment : (⟨first :: tail, Kind.of first⟩ : Token).isComment with
    | true =>
      have hblank : Unicode.isBlank ' ' = true := by decide
      obtain ⟨found, hfound, hsame⟩ :=
        hlexes'.exists_blanks (List.forall_mem_singleton.mpr hblank)
      rw [spaced_cons_of_isComment hcomment, grouped_cons_of_isComment hcomment, ← htokens]
      exact ⟨found, hfound, hsame⟩
    | false =>
      rw [spaced_cons_of_not_isComment hcomment]
      cases hfirst : Unicode.isBlank first with
      | true =>
        -- whitespace runs together with the blank of a comment behind it
        have hrun : RunsWhile Unicode.isBlank tail rest := by
          rw [Kind.of_eq_whitespace_iff.mpr hfirst] at hlexeme
          cases hlexeme with
          | whitespace hrun => exact hrun
        obtain ⟨found, hfound, hsame⟩ :=
          hlexes'.exists_blanks (List.forall_mem_cons.mpr ⟨hfirst, hrun.1⟩)
        refine ⟨found, hfound, ?_⟩
        rw [hsame, grouped_cons_blank hfirst]
        exact collapsed_append_left _ htokens
      | false =>
        have hsolid : (⟨first :: tail, Kind.of first⟩ : Token).isWhitespace = false := hfirst
        have hkind : Kind.of first ≠ .whitespace := by
          rw [ne_eq, Kind.of_eq_whitespace_iff, hfirst]
          exact Bool.false_ne_true
        have hsame := IsLexeme.before_spaced (t := ⟨first :: tail, Kind.of first⟩) hoperators
          hlexeme (by simp) hkind hcomment hlexes
        refine ⟨_, .cons hsame hlexes', ?_⟩
        rw [grouped_cons_solid hsolid hcomment, grouped_cons_solid hsolid hcomment]
        exact collapsed_cons_congr _ htokens

end SemiLex

namespace SemiLex.Collector

open Grouping Tokenizer

/-! ## Collecting -/

/-- The text with one blank for each of the comments that are extracted from it.  A byte order mark
in front stays. -/
def withoutComments (settings : ScanSettings) (text : Text) : Text :=
  let lexemes := (Source.ofText text >>= Source.lexemes (.ofSettings settings)).value.1
  if text.head? = some Utf8.byteOrderMark then Utf8.byteOrderMark :: spaced lexemes
  else spaced lexemes

theorem withoutMark_withoutComments {settings : ScanSettings} {text : Text} {lexemes : List Token}
    (h : Lexes (.ofSettings settings) lexemes (Source.withoutMark text)) :
    Source.withoutMark (withoutComments settings text) = spaced lexemes := by
  obtain ⟨extracted, source, hrun, hlexes, -⟩ :=
    (Source.holds_ofText text).lexemes (.ofSettings settings)
  have hextracted :
      (Source.ofText text >>= Source.lexemes (.ofSettings settings)).value.1 = lexemes := by
    rw [Logged.value_bind, hrun, h.unique hlexes]
  simp only [withoutComments, hextracted]
  split
  · rfl
  · rename_i hmark
    apply Source.withoutMark_eq_self
    rcases h.head?_spaced with ⟨-, more, hmore⟩ | hhead
    · rw [hmore, List.head?_cons, ne_eq, Option.some.injEq]
      decide
    · rwa [hhead, Source.withoutMark_eq_self hmark]

/-- Where comments are discarded, each of them might as well be one blank.  The semi-expressions
are the same, except that there may be fewer markers in a row; and where markers are dropped, they
are just the same. -/
theorem map_collapsed_collected_withoutComments {settings : Settings}
    (hvalid : settings.scanner.IsValid) (hdiscard : settings.semi.discardComments = true)
    (text : Text) :
    (collected settings (withoutComments settings.scanner text)).map collapsed =
        (collected settings text).map collapsed ∧
      (settings.semi.returnNewlines = false →
        collected settings (withoutComments settings.scanner text) = collected settings text) := by
  obtain ⟨lexemes, hlexes⟩ := exists_lexes (.ofSettings settings.scanner) text
  obtain ⟨lexemes', hlexes', htokens⟩ :=
    hlexes.exists_spaced (Operators.allPunctuation_ofSettings hvalid)
  rw [← withoutMark_withoutComments hlexes] at hlexes'
  have hsame : (collected settings (withoutComments settings.scanner text)).map collapsed =
      (collected settings text).map collapsed := by
    rw [collected_eq, collected_eq]
    apply map_collapsed_groups_congr
    rw [tokensOf_eq { settings.scanner with returnNewlines := true } hlexes,
      tokensOf_eq { settings.scanner with returnNewlines := true } hlexes', hdiscard]
    exact htokens
  refine ⟨hsame, fun hmarkers => ?_⟩
  rw [collected_eq, collected_eq] at hsame ⊢
  rwa [map_collapsed_groups_eq_self hmarkers, map_collapsed_groups_eq_self hmarkers] at hsame

/-- Comments between operators, in a directive, and between line breaks. -/
theorem collected_withoutComments_between_breaks :
    Settings.default.scanner.IsValid ∧ Settings.default.semi.discardComments = true ∧
      let text := "#a/*\n*/b // c\nx+/**/=\n// d\ny;".toList
      withoutComments Settings.default.scanner text = "#a b  \nx+ =\n \ny;".toList ∧
      (collected Settings.default (withoutComments Settings.default.scanner text)).map collapsed =
        (collected Settings.default text).map collapsed ∧
      collected Settings.default (withoutComments Settings.default.scanner text) ≠
        collected Settings.default text := by
  refine ⟨by decide, rfl, by decide +kernel, ?_, by decide +kernel⟩
  exact (map_collapsed_collected_withoutComments (by decide) rfl _).1

end SemiLex.Collector
