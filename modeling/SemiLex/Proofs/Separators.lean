import SemiLex.Proofs.Tokens
import SemiLex.SemiExpression

/-!
# Tokens in front of separators

A rendering puts one separator behind each token but the last.  Where a token is followed by
anything in the text that it comes from, it also ends in front of its separator, whatever comes
behind that.
-/

namespace SemiLex

variable {operators : Operators} {t : Token} {tokens : List Token} {text rest : Text}

/-! ## Separated tokens -/

namespace Token

/-- The token is a lexeme at the end of a text, and no whitespace. -/
def Ends (operators : Operators) (t : Token) : Prop :=
  ∃ first tail, t = ⟨first :: tail, Kind.of first⟩ ∧ Unicode.isBlank first = false ∧
    IsLexeme operators (Kind.of first) (first :: tail) []

/-- The token is a lexeme in front of its separator, whatever comes then. -/
def Closed (operators : Operators) (t : Token) : Prop :=
  ∃ separator, SemiExpression.separatorAfter t = some separator ∧
    Unicode.isBlank separator = true ∧
    ∀ rest, IsLexeme operators t.kind t.text (separator :: rest)

theorem endsWithNewline_of_not_mem (h : '\n' ∉ t.text) : t.endsWithNewline = false := by
  rw [endsWithNewline, beq_eq_false_iff_ne]
  exact fun hlast => h (List.mem_of_getLast? hlast)

theorem endsWithNewline_append (body : Text) {last : Char} (h : last ≠ '\n') (kind : Kind) :
    endsWithNewline ⟨body ++ [last], kind⟩ = false := by
  simp [endsWithNewline, h]

theorem closed_of_blank (hlast : t.endsWithNewline = false) (hcomment : t.isLineComment = false)
    (h : ∀ rest, IsLexeme operators t.kind t.text (' ' :: rest)) : t.Closed operators := by
  refine ⟨' ', ?_, by decide, h⟩
  rw [SemiExpression.separatorAfter, hlast, hcomment]
  rfl

end Token

def Operators.AllPunctuation (operators : Operators) : Prop :=
  ∀ first second, operators.contains first second = true →
    Kind.of first = .punctuation ∧ Kind.of second = .punctuation

theorem Operators.allPunctuation_ofSettings {settings : ScanSettings} (h : settings.IsValid) :
    (ofSettings settings).AllPunctuation := by
  intro first second hpair
  rw [contains, ofSettings, List.contains_iff_mem, ScanSettings.pairs, List.mem_filterMap] at hpair
  obtain ⟨entry, hentry, hpair⟩ := hpair
  have hoperator := h entry hentry
  rw [ScanSettings.isOperator, hpair] at hoperator
  simpa using hoperator

theorem ne_newline_of_kind {c : Char} (h : Kind.of c = .punctuation) : c ≠ '\n' := by
  rintro rfl
  exact absurd h (by decide)

theorem not_mem_newline_of_wordParts {first : Char} {run : Text} (hfirst : Kind.of first = .word)
    (hrun : ∀ c ∈ run, isWordPart c = true) : '\n' ∉ first :: run := by
  rw [List.mem_cons, not_or]
  constructor
  · rintro rfl
    exact absurd hfirst (by decide)
  · intro hmem
    exact absurd (hrun _ hmem) (by decide)

/-- What is not whitespace and does not stand at the end of a text is closed. -/
theorem IsLexeme.closed (hoperators : operators.AllPunctuation)
    (h : IsLexeme operators t.kind t.text rest) (hfirst : ∀ c ∈ t.text.head?, Kind.of c = t.kind)
    (hkind : t.kind ≠ .whitespace) (hrest : rest ≠ []) : t.Closed operators := by
  obtain ⟨lexeme, kind⟩ := t
  cases h with
  | whitespace => exact absurd rfl hkind
  | @word first run _ hrun =>
    have hword : Kind.of first = .word := hfirst first rfl
    refine Token.closed_of_blank
      (Token.endsWithNewline_of_not_mem (not_mem_newline_of_wordParts hword hrun.1)) ?_
      fun rest => .word ⟨hrun.1, by simp; decide⟩
    rw [Token.isLineComment, List.isPrefixOf_cons_cons, Bool.and_eq_false_iff]
    refine Or.inl (beq_eq_false_iff_ne.mpr ?_)
    rintro rfl
    exact absurd hword (by decide)
  | @literal quote _ _ hquote hrun =>
    cases hrun with
    | unclosed => exact absurd rfl hrest
    | closed body hbody =>
      have hlast : quote ≠ '\n' := by rcases hquote with rfl | rfl <;> decide
      refine Token.closed_of_blank (Token.endsWithNewline_append (quote :: body) hlast _) ?_
        fun rest => .literal hquote (.closed body hbody)
      rcases hquote with rfl | rfl <;> rfl
  | @lineComment run _ hrun =>
    refine ⟨'\n', ?_, by decide, fun rest => .lineComment ⟨hrun.1, by simp; decide⟩⟩
    have hlast : Token.endsWithNewline ⟨'/' :: '/' :: run, .punctuation⟩ = false := by
      apply Token.endsWithNewline_of_not_mem
      simp only [List.mem_cons, not_or]
      refine ⟨by decide, by decide, fun hmem => ?_⟩
      exact absurd (hrun.1 _ hmem) (by decide)
    rw [SemiExpression.separatorAfter, hlast]
    rfl
  | @blockComment run _ hrun =>
    cases hrun with
    | unclosed => exact absurd rfl hrest
    | closed body hbody =>
      have hslash : '/' ≠ '\n' := by decide
      have hlast := Token.endsWithNewline_append ('/' :: '*' :: (body ++ ['*'])) hslash .punctuation
      rw [List.cons_append, List.cons_append, List.append_assoc] at hlast
      exact Token.closed_of_blank hlast rfl fun rest => .blockComment (.closed body hbody)
  | @operator first second _ hopens hpair =>
    have hfirst' := ne_newline_of_kind (hoperators _ _ hpair).1
    have hsecond := ne_newline_of_kind (hoperators _ _ hpair).2
    refine Token.closed_of_blank (Token.endsWithNewline_of_not_mem ?_) ?_
      fun rest => .operator hopens hpair
    · simp [hfirst'.symm, hsecond.symm]
    · -- two slashes would open a comment and be no operator
      by_contra hcomment
      rw [Bool.not_eq_false, Token.isLineComment, List.isPrefixOf_iff_prefix,
        List.cons_prefix_cons, List.cons_prefix_cons] at hcomment
      obtain ⟨rfl, rfl, -⟩ := hcomment
      exact hopens (Or.inr ⟨rfl, Or.inl rfl⟩)
  | @single first _ hopens hpair =>
    have hpunctuation : Kind.of first = .punctuation := hfirst first rfl
    refine Token.closed_of_blank (Token.endsWithNewline_of_not_mem ?_) ?_
      fun rest => .single ?_ ?_
    · simp [(ne_newline_of_kind hpunctuation).symm]
    · simp [Token.isLineComment, List.isPrefixOf]
    · rintro (hquote | ⟨-, hsecond⟩)
      · exact hopens (Or.inl hquote)
      · simp at hsecond
    · rintro second ⟨⟩
      by_contra hblank
      exact absurd (hoperators _ _ (by simpa using hblank)).2 (by decide)

theorem IsLexeme.ends {kind : Kind} {lexeme : Text} (h : IsLexeme operators kind lexeme rest) :
    IsLexeme operators kind lexeme [] := by
  cases h with
  | whitespace hrun => exact .whitespace ⟨hrun.1, by simp⟩
  | word hrun => exact .word ⟨hrun.1, by simp⟩
  | literal hquote hrun =>
    cases hrun with
    | closed body hbody => exact .literal hquote (.closed body hbody)
    | unclosed hbody => exact .literal hquote (.unclosed hbody)
  | lineComment hrun => exact .lineComment ⟨hrun.1, by simp⟩
  | blockComment hrun =>
    cases hrun with
    | closed body hbody => exact .blockComment (.closed body hbody)
    | unclosed hbody => exact .blockComment (.unclosed hbody)
  | operator hopens hpair => exact .operator hopens hpair
  | single hopens hpair =>
    refine .single ?_ (by simp)
    rintro (hquote | ⟨-, hsecond⟩)
    · exact hopens (Or.inl hquote)
    · simp at hsecond

/-! ## Lexemes that are no whitespace -/

theorem Kind.of_eq_whitespace_iff {c : Char} :
    Kind.of c = .whitespace ↔ Unicode.isBlank c = true := by
  unfold Kind.of
  split
  · simp_all
  · split <;> simp_all

theorem Token.Ends.isNewline (h : t.Ends operators) : t.isNewline = false := by
  obtain ⟨first, tail, rfl, hblank, -⟩ := h
  rw [Token.isNewline, beq_eq_false_iff_ne]
  rintro heq
  rw [(List.cons.inj heq).1] at hblank
  exact absurd hblank (by decide)

theorem Token.Ends.surfaced (h : t.Ends operators) (markers : Bool) :
    Tokenizer.surfaced markers t = some t := by
  obtain ⟨first, tail, rfl, hblank, -⟩ := h
  rw [Tokenizer.surfaced, Token.isWhitespace, List.head?_cons, Option.any_some, hblank]
  rfl

theorem Lexes.ends (h : Lexes operators tokens text) :
    ∀ t ∈ tokens.filter (fun t => !t.isWhitespace), t.Ends operators := by
  induction h with
  | nil => exact List.forall_mem_nil _
  | @cons first tail rest tokens hlexeme _ ih =>
    rw [List.filter_cons]
    split
    · rename_i hblank
      refine List.forall_mem_cons.mpr ⟨⟨first, tail, rfl, ?_, hlexeme.ends⟩, ih⟩
      simpa [Token.isWhitespace] using hblank
    · exact ih

theorem Lexes.rest_ne_nil (h : Lexes operators tokens text) (ht : t ∈ tokens) : text ≠ [] := by
  cases h with
  | nil => cases ht
  | cons hlexeme hrest => exact List.cons_ne_nil _ _

theorem Lexes.closed (hoperators : operators.AllPunctuation) (h : Lexes operators tokens text) :
    (tokens.filter fun t => !t.isWhitespace).Pairwise fun t _ => t.Closed operators := by
  induction h with
  | nil => exact .nil
  | @cons first tail rest tokens hlexeme hrest ih =>
    rw [List.filter_cons]
    split
    · rename_i hblank
      refine List.pairwise_cons.mpr ⟨fun u hu => ?_, ih⟩
      refine IsLexeme.closed hoperators hlexeme (by simp) ?_
        (hrest.rest_ne_nil (List.mem_filter.mp hu).1)
      simpa [Kind.of_eq_whitespace_iff, Token.isWhitespace] using hblank
    · exact ih

end SemiLex
