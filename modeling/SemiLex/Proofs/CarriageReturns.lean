import SemiLex.Proofs.Collecting
import SemiLex.Proofs.Lines
import SemiLex.Proofs.Separators

/-!
# Line breaks of two characters

With a carriage return in front of every line feed, a text is cut into the same tokens, on the same
lines, and only in literals and in block comments do the carriage returns show.  A carriage return
is whitespace like a line feed, it ends a line comment as well, and it is in no operator and no
word, so that each lexeme ends where it did.  To the grouping a token is the same with and without
carriage returns.
-/

namespace SemiLex

/-- The text with a carriage return in front of every line feed. -/
def crlf (text : Text) : Text :=
  text.flatMap fun c => if c = '\n' then ['\r', '\n'] else [c]

def Token.crlf (t : Token) : Token :=
  ⟨SemiLex.crlf t.text, t.kind⟩

/-- Markers are the same for both kinds of line breaks. -/
def Token.crlfUnlessNewline (t : Token) : Token :=
  if t.isNewline then t else t.crlf

variable {operators : Operators} {kind : Kind} {lexeme run rest text pattern : Text}
  {p : Char → Bool} {mark : Char} {lexemes : List Token}

/-! ## Texts -/

theorem crlf_newline_cons (text : Text) : crlf ('\n' :: text) = '\r' :: '\n' :: crlf text := rfl

theorem crlf_cons {c : Char} (h : c ≠ '\n') (text : Text) : crlf (c :: text) = c :: crlf text := by
  rw [crlf, List.flatMap_cons, if_neg h]
  rfl

theorem crlf_append (text more : Text) : crlf (text ++ more) = crlf text ++ crlf more :=
  List.flatMap_append

theorem mem_crlf_iff {c : Char} : c ∈ crlf text ↔ c ∈ text ∨ c = '\r' ∧ '\n' ∈ text := by
  induction text with
  | nil => simp [crlf]
  | cons first text ih =>
    by_cases hfirst : first = '\n'
    · subst hfirst
      simp only [crlf_newline_cons, List.mem_cons, ih, true_or, and_true]
      tauto
    · rw [crlf_cons hfirst, List.mem_cons, List.mem_cons, List.mem_cons, ih, or_assoc]
      simp [Ne.symm hfirst]

theorem count_newline_crlf (text : Text) : (crlf text).count '\n' = text.count '\n' := by
  induction text with
  | nil => rfl
  | cons c text ih =>
    by_cases hc : c = '\n'
    · subst hc
      rw [crlf_newline_cons, List.count_cons_of_ne (by decide), List.count_cons_self,
        List.count_cons_self, ih]
    · rw [crlf_cons hc, List.count_cons_of_ne hc, List.count_cons_of_ne hc, ih]

theorem head?_crlf (text : Text) :
    (crlf text).head? = text.head?.map fun c => if c = '\n' then '\r' else c := by
  cases text with
  | nil => rfl
  | cons c text =>
    by_cases hc : c = '\n'
    · subst hc
      rfl
    · rw [crlf_cons hc, List.head?_cons, List.head?_cons, Option.map_some, if_neg hc]

theorem head?_crlf_eq_some_iff {c : Char} (hreturn : c ≠ '\r') (hnewline : c ≠ '\n') :
    (crlf text).head? = some c ↔ text.head? = some c := by
  rw [head?_crlf, Option.map_eq_some_iff]
  constructor
  · rintro ⟨first, hfirst, rfl⟩
    split at hreturn
    · exact absurd rfl hreturn
    · rename_i hother
      rw [if_neg hother, hfirst]
  · intro hfirst
    exact ⟨c, hfirst, if_neg hnewline⟩

theorem forall_head?_crlf {q : Char → Prop} (hq : q '\n' → q '\r')
    (h : ∀ c ∈ text.head?, q c) : ∀ c ∈ (crlf text).head?, q c := by
  rw [head?_crlf]
  intro c hc
  obtain ⟨first, hfirst, rfl⟩ := Option.map_eq_some_iff.mp hc
  have hholds := h first hfirst
  split
  · rename_i hnewline
    rw [hnewline] at hholds
    exact hq hholds
  · exact hholds

theorem crlf_eq_self (h : '\n' ∉ text) : crlf text = text := by
  induction text with
  | nil => rfl
  | cons c text ih =>
    rw [List.mem_cons, not_or] at h
    rw [crlf_cons (Ne.symm h.1), ih h.2]

theorem crlf_eq_iff (hreturn : '\r' ∉ pattern) (hnewline : '\n' ∉ pattern) :
    crlf text = pattern ↔ text = pattern := by
  constructor
  · rintro rfl
    have hnone : '\n' ∉ text := fun hmem => hnewline (mem_crlf_iff.mpr (Or.inl hmem))
    exact (crlf_eq_self hnone).symm
  · rintro rfl
    exact crlf_eq_self hnewline

theorem isPrefix_crlf_iff (hreturn : '\r' ∉ pattern) (hnewline : '\n' ∉ pattern) :
    pattern <+: crlf text ↔ pattern <+: text := by
  induction pattern generalizing text with
  | nil => exact iff_of_true List.nil_prefix List.nil_prefix
  | cons c pattern ih =>
    rw [List.mem_cons, not_or] at hreturn hnewline
    cases text with
    | nil => rfl
    | cons first text =>
      by_cases hfirst : first = '\n'
      · subst hfirst
        rw [crlf_newline_cons, List.cons_prefix_cons, List.cons_prefix_cons]
        exact iff_of_false (fun h => hreturn.1 h.1.symm) (fun h => hnewline.1 h.1.symm)
      · rw [crlf_cons hfirst, List.cons_prefix_cons, List.cons_prefix_cons,
          ih hreturn.2 hnewline.2]

theorem commentClose_infix_of_crlf (h : commentClose <:+: crlf text) : commentClose <:+: text := by
  have hreturn : '\r' ∉ commentClose := by decide
  have hnewline : '\n' ∉ commentClose := by decide
  induction text with
  | nil => exact h
  | cons c text ih =>
    have hcons : commentClose <+: crlf (c :: text) ∨ commentClose <:+: crlf text := by
      by_cases hc : c = '\n'
      · subst hc
        rw [crlf_newline_cons] at h ⊢
        rcases List.infix_cons_iff.mp h with hstart | h
        · exact Or.inl hstart
        rcases List.infix_cons_iff.mp h with hstart | h
        · exact absurd hstart (by simp [commentClose])
        · exact Or.inr h
      · rw [crlf_cons hc] at h ⊢
        exact List.infix_cons_iff.mp h
    rw [isPrefix_crlf_iff hreturn hnewline] at hcons
    exact List.infix_cons_iff.mpr (hcons.imp_right ih)

/-! ## Lexemes -/

theorem RunsWhile.crlf (hp : p '\r' = p '\n') (h : RunsWhile p run rest) :
    RunsWhile p (crlf run) (crlf rest) := by
  refine ⟨fun c hc => ?_, ?_⟩
  · rcases mem_crlf_iff.mp hc with hmem | ⟨rfl, hmem⟩
    · exact h.1 c hmem
    · rw [hp]
      exact h.1 '\n' hmem
  · apply forall_head?_crlf _ h.2
    intro hnewline
    rw [hp, hnewline]

theorem not_mem_crlf (hmark : mark ≠ '\r') (h : mark ∉ text) : mark ∉ crlf text := by
  rw [mem_crlf_iff]
  rintro (hmem | ⟨hreturn, -⟩)
  · exact h hmem
  · exact hmark hreturn

theorem RunsThrough.crlf (hreturn : mark ≠ '\r') (hnewline : mark ≠ '\n')
    (h : RunsThrough mark run rest) : RunsThrough mark (crlf run) (crlf rest) := by
  cases h with
  | closed body hbody =>
    rw [crlf_append, crlf_cons hnewline]
    exact .closed _ (not_mem_crlf hreturn hbody)
  | unclosed hbody => exact .unclosed (not_mem_crlf hreturn hbody)

theorem RunsThroughClose.crlf (h : RunsThroughClose run rest) :
    RunsThroughClose (crlf run) (crlf rest) := by
  cases h with
  | closed body hbody =>
    rw [crlf_append]
    refine .closed _ fun hinfix => hbody (commentClose_infix_of_crlf ?_)
    rwa [crlf_append]
  | unclosed hbody => exact .unclosed fun hinfix => hbody (commentClose_infix_of_crlf hinfix)

theorem opens_crlf_iff {first : Char} :
    Opens first (crlf text).head? ↔ Opens first text.head? := by
  unfold Opens
  rw [head?_crlf_eq_some_iff (by decide) (by decide),
    head?_crlf_eq_some_iff (by decide) (by decide)]

theorem IsLexeme.crlf (hoperators : operators.AllPunctuation)
    (h : IsLexeme operators kind lexeme rest) (hfirst : ∀ c ∈ lexeme.head?, Kind.of c = kind) :
    IsLexeme operators kind (crlf lexeme) (crlf rest) := by
  cases h with
  | @whitespace first run _ hrun =>
    have hblanks := hrun.crlf (p := Unicode.isBlank) (by decide)
    by_cases hnewline : first = '\n'
    · subst hnewline
      rw [crlf_newline_cons]
      exact .whitespace ⟨List.forall_mem_cons.mpr ⟨by decide, hblanks.1⟩, hblanks.2⟩
    · rw [crlf_cons hnewline]
      exact .whitespace hblanks
  | @word first run _ hrun =>
    have hnewline : first ≠ '\n' := by
      rintro rfl
      exact absurd (hfirst '\n' rfl) (by decide)
    rw [crlf_cons hnewline]
    exact .word (hrun.crlf (by decide))
  | @literal quote run _ hquote hrun =>
    have hreturn : quote ≠ '\r' := by rcases hquote with rfl | rfl <;> decide
    have hnewline := ne_newline_of_kind (hfirst quote rfl)
    rw [crlf_cons hnewline]
    exact .literal hquote (hrun.crlf hreturn hnewline)
  | lineComment hrun =>
    rw [crlf_cons (by decide), crlf_cons (by decide)]
    exact .lineComment (hrun.crlf (by decide))
  | blockComment hrun =>
    rw [crlf_cons (by decide), crlf_cons (by decide)]
    exact .blockComment hrun.crlf
  | operator hopens hpair =>
    obtain ⟨hone, htwo⟩ := hoperators _ _ hpair
    rw [crlf_cons (ne_newline_of_kind hone), crlf_cons (ne_newline_of_kind htwo)]
    exact .operator hopens hpair
  | @single first rest hopens hpair =>
    rw [crlf_cons (ne_newline_of_kind (hfirst first rfl))]
    -- Where a line feed made no operator, the carriage return in front of it makes none either.
    have hreturn : operators.contains first '\r' = false := by
      rw [Bool.eq_false_iff]
      intro hpair'
      exact absurd (hoperators _ _ hpair').2 (by decide)
    exact .single (opens_crlf_iff.not.mpr hopens) (forall_head?_crlf (fun _ => hreturn) hpair)

theorem Lexes.crlf (hoperators : operators.AllPunctuation) (h : Lexes operators lexemes text) :
    Lexes operators (lexemes.map Token.crlf) (crlf text) := by
  induction h with
  | nil => exact .nil
  | @cons first tail rest lexemes hlexeme hrest ih =>
    have hlonger := hlexeme.crlf hoperators (by simp)
    have hkind : Kind.of (if first = '\n' then '\r' else first) = Kind.of first := by
      split
      · rename_i hnewline
        rw [hnewline]
        decide
      · rfl
    have hhead := head?_crlf (first :: tail)
    rw [← List.cons_append, crlf_append, List.map_cons, Token.crlf]
    generalize SemiLex.crlf (first :: tail) = longer at hlonger hhead
    obtain ⟨more, rfl⟩ := List.head?_eq_some_iff.mp hhead
    rw [← hkind] at hlonger ⊢
    exact .cons hlonger ih

/-! ## Tokens -/

open Tokenizer

theorem isNewline_crlf (t : Token) : t.crlf.isNewline = false := by
  rw [Token.isNewline, beq_eq_false_iff_ne]
  intro hnewline
  have hmem : '\n' ∈ t.text := by
    have hin : '\n' ∈ crlf t.text := by
      rw [show crlf t.text = ['\n'] from hnewline]
      exact List.mem_singleton_self _
    exact (mem_crlf_iff.mp hin).resolve_right fun h => absurd h.1 (by decide)
  have hreturn : '\r' ∈ crlf t.text := mem_crlf_iff.mpr (Or.inr ⟨rfl, hmem⟩)
  rw [show crlf t.text = ['\n'] from hnewline] at hreturn
  exact absurd hreturn (by decide)

theorem isWhitespace_crlf (t : Token) : t.crlf.isWhitespace = t.isWhitespace := by
  rw [Token.isWhitespace, Token.isWhitespace, Token.crlf, head?_crlf]
  cases t.text.head? with
  | none => rfl
  | some c =>
    rw [Option.map_some, Option.any_some, Option.any_some]
    split
    · rename_i hnewline
      rw [hnewline]
      decide
    · rfl

theorem recodes_crlf : Recodes Token.crlf Token.crlfUnlessNewline where
  count lexeme := count_newline_crlf lexeme.text
  surfaced markers lexeme := by
    have hcontains : lexeme.crlf.text.contains '\n' = lexeme.text.contains '\n' := by
      rw [Bool.eq_iff_iff, List.contains_iff_mem, List.contains_iff_mem, Token.crlf, mem_crlf_iff]
      simp
    rw [surfaced, surfaced, isWhitespace_crlf, hcontains]
    cases hblank : lexeme.isWhitespace with
    | false =>
      have hsolid := not_isNewline_of_not_isWhitespace hblank
      show some lexeme.crlf = some lexeme.crlfUnlessNewline
      rw [Token.crlfUnlessNewline, hsolid]
      rfl
    | true => cases markers && lexeme.text.contains '\n' <;> rfl

theorem Source.withoutMark_crlf (text : Text) :
    withoutMark (crlf text) = crlf (withoutMark text) := by
  cases text with
  | nil => rfl
  | cons c text =>
    by_cases hc : c = '\n'
    · subst hc
      rfl
    · rw [crlf_cons hc, withoutMark, withoutMark]
      split
      · rfl
      · rw [crlf_cons hc]

theorem Tokenizer.abreast_openText_crlf {settings : ScanSettings} (hvalid : settings.IsValid)
    (text : Text) :
    Abreast Token.crlf ((ofSettings settings).openText text).value
      ((ofSettings settings).openText (crlf text)).value := by
  obtain ⟨lexemes, hlexes⟩ := Tokenizer.exists_lexes (.ofSettings settings) text
  have hlexes' := hlexes.crlf (Operators.allPunctuation_ofSettings hvalid)
  have hwide := faces_openText (crlf text) (ofSettings settings)
  rw [Source.withoutMark_crlf, count_newline_crlf] at hwide
  have hfollows (text : Text) : ((ofSettings settings).openText text).value.Follows settings :=
    (follows_ofSettings settings).openText text
  refine ⟨?_, ?_, lexemes, _, _, _, faces_openText text _, hwide, ?_, ?_⟩
  · rw [(hfollows text).operators, (hfollows (crlf text)).operators]
  · rw [(hfollows text).returnNewlines, (hfollows (crlf text)).returnNewlines]
  · rwa [(hfollows text).operators]
  · rwa [(hfollows text).operators]

end SemiLex

/-! ## Groups -/

namespace SemiLex.Grouping

variable {f : Token → Token} {tokens : List Token}

/-- Of all that the grouping looks at in a token, `f` changes nothing. -/
structure Unnoticed (f : Token → Token) : Prop where
  isTerminator (t : Token) : isTerminator (f t) = isTerminator t
  isNewline (t : Token) : (f t).isNewline = t.isNewline
  isComment (t : Token) : (f t).isComment = t.isComment
  isHash (t : Token) : ((f t).text == ['#']) = (t.text == ['#'])
  isFor (t : Token) : ((f t).text == ['f', 'o', 'r']) = (t.text == ['f', 'o', 'r'])

theorem Unnoticed.ends (hf : Unnoticed f) (unit : List Token) (t : Token) :
    ends (unit.map f) (f t) = ends unit t := by
  have hdirective : isDirective (unit.map f) = isDirective unit := by
    cases unit with
    | nil => rfl
    | cons first unit => exact hf.isHash first
  rw [Grouping.ends, Grouping.ends, hf.isTerminator, hf.isNewline, hdirective]

theorem Unnoticed.added (hf : Unnoticed f) (keepMarkers : Bool) (unit : List Token) (t : Token) :
    added keepMarkers (unit.map f) (f t) = (added keepMarkers unit t).map f := by
  rw [Grouping.added, Grouping.added, hf.isNewline, List.isEmpty_map]
  split <;> rfl

theorem Unnoticed.units (hf : Unnoticed f) (keepMarkers : Bool) (unit tokens : List Token) :
    units keepMarkers (unit.map f) (tokens.map f) =
      (units keepMarkers unit tokens).map (List.map f) := by
  induction tokens generalizing unit with
  | nil => cases unit <;> rfl
  | cons t tokens ih =>
    rw [List.map_cons, units_cons, units_cons, hf.ends, hf.added, ← List.map_append]
    split
    · rw [List.map_cons, ← ih, List.map_nil]
    · exact ih _

theorem Unnoticed.containsFor (hf : Unnoticed f) (unit : List Token) :
    containsFor (unit.map f) = containsFor unit := by
  rw [Grouping.containsFor, Grouping.containsFor, List.any_map]
  exact congrArg unit.any (funext hf.isFor)

theorem Unnoticed.joined (hf : Unnoticed f) (parts : List (List Token)) :
    joined (parts.map (List.map f)) = (joined parts).map (List.map f) := by
  fun_induction Grouping.joined parts with
  | case1 => rw [List.map_nil, joined_nil]
  | case2 unit units hfor ih =>
    rw [List.map_cons, joined_cons, hf.containsFor, if_pos hfor, ← List.map_take, ← List.map_drop,
      ih, List.map_cons, List.map_append, List.map_flatten]
  | case3 unit units hfor ih =>
    rw [List.map_cons, joined_cons, hf.containsFor, if_neg hfor, ih, List.map_cons]

theorem Unnoticed.groups (hf : Unnoticed f) (settings : GroupSettings) (tokens : List Token) :
    groups settings (tokens.map f) = (groups settings tokens).map (List.map f) := by
  have hvisible : visible settings.discardComments (tokens.map f) =
      (visible settings.discardComments tokens).map f := by
    rw [visible, visible, List.filter_map]
    congr 2
    funext t
    rw [Function.comp_apply, hf.isComment]
  rw [Grouping.groups, Grouping.groups, unitsOf, unitsOf, hvisible, ← hf.joined]
  exact congrArg Grouping.joined (hf.units _ [] _)

theorem beq_text_crlfUnlessNewline {pattern : Text} (hreturn : '\r' ∉ pattern)
    (hnewline : '\n' ∉ pattern) (t : Token) :
    (t.crlfUnlessNewline.text == pattern) = (t.text == pattern) := by
  rw [Token.crlfUnlessNewline]
  split
  · rfl
  · rw [Bool.eq_iff_iff, beq_iff_eq, beq_iff_eq]
    exact crlf_eq_iff hreturn hnewline

theorem isPrefixOf_text_crlfUnlessNewline {pattern : Text} (hreturn : '\r' ∉ pattern)
    (hnewline : '\n' ∉ pattern) (t : Token) :
    pattern.isPrefixOf t.crlfUnlessNewline.text = pattern.isPrefixOf t.text := by
  rw [Token.crlfUnlessNewline]
  split
  · rfl
  · rw [Bool.eq_iff_iff, List.isPrefixOf_iff_prefix, List.isPrefixOf_iff_prefix]
    exact isPrefix_crlf_iff hreturn hnewline

theorem unnoticed_crlfUnlessNewline : Unnoticed Token.crlfUnlessNewline where
  isTerminator t := by
    rw [isTerminator, isTerminator, beq_text_crlfUnlessNewline (by decide) (by decide),
      beq_text_crlfUnlessNewline (by decide) (by decide),
      beq_text_crlfUnlessNewline (by decide) (by decide)]
  isNewline t := by
    rw [Token.crlfUnlessNewline]
    split
    · rfl
    · rename_i hnewline
      rw [isNewline_crlf, Bool.eq_false_iff.mpr hnewline]
  isComment t := by
    rw [Token.isComment, Token.isComment, Token.isLineComment, Token.isLineComment,
      isPrefixOf_text_crlfUnlessNewline (by decide) (by decide),
      isPrefixOf_text_crlfUnlessNewline (by decide) (by decide)]
  isHash := beq_text_crlfUnlessNewline (by decide) (by decide)
  isFor := beq_text_crlfUnlessNewline (by decide) (by decide)

end SemiLex.Grouping

namespace SemiLex.Collector

open Grouping Tokenizer

/-- Carriage returns in front of all line feeds make no difference, markers surfaced or not.  Call
after call, the tokenizer hands out the same token, on the same line, and is done as early, only
that the line breaks in a literal or a comment have their carriage returns.  So do those in the
tokens of the semi-expressions, which start and end where they did. -/
theorem openText_crlf_transparent {settings : Settings} (hvalid : settings.scanner.IsValid)
    (text : Text) :
    let narrow := ((Tokenizer.ofSettings settings.scanner).openText text).value
    let wide := ((Tokenizer.ofSettings settings.scanner).openText (crlf text)).value
    (wide.line = narrow.line ∧ wide.isDone = narrow.isDone) ∧
      (∀ n, (Tokenizer.call n wide).1 =
          (Tokenizer.call n narrow).1.map Token.crlfUnlessNewline ∧
        (Tokenizer.call n wide).2.line = (Tokenizer.call n narrow).2.line ∧
        (Tokenizer.call n wide).2.isDone = (Tokenizer.call n narrow).2.isDone) ∧
      collected settings (crlf text) =
        (collected settings text).map (List.map Token.crlfUnlessNewline) := by
  intro narrow wide
  have habreast : Abreast Token.crlf narrow wide := abreast_openText_crlf hvalid text
  refine ⟨⟨habreast.line recodes_crlf, habreast.isDone⟩, fun n => ?_, ?_⟩
  · obtain ⟨hanswer, hafter⟩ := habreast.call recodes_crlf n
    exact ⟨hanswer, hafter.line recodes_crlf, hafter.isDone⟩
  · obtain ⟨lexemes, hlexes⟩ := Tokenizer.exists_lexes (.ofSettings settings.scanner) text
    have hlexes' := hlexes.crlf (Operators.allPunctuation_ofSettings hvalid)
    rw [← Source.withoutMark_crlf] at hlexes'
    have hsurfaced : (lexemes.map Token.crlf).filterMap (surfaced true) =
        (lexemes.filterMap (surfaced true)).map Token.crlfUnlessNewline := by
      rw [List.filterMap_map, List.map_filterMap]
      exact congrArg (lexemes.filterMap ·) (funext (recodes_crlf.surfaced true))
    rw [collected_eq, collected_eq,
      tokensOf_eq { settings.scanner with returnNewlines := true } hlexes,
      tokensOf_eq { settings.scanner with returnNewlines := true } hlexes', hsurfaced]
    exact unnoticed_crlfUnlessNewline.groups settings.semi _

/-- Line breaks in a literal, behind and within comments, and at the end of a directive. -/
theorem openText_crlf_transparent_directive :
    let settings : Settings := ⟨.default, ⟨true, false, false, false⟩⟩
    let text := "#a \"b\n\" // c\n/*\n*/ d;".toList
    let narrow := ((Tokenizer.ofSettings settings.scanner).openText text).value
    let wide := ((Tokenizer.ofSettings settings.scanner).openText (crlf text)).value
    settings.scanner.IsValid ∧
      crlf text = "#a \"b\r\n\" // c\r\n/*\r\n*/ d;".toList ∧
      (Tokenizer.call 2 wide).1 = some (.ofText "\"b\r\n\"".toList) ∧
      (Tokenizer.call 2 wide).2.line = (Tokenizer.call 2 narrow).2.line ∧
      collected settings (crlf text) =
        [[.ofText ['#'], .ofText ['a'], .ofText "\"b\r\n\"".toList, .ofText "// c".toList,
          .newline], [.ofText "/*\r\n*/".toList, .ofText ['d'], .ofText [';']]] := by
  intro settings text narrow wide
  have hvalid : settings.scanner.IsValid := by decide
  obtain ⟨-, hcalls, hcollected⟩ := openText_crlf_transparent hvalid text
  refine ⟨hvalid, by decide +kernel, (hcalls 2).1.trans ?_, (hcalls 2).2.1, hcollected.trans ?_⟩
  · decide +kernel
  · decide +kernel

end SemiLex.Collector
