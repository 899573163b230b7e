import SemiLex.Lexeme

/-!
# The grammar of lexemes

What a lexeme is at the place where it stands: its characters and those that follow decide.  The
rules name no scan, and they leave no choice: a text is cut into lexemes in one way only.
-/

namespace SemiLex

/-! ## Runs -/

/-- `run` goes as far as its characters satisfy `p`. -/
def RunsWhile (p : Char → Bool) (run rest : Text) : Prop :=
  (∀ c ∈ run, p c = true) ∧ ∀ c ∈ rest.head?, p c = false

/-- `run` goes through the first `mark`, or to the end if there is none. -/
inductive RunsThrough (mark : Char) : Text → Text → Prop
  | closed (body : Text) {rest : Text} (h : mark ∉ body) : RunsThrough mark (body ++ [mark]) rest
  | unclosed {body : Text} (h : mark ∉ body) : RunsThrough mark body []

def commentClose : Text := ['*', '/']

/-- `run` goes through the first close of a block comment, or to the end if there is none. -/
inductive RunsThroughClose : Text → Text → Prop
  | closed (body : Text) {rest : Text} (h : ¬ commentClose <:+: body ++ ['*']) :
    RunsThroughClose (body ++ commentClose) rest
  | unclosed {body : Text} (h : ¬ commentClose <:+: body) : RunsThroughClose body []

variable {p : Char → Bool} {mark : Char} {run run' rest rest' : Text}

theorem RunsWhile.nil (h : ∀ c ∈ rest.head?, p c = false) : RunsWhile p [] rest :=
  ⟨List.forall_mem_nil _, h⟩

theorem RunsWhile.cons {c : Char} (hc : p c = true) (h : RunsWhile p run rest) :
    RunsWhile p (c :: run) rest :=
  ⟨List.forall_mem_cons.mpr ⟨hc, h.1⟩, h.2⟩

theorem RunsThrough.cons {c : Char} (hc : c ≠ mark) (h : RunsThrough mark run rest) :
    RunsThrough mark (c :: run) rest := by
  cases h with
  | closed body hbody =>
    exact .closed (c :: body) (List.not_mem_cons_of_ne_of_not_mem hc.symm hbody)
  | unclosed hbody => exact .unclosed (List.not_mem_cons_of_ne_of_not_mem hc.symm hbody)

theorem not_close_infix_concat {last : Char} (h : ¬ commentClose <:+: run) (hlast : last ≠ '/') :
    ¬ commentClose <:+: run ++ [last] := by
  rintro ⟨before, after, heq⟩
  rcases List.eq_nil_or_concat after with rfl | ⟨after, c, rfl⟩
  · rw [List.append_nil] at heq
    have hend := congrArg List.getLast? heq
    simp [commentClose] at hend
    exact hlast hend.symm
  · rw [List.concat_eq_append, ← List.append_assoc] at heq
    exact h ⟨before, after, (List.append_inj' heq rfl).1⟩

theorem RunsThroughClose.cons {c : Char} (hc : ¬ (c = '*' ∧ (run ++ rest).head? = some '/'))
    (h : RunsThroughClose run rest) : RunsThroughClose (c :: run) rest := by
  cases h with
  | closed body hbody =>
    refine .closed (c :: body) fun hinfix => ?_
    rcases List.infix_cons_iff.mp hinfix with hprefix | hinfix
    · obtain ⟨rfl, after, hafter⟩ := List.cons_prefix_cons.mp hprefix
      cases body with
      | nil => simp at hafter
      | cons d body => exact hc ⟨rfl, congrArg some (List.cons.inj hafter).1.symm⟩
    · exact hbody hinfix
  | unclosed hbody =>
    refine .unclosed fun hinfix => ?_
    rcases List.infix_cons_iff.mp hinfix with hprefix | hinfix
    · obtain ⟨rfl, after, rfl⟩ := List.cons_prefix_cons.mp hprefix
      exact hc ⟨rfl, rfl⟩
    · exact hbody hinfix

theorem RunsWhile.takeWhile_append (h : RunsWhile p run rest) :
    (run ++ rest).takeWhile p = run := by
  rw [List.takeWhile_append_of_pos h.1]
  cases rest with
  | nil => simp
  | cons c rest => simp [h.2 c rfl]

theorem RunsWhile.unique (h : RunsWhile p run rest) (h' : RunsWhile p run' rest')
    (heq : run ++ rest = run' ++ rest') : run = run' := by
  rw [← h.takeWhile_append, heq, h'.takeWhile_append]

theorem runsWhile_ne_of_not_mem (h : mark ∉ run) (hrest : ∀ c ∈ rest.head?, c = mark) :
    RunsWhile (· != mark) run rest := by
  refine ⟨fun c hc => ?_, fun c hc => ?_⟩
  · simp only [bne_iff_ne, ne_eq]
    rintro rfl
    exact h hc
  · simp [hrest c hc]

theorem RunsThrough.unique (h : RunsThrough mark run rest) (h' : RunsThrough mark run' rest')
    (heq : run ++ rest = run' ++ rest') : run = run' := by
  cases h with
  | closed body hbody =>
    have hruns : RunsWhile (· != mark) body (mark :: rest) :=
      runsWhile_ne_of_not_mem hbody (by simp)
    cases h' with
    | closed body' hbody' =>
      have hruns' : RunsWhile (· != mark) body' (mark :: rest') :=
        runsWhile_ne_of_not_mem hbody' (by simp)
      rw [hruns.unique hruns' (by simpa using heq)]
    | unclosed hbody' =>
      rw [List.append_nil] at heq
      exact absurd (by rw [← heq]; simp) hbody'
  | unclosed hbody =>
    rw [List.append_nil] at heq
    cases h' with
    | closed _ hbody' => exact absurd (by rw [heq]; simp) hbody
    | unclosed hbody' => rw [heq, List.append_nil]

/-- Two closes of one comment: the one that is not seen up to its asterisk is not behind the
other. -/
theorem length_le_of_close {body body' : Text} (h' : ¬ commentClose <:+: body' ++ ['*'])
    (heq : body ++ commentClose ++ rest = body' ++ commentClose ++ rest') :
    body'.length ≤ body.length := by
  refine Nat.le_of_not_lt fun hlt => h' ?_
  have hprefix : body ++ commentClose <+: body' ++ ['*'] := by
    refine List.prefix_of_prefix_length_le (List.prefix_append _ rest) ?_ ?_
    · rw [heq]
      exact ⟨'/' :: rest', by simp [commentClose]⟩
    · simp only [List.length_append, List.length_cons, List.length_nil, commentClose]
      omega
  exact (List.suffix_append _ _).isInfix.trans hprefix.isInfix

theorem RunsThroughClose.unique (h : RunsThroughClose run rest)
    (h' : RunsThroughClose run' rest') (heq : run ++ rest = run' ++ rest') : run = run' := by
  cases h with
  | closed _ hbody =>
    cases h' with
    | closed _ hbody' =>
      have hle := length_le_of_close hbody' heq
      have hge := length_le_of_close hbody heq.symm
      rw [List.append_assoc, List.append_assoc] at heq
      rw [(List.append_inj heq (Nat.le_antisymm hge hle)).1]
    | unclosed hbody' =>
      rw [List.append_nil] at heq
      exact absurd ⟨_, rest, heq⟩ hbody'
  | unclosed hbody =>
    rw [List.append_nil] at heq
    cases h' with
    | closed _ hbody' => exact absurd ⟨_, rest', heq.symm⟩ hbody
    | unclosed hbody' => rw [heq, List.append_nil]

/-! ## Lexemes -/

def IsQuote (c : Char) : Prop :=
  c = '"' ∨ c = '\''

/-- Whether `first`, with `second` after it, opens a literal or a comment. -/
def Opens (first : Char) (second : Option Char) : Prop :=
  IsQuote first ∨ first = '/' ∧ (second = some '/' ∨ second = some '*')

/-- `lexeme` is the lexeme of this kind where `lexeme ++ rest` is left.  Its first character may
be any, as in a scan that is forced into the kind. -/
inductive IsLexeme (operators : Operators) : Kind → Text → Text → Prop
  | whitespace {first : Char} {run rest : Text} (h : RunsWhile Unicode.isBlank run rest) :
    IsLexeme operators .whitespace (first :: run) rest
  | word {first : Char} {run rest : Text} (h : RunsWhile isWordPart run rest) :
    IsLexeme operators .word (first :: run) rest
  | literal {quote : Char} {run rest : Text} (hquote : IsQuote quote)
    (h : RunsThrough quote run rest) : IsLexeme operators .punctuation (quote :: run) rest
  | lineComment {run rest : Text} (h : RunsWhile (fun c => !isLineBreak c) run rest) :
    IsLexeme operators .punctuation ('/' :: '/' :: run) rest
  | blockComment {run rest : Text} (h : RunsThroughClose run rest) :
    IsLexeme operators .punctuation ('/' :: '*' :: run) rest
  | operator {first second : Char} {rest : Text} (hopens : ¬ Opens first (some second))
    (h : operators.contains first second = true) :
    IsLexeme operators .punctuation [first, second] rest
  | single {first : Char} {rest : Text} (hopens : ¬ Opens first rest.head?)
    (h : ∀ second ∈ rest.head?, operators.contains first second = false) :
    IsLexeme operators .punctuation [first] rest

variable {operators : Operators} {kind : Kind} {lexeme lexeme' text : Text}

theorem IsLexeme.unique (h : IsLexeme operators kind lexeme rest)
    (h' : IsLexeme operators kind lexeme' rest') (heq : lexeme ++ rest = lexeme' ++ rest') :
    lexeme = lexeme' ∧ rest = rest' := by
  suffices hsame : lexeme = lexeme' by
    subst hsame
    exact ⟨rfl, List.append_cancel_left heq⟩
  cases h with
  | whitespace hrun =>
    cases h' with
    | whitespace hrun' =>
      obtain ⟨rfl, htail⟩ := List.cons.inj heq
      rw [hrun.unique hrun' htail]
  | word hrun =>
    cases h' with
    | word hrun' =>
      obtain ⟨rfl, htail⟩ := List.cons.inj heq
      rw [hrun.unique hrun' htail]
  | literal hquote hrun =>
    cases h' with
    | literal hquote' hrun' =>
      obtain ⟨rfl, htail⟩ := List.cons.inj heq
      rw [hrun.unique hrun' htail]
    | lineComment => grind [IsQuote]
    | blockComment => grind [IsQuote]
    | operator => grind [Opens]
    | single => grind [Opens]
  | lineComment hrun =>
    cases h' with
    | lineComment hrun' => rw [hrun.unique hrun' (by simpa using heq)]
    | literal => grind [IsQuote]
    | blockComment => grind
    | operator => grind [Opens]
    | single => grind [Opens]
  | blockComment hrun =>
    cases h' with
    | blockComment hrun' => rw [hrun.unique hrun' (by simpa using heq)]
    | literal => grind [IsQuote]
    | lineComment => grind
    | operator => grind [Opens]
    | single => grind [Opens]
  | operator hopens hpair =>
    cases h' with
    | operator => grind
    | single => grind
    | literal => grind [Opens]
    | lineComment => grind [Opens]
    | blockComment => grind [Opens]
  | single hopens hpair =>
    cases h' with
    | single => grind
    | operator => grind
    | literal => grind [Opens]
    | lineComment => grind [Opens]
    | blockComment => grind [Opens]

/-! ## Texts -/

/-- The text is cut into the lexemes of these tokens, each of the kind that its first character
has. -/
inductive Lexes (operators : Operators) : List Token → Text → Prop
  | nil : Lexes operators [] []
  | cons {first : Char} {tail rest : Text} {tokens : List Token}
    (h : IsLexeme operators (Kind.of first) (first :: tail) rest)
    (hrest : Lexes operators tokens rest) :
    Lexes operators (⟨first :: tail, Kind.of first⟩ :: tokens) (first :: (tail ++ rest))

variable {tokens tokens' : List Token}

theorem Lexes.unique (h : Lexes operators tokens text) (h' : Lexes operators tokens' text) :
    tokens = tokens' := by
  induction h generalizing tokens' with
  | nil =>
    cases h'
    rfl
  | @cons first tail rest tokens hlexeme _ ih =>
    generalize htext : first :: (tail ++ rest) = text at h'
    cases h' with
    | nil => cases htext
    | @cons first' tail' rest' tokens' hlexeme' hrest' =>
      obtain ⟨rfl, -⟩ := List.cons.inj htext
      obtain ⟨hsame, rfl⟩ := hlexeme.unique hlexeme' htext
      rw [hsame, ih hrest']

theorem Lexes.flatten (h : Lexes operators tokens text) :
    (tokens.map Token.text).flatten = text := by
  induction h with
  | nil => rfl
  | cons hlexeme _ ih => rw [List.map_cons, List.flatten_cons, ih, List.cons_append]

theorem Lexes.eq_ofText (h : Lexes operators tokens text) :
    ∀ token ∈ tokens, token.text ≠ [] ∧ token = Token.ofText token.text := by
  induction h with
  | nil => exact List.forall_mem_nil _
  | cons hlexeme _ ih => exact List.forall_mem_cons.mpr ⟨⟨List.cons_ne_nil _ _, rfl⟩, ih⟩

end SemiLex
