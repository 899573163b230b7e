import SemiLex.Proofs.Lexing

/-!
# Where literals and comments stand

Two tables of operators cut the code between literals and comments in different ways.  Still, where
no operator takes a quote or a slash as its second character, each quote and each slash in the code
begins a lexeme.  So the code might as well be read one character after the other, without any
table, and the literals and comments, which are taken whole, stand in the same places.
-/

namespace SemiLex

/-! ## Openings -/

instance (c : Char) : Decidable (IsQuote c) :=
  inferInstanceAs (Decidable (c = '"' ∨ c = '\''))

instance (first : Char) (second : Option Char) : Decidable (Opens first second) :=
  inferInstanceAs
    (Decidable (IsQuote first ∨ first = '/' ∧ (second = some '/' ∨ second = some '*')))

def IsOpener (c : Char) : Prop :=
  IsQuote c ∨ c = '/'

instance (c : Char) : Decidable (IsOpener c) :=
  inferInstanceAs (Decidable (IsQuote c ∨ c = '/'))

namespace Operators

/-- No operator takes what begins a literal or a comment as its second character. -/
def SparesOpeners (operators : Operators) : Prop :=
  ∀ pair ∈ operators.pairs, ¬ IsOpener pair.2

instance (operators : Operators) : Decidable operators.SparesOpeners :=
  inferInstanceAs (Decidable (∀ pair ∈ operators.pairs, ¬ IsOpener pair.2))

/-- The operators that do not open a literal or a comment. -/
def withoutOpenings (operators : Operators) : Operators :=
  ⟨operators.pairs.filter fun pair => !decide (Opens pair.1 (some pair.2))⟩

end Operators

variable {operators other : Operators} {tokens : List Token} {found found' : List (Nat × Token)}
  {first c : Char} {second : Option Char} {tail run rest text : Text} {place : Nat}

theorem Opens.isOpener (h : Opens first second) : IsOpener first := by
  rcases h with hquote | ⟨hslash, -⟩
  · exact Or.inl hquote
  · exact Or.inr hslash

theorem IsOpener.eq_or (h : IsOpener c) : c = '"' ∨ c = '\'' ∨ c = '/' := by
  rcases h with (h | h) | h
  · exact Or.inl h
  · exact Or.inr (Or.inl h)
  · exact Or.inr (Or.inr h)

theorem IsOpener.kind (h : IsOpener c) : Kind.of c = .punctuation := by
  rcases h.eq_or with rfl | rfl | rfl <;> decide

theorem not_isOpener_of_isBlank (h : Unicode.isBlank c = true) : ¬ IsOpener c := by
  intro hopener
  rcases hopener.eq_or with rfl | rfl | rfl <;> exact absurd h (by decide)

theorem not_isOpener_of_isWordPart (h : isWordPart c = true) : ¬ IsOpener c := by
  intro hopener
  rcases hopener.eq_or with rfl | rfl | rfl <;> exact absurd h (by decide)

/-! ## Lexemes that open, and lexemes of code -/

theorem IsLexeme.of_opens (h : IsLexeme operators .punctuation (first :: tail) rest)
    (hopens : Opens first (tail ++ rest).head?) :
    IsLexeme other .punctuation (first :: tail) rest := by
  cases h with
  | literal hquote hrun => exact .literal hquote hrun
  | lineComment hrun => exact .lineComment hrun
  | blockComment hrun => exact .blockComment hrun
  | operator hnot hpair => exact absurd hopens hnot
  | single hnot hpair => exact absurd hopens hnot

theorem IsLexeme.not_isOpener_of_mem (hspares : operators.SparesOpeners)
    (h : IsLexeme operators (Kind.of first) (first :: tail) rest)
    (hopens : ¬ Opens first (tail ++ rest).head?) : ∀ c ∈ tail, ¬ IsOpener c := by
  generalize Kind.of first = kind at h
  intro c hc
  cases h with
  | whitespace hrun => exact not_isOpener_of_isBlank (hrun.1 c hc)
  | word hrun => exact not_isOpener_of_isWordPart (hrun.1 c hc)
  | literal hquote hrun => exact absurd (Or.inl hquote) hopens
  | lineComment hrun => exact absurd (Or.inr ⟨rfl, Or.inl rfl⟩) hopens
  | blockComment hrun => exact absurd (Or.inr ⟨rfl, Or.inr rfl⟩) hopens
  | operator hnot hpair =>
    obtain rfl := List.mem_singleton.mp hc
    rw [Operators.contains, List.contains_iff_mem] at hpair
    exact hspares _ hpair
  | single hnot hpair => cases hc

def Token.isLiteral (t : Token) : Bool :=
  t.text.head?.any fun c => decide (IsQuote c)

theorem IsLexeme.isLiteral_or_isComment_iff
    (h : IsLexeme operators (Kind.of first) (first :: tail) rest) :
    ((⟨first :: tail, Kind.of first⟩ : Token).isLiteral ||
        (⟨first :: tail, Kind.of first⟩ : Token).isComment) = true ↔
      Opens first (tail ++ rest).head? := by
  have hliteral : (⟨first :: tail, Kind.of first⟩ : Token).isLiteral = true ↔ IsQuote first := by
    simp [Token.isLiteral]
  have hcomment : (⟨first :: tail, Kind.of first⟩ : Token).isComment = true ↔
      first = '/' ∧ (tail.head? = some '/' ∨ tail.head? = some '*') := by
    cases tail <;> grind [Token.isComment, Token.isLineComment]
  rw [Bool.or_eq_true, hliteral, hcomment, Opens]
  refine or_congr_right (and_congr_right ?_)
  rintro rfl
  cases tail with
  | cons c tail => rfl
  | nil =>
    -- a slash alone has no second slash and no asterisk behind it
    have hslash : Kind.of '/' = .punctuation := by decide
    rw [hslash] at h
    cases h with
    | literal hquote hrun => exact absurd hquote (by decide)
    | single hopens hpair =>
      rw [Opens, not_or, not_and] at hopens
      simpa using hopens.2 rfl

/-! ## Reading without a table -/

/-- The literals and comments among lexemes, each with the place where it begins. -/
def passagesFrom (place : Nat) : List Token → List (Nat × Token)
  | [] => []
  | t :: tokens =>
    let others := passagesFrom (place + t.text.length) tokens
    if t.isLiteral || t.isComment then (place, t) :: others else others

/-- A text that begins at `place`, read one character after the other, has these literals and
comments.  They are taken whole, and no operator is. -/
inductive Passages : Nat → Text → List (Nat × Token) → Prop
  | nil {place : Nat} : Passages place [] []
  | skip {place : Nat} {c : Char} {rest : Text} {found : List (Nat × Token)}
    (hopens : ¬ Opens c rest.head?) (h : Passages (place + 1) rest found) :
    Passages place (c :: rest) found
  | take {place : Nat} {first : Char} {tail rest : Text} {found : List (Nat × Token)}
    (hopens : Opens first (tail ++ rest).head?)
    (hlexeme : IsLexeme ⟨[]⟩ .punctuation (first :: tail) rest)
    (h : Passages (place + (first :: tail).length) rest found) :
    Passages place (first :: (tail ++ rest)) ((place, ⟨first :: tail, .punctuation⟩) :: found)

theorem Passages.unique (h : Passages place text found) (h' : Passages place text found') :
    found = found' := by
  induction h generalizing found' with
  | nil =>
    cases h'
    rfl
  | skip hopens _ ih =>
    cases h' with
    | skip _ h' => exact ih h'
    | take hopens' => exact absurd hopens' hopens
  | @take place first tail rest found hopens hlexeme _ ih =>
    generalize htext : first :: (tail ++ rest) = text at h'
    cases h' with
    | nil => cases htext
    | skip hopens' =>
      cases htext
      exact absurd hopens hopens'
    | take _ hlexeme' h' =>
      obtain ⟨rfl, -⟩ := List.cons.inj htext
      obtain ⟨hsame, rfl⟩ := hlexeme.unique hlexeme' htext
      obtain ⟨-, rfl⟩ := List.cons.inj hsame
      rw [ih h']

theorem Passages.skip_run (hrun : ∀ c ∈ run, ¬ IsOpener c)
    (h : Passages (place + run.length) rest found) : Passages place (run ++ rest) found := by
  induction run generalizing place with
  | nil => exact h
  | cons c run ih =>
    obtain ⟨hc, hrun⟩ := List.forall_mem_cons.mp hrun
    refine .skip (fun hopens => hc hopens.isOpener) (ih hrun ?_)
    rwa [List.length_cons, Nat.add_comm run.length, ← Nat.add_assoc] at h

/-- Whatever its operators join, a table that spares the openers leaves the literals and comments
where they are found without it. -/
theorem Lexes.passages (hspares : operators.SparesOpeners) (h : Lexes operators tokens text) :
    Passages place text (passagesFrom place tokens) := by
  induction h generalizing place with
  | nil => exact .nil
  | @cons first tail rest tokens hlexeme _ ih =>
    have hiff := hlexeme.isLiteral_or_isComment_iff
    unfold passagesFrom
    by_cases hopens : Opens first (tail ++ rest).head?
    · have hkind := hopens.isOpener.kind
      rw [hkind] at hiff hlexeme ⊢
      simp only [if_pos (hiff.mpr hopens)]
      exact .take hopens (hlexeme.of_opens hopens) ih
    · simp only [if_neg (mt hiff.mp hopens)]
      refine .skip hopens (.skip_run (hlexeme.not_isOpener_of_mem hspares hopens) ?_)
      have hplace : place + 1 + tail.length = place + (first :: tail).length := by
        rw [List.length_cons]
        omega
      rw [hplace]
      exact ih

/-! ## Pairs that never match -/

def Operators.AgreeInCode (operators other : Operators) : Prop :=
  ∀ first second, ¬ Opens first (some second) →
    operators.contains first second = other.contains first second

theorem Operators.agreeInCode_withoutOpenings (operators : Operators) :
    operators.withoutOpenings.AgreeInCode operators := by
  intro first second hopens
  rw [Bool.eq_iff_iff, contains, contains, List.contains_iff_mem, List.contains_iff_mem,
    withoutOpenings, List.mem_filter]
  simp [hopens]

namespace Source

theorem takePunctuationRest_congr (h : operators.AgreeInCode other) (first : Char) (s : Source) :
    s.takePunctuationRest operators first = s.takePunctuationRest other first := by
  unfold takePunctuationRest
  refine bind_congr fun ⟨second, s⟩ => ?_
  dsimp only
  split
  · rfl
  · rename_i hquote
    split
    · rfl
    · rename_i hline
      split
      · rfl
      · rename_i hblock
        cases second with
        | none => rfl
        | some second =>
          have hopens : ¬ Opens first (some second) := by
            rintro (hquote' | ⟨hslash, hline' | hblock'⟩)
            · exact hquote hquote'
            · exact hline ⟨hslash, hline'⟩
            · exact hblock ⟨hslash, hblock'⟩
          simp only [h first second hopens]

theorem extractAs_congr (h : operators.AgreeInCode other) (kind : Kind) (s : Source) :
    s.extractAs operators kind = s.extractAs other kind := by
  have hrest (first : Char) (s : Source) :
      s.takeRest operators kind first = s.takeRest other kind first := by
    cases kind with
    | whitespace => rfl
    | word => rfl
    | punctuation => exact takePunctuationRest_congr h first s
  simp only [extractAs, hrest]

theorem extract_congr (h : operators.AgreeInCode other) (phase : Phase) (s : Source) :
    s.extract operators phase = s.extract other phase := by
  cases phase with
  | extracting kind => exact extractAs_congr h kind s
  | dispatch => simp only [extract, extractAs_congr h]

theorem lexemes_congr (h : operators.AgreeInCode other) (s : Source) :
    s.lexemes operators = s.lexemes other := by
  rw [lexemes_eq, lexemes_eq other, ← extract_congr h]
  rcases hextract : s.extract operators .dispatch with ⟨⟨_ | token, t⟩, log⟩
  · rfl
  · have hlt : t.size < s.size := size_extract_lt (congrArg Logged.value hextract)
    have hrest := lexemes_congr h t
    apply Logged.ext
    · simp only [Logged.value_bind, hrest]
    · simp only [Logged.log_bind, hrest]
termination_by s.size

/-! ## The literals and comments of a text -/

/-- The literals and comments that are extracted from a text, each with its place behind a byte
order mark. -/
def passages (operators : Operators) (text : Text) : List (Nat × Token) :=
  passagesFrom 0 (ofText text >>= lexemes operators).value.1

/-- Operators cannot move literals and comments: where they spare what may open one, any two tables
leave the same ones in the same places of every text, and the default table is of this kind.  The
pairs that would open a literal or a comment never match, so that a table without them extracts the
same, from any source and in any phase. -/
theorem passages_eq_of_sparesOpeners :
    (∀ operators other : Operators, operators.SparesOpeners → other.SparesOpeners → ∀ text,
      passages operators text = passages other text) ∧
    (default : Operators).SparesOpeners ∧
    ∀ operators : Operators,
      (∀ phase (s : Source),
        s.extract operators.withoutOpenings phase = s.extract operators phase) ∧
      ∀ s : Source, s.lexemes operators.withoutOpenings = s.lexemes operators := by
  refine ⟨fun operators other hspares hspares' text => ?_, by decide, fun operators => ?_⟩
  · obtain ⟨tokens, s, hrun, hlexes, -⟩ := (holds_ofText text).lexemes operators
    obtain ⟨tokens', s', hrun', hlexes', -⟩ := (holds_ofText text).lexemes other
    simp only [passages, Logged.value_bind, hrun, hrun']
    exact (hlexes.passages hspares).unique (hlexes'.passages hspares')
  · have hagree := operators.agreeInCode_withoutOpenings
    exact ⟨fun phase s => extract_congr hagree phase s, lexemes_congr hagree⟩

/-- Operators that take a blank and a letter, and one that takes an asterisk from what then is no
close of a comment. -/
theorem passages_eq_of_sparesOpeners_joined :
    let other : Operators := ⟨[('+', ' '), ('-', 'x'), ('*', '*')]⟩
    let text := "+ 'a'-x/**/ **/ b // \"c".toList
    (default : Operators).SparesOpeners ∧ other.SparesOpeners ∧
      passages default text = passages other text ∧
      passages other text = [(2, .ofText "'a'".toList), (7, .ofText "/**/".toList),
        (18, .ofText "// \"c".toList)] ∧
      (ofText text >>= lexemes default).value.1 ≠ (ofText text >>= lexemes other).value.1 := by
  intro other text
  have hdefault : (default : Operators).SparesOpeners := by decide
  have hother : other.SparesOpeners := by decide
  have hsame := passages_eq_of_sparesOpeners.1 default other hdefault hother text
  exact ⟨hdefault, hother, hsame, by decide +kernel, by decide +kernel⟩

/-- An operator that takes a quote moves a literal. -/
example : passages ⟨[('+', '\'')]⟩ "+'a'".toList = [(3, .ofText ['\''])] ∧
    passages default "+'a'".toList = [(1, .ofText "'a'".toList)] := by
  decide +kernel

end Source

end SemiLex
