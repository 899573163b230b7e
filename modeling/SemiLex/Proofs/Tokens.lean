import SemiLex.Proofs.Lexing
import SemiLex.Tokenizer

/-!
# The tokens that a tokenizer supplies

A tokenizer in front of a text supplies the lexemes of the text, without the whitespace, or with
a marker in the place of whitespace that breaks a line.  It is done when nothing is left to look
at, and then it supplies nothing ever after.
-/

namespace SemiLex.Tokenizer

variable {t u : Tokenizer} {text : Text} {last : Nat} {lexemes tokens : List Token}
  {operators : Operators}

/-- What comes out for a lexeme: itself, or a marker or nothing for whitespace. -/
def surfaced (markers : Bool) (lexeme : Token) : Option Token :=
  if !lexeme.isWhitespace then some lexeme
  else if markers && lexeme.text.contains '\n' then some .newline
  else none

/-- The tokenizer is in front of this text, in the phase that its first character asks for. -/
structure Faces (t : Tokenizer) (text : Text) (last : Nat) : Prop where
  source : t.source.Holds text last
  phase : t.phase = text.head?.map fun c => .extracting (Kind.of c)

/-- The tokens that are left. -/
def Supplies (t : Tokenizer) (tokens : List Token) : Prop :=
  ∃ text last lexemes, t.Faces text last ∧ Lexes t.operators lexemes text ∧
    lexemes.filterMap (surfaced t.returnNewlines) = tokens

/-! ## One token -/

theorem faces_dispatch (h : t.source.Holds text last) : t.dispatch.value.Faces text last where
  source := h.peek_zero.2
  phase := congrArg (Option.map fun c => Phase.extracting (Kind.of c)) h.peek_zero.1

theorem Faces.isDone (h : t.Faces [] last) : t.isDone = true := by
  rw [Tokenizer.isDone, h.phase]
  rfl

theorem Faces.next_nil (h : t.Faces [] last) : t.next.value = (none, t) := by
  rw [next_eq, h.phase]
  rfl

theorem Faces.next_cons {first : Char} {tail rest : Text}
    (h : t.Faces (first :: (tail ++ rest)) last)
    (hlexeme : IsLexeme t.operators (Kind.of first) (first :: tail) rest) :
    ∃ u, u.Faces rest last ∧ u.operators = t.operators ∧ u.returnNewlines = t.returnNewlines ∧
      t.next.value = match surfaced t.returnNewlines ⟨first :: tail, Kind.of first⟩ with
        | some token => (some token, u)
        | none => u.next.value := by
  obtain ⟨tail', rest', source, hextract, hsplit, hlexeme', hsource⟩ :=
    h.source.extract_cons t.operators (.extracting (Kind.of first))
  obtain ⟨hsame, rfl⟩ := hlexeme.unique hlexeme' (congrArg (first :: ·) hsplit.symm)
  obtain ⟨-, rfl⟩ := List.cons.inj hsame
  obtain ⟨u, hdispatch, hfaces, hoperators, hmarkers⟩ : ∃ u,
      (dispatch { t with source, phase := some (.extracting (Kind.of first)) }).value = u ∧
        u.Faces rest last ∧ u.operators = t.operators ∧ u.returnNewlines = t.returnNewlines :=
    ⟨_, rfl, faces_dispatch hsource, rfl, rfl⟩
  refine ⟨u, hfaces, hoperators, hmarkers, ?_⟩
  rw [next_eq, h.phase, List.head?_cons, Option.map_some]
  simp only [Logged.value_bind, hextract, Source.kindIn, hdispatch, hmarkers, surfaced]
  cases (⟨first :: tail, Kind.of first⟩ : Token).isWhitespace with
  | false => rfl
  | true => cases t.returnNewlines && (first :: tail).contains '\n' <;> rfl

theorem Faces.next (h : t.Faces text last) (hlexes : Lexes t.operators lexemes text)
    (htokens : lexemes.filterMap (surfaced t.returnNewlines) = tokens) :
    ∃ u, t.next.value = (tokens.head?, u) ∧ u.Supplies tokens.tail ∧
      (tokens = [] → u.isDone = true) := by
  generalize hoperators : t.operators = operators at hlexes
  induction hlexes generalizing t with
  | nil =>
    subst htokens
    exact ⟨t, h.next_nil, ⟨[], last, [], h, .nil, rfl⟩, fun _ => h.isDone⟩
  | @cons first tail rest lexemes hlexeme hrest ih =>
    subst hoperators
    obtain ⟨u, hu, hoperators, hmarkers, hnext⟩ := h.next_cons hlexeme
    rw [List.filterMap_cons] at htokens
    cases hsurfaced : surfaced t.returnNewlines ⟨first :: tail, Kind.of first⟩ with
    | some token =>
      rw [hsurfaced] at hnext htokens
      subst htokens
      refine ⟨u, hnext, ⟨rest, last, lexemes, hu, ?_, ?_⟩, nofun⟩
      · rwa [hoperators]
      · rw [hmarkers]
        rfl
    | none =>
      rw [hsurfaced] at hnext htokens
      rw [hnext]
      exact ih hu (by rwa [hmarkers]) hoperators

theorem Supplies.next (h : t.Supplies tokens) :
    ∃ u, t.next.value = (tokens.head?, u) ∧ u.Supplies tokens.tail ∧
      (tokens = [] → u.isDone = true) := by
  obtain ⟨text, last, lexemes, hfaces, hlexes, htokens⟩ := h
  exact hfaces.next hlexes htokens

/-! ## All tokens -/

theorem Supplies.rest (h : t.Supplies tokens) : t.rest.value.1.map Prod.fst = tokens := by
  induction tokens generalizing t with
  | nil =>
    obtain ⟨u, hnext, -, -⟩ := h.next
    rw [rest_eq, Logged.value_bind, hnext]
    rfl
  | cons token tokens ih =>
    obtain ⟨u, hnext, hu, -⟩ := h.next
    rw [rest_eq, Logged.value_bind, hnext]
    simp only [List.head?_cons, Logged.value_bind, Logged.value_pure, List.map_cons]
    rw [ih hu]

theorem Supplies.isWhitespace (h : t.Supplies tokens) :
    ∀ token ∈ tokens, token.isEmpty = false ∧ (token.isWhitespace = true → token = .newline) := by
  obtain ⟨text, last, lexemes, -, hlexes, rfl⟩ := h
  intro token htoken
  obtain ⟨lexeme, hlexeme, hsurfaced⟩ := List.mem_filterMap.mp htoken
  rw [surfaced] at hsurfaced
  split at hsurfaced
  · rename_i hblank
    cases hsurfaced
    refine ⟨?_, fun hwhitespace => by simp [hwhitespace] at hblank⟩
    rw [Token.isEmpty, List.isEmpty_eq_false_iff]
    exact (hlexes.eq_ofText token hlexeme).1
  · split at hsurfaced <;> cases hsurfaced
    exact ⟨rfl, fun _ => rfl⟩

theorem supplies_dispatch (h : t.source.Holds text last)
    (hlexes : Lexes t.operators lexemes text) :
    t.dispatch.value.Supplies (lexemes.filterMap (surfaced t.returnNewlines)) :=
  ⟨text, last, lexemes, faces_dispatch h, hlexes, rfl⟩

theorem value_openText (text : Text) (t : Tokenizer) :
    (t.openText text).value =
      (dispatch { t with source := (Source.ofText text).value }).value := by
  simp only [openText, attach, Logged.value_bind]

theorem faces_openText (text : Text) (t : Tokenizer) :
    (t.openText text).value.Faces (Source.withoutMark text)
      (1 + (Source.withoutMark text).count '\n') := by
  rw [value_openText]
  exact faces_dispatch (Source.holds_ofText text)

theorem supplies_openText (h : Lexes t.operators lexemes (Source.withoutMark text)) :
    (t.openText text).value.Supplies (lexemes.filterMap (surfaced t.returnNewlines)) := by
  rw [value_openText]
  generalize hsource : (Source.ofText text).value = source
  exact supplies_dispatch (hsource ▸ Source.holds_ofText text) h

theorem exists_lexes (operators : Operators) (text : Text) :
    ∃ lexemes, Lexes operators lexemes (Source.withoutMark text) := by
  obtain ⟨lexemes, -, -, h, -⟩ := (Source.holds_ofText text).lexemes operators
  exact ⟨lexemes, h⟩

/-- The tokens of a text: a tokenizer with these settings, run to the end. -/
def tokensOf (settings : ScanSettings) (text : Text) : List Token :=
  ((ofSettings settings).openText text >>= rest).value.1.map Prod.fst

theorem tokensOf_eq (settings : ScanSettings)
    (h : Lexes (.ofSettings settings) lexemes (Source.withoutMark text)) :
    tokensOf settings text = lexemes.filterMap (surfaced settings.returnNewlines) :=
  Supplies.rest (supplies_openText h)

end SemiLex.Tokenizer
