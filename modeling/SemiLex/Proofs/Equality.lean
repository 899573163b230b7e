import Mathlib.Data.List.Forall2
import SemiLex.Proofs.Editing

/-!
# Equal texts

Equality of semi-expressions compares the kinds of tokens besides their texts.  A token that is
made from a text, or that a tokenizer hands out, has the kind that its text scans to, and then equal
texts are enough.  Only a scan that is forced into a kind makes other tokens: the texts decide just
if every extraction is made in a phase that fits the next character.
-/

namespace SemiLex

open SemiExpression

/-! ## Kinds that the texts have -/

/-- The kind of the token is the one that its text scans to. -/
def Token.Canonical (t : Token) : Prop :=
  t = .ofText t.text

theorem Token.canonical_ofText (text : Text) : (ofText text).Canonical := by
  rw [Canonical, text_ofText]

theorem Token.Canonical.ext {t u : Token} (ht : t.Canonical) (hu : u.Canonical)
    (h : t.text = u.text) : t = u := by
  rw [ht, hu, h]

theorem eq_of_forall₂_text {tokens others : List Token} (htokens : ∀ t ∈ tokens, t.Canonical)
    (hothers : ∀ t ∈ others, t.Canonical)
    (h : List.Forall₂ (fun t u => t.text = u.text) tokens others) : tokens = others := by
  induction h with
  | nil => rfl
  | @cons t u tokens others htext _ ih =>
    obtain ⟨ht, htokens⟩ := List.forall_mem_cons.mp htokens
    obtain ⟨hu, hothers⟩ := List.forall_mem_cons.mp hothers
    rw [ht.ext hu htext, ih htokens hothers]

/-! ## Extractions -/

/-- The scan is between lexemes, or in front of a character of the kind that it is to extract. -/
def Phase.Fits (phase : Phase) (s : Source) : Prop :=
  ∀ first ∈ (s.peek 0).value.1, Source.kindIn phase first = Kind.of first

namespace Source

variable {s : Source} {operators : Operators} {phase : Phase} {token : Token} {first : Char}

/-- Wherever there is a next character, a lexeme begins with it, of the kind that the phase asks
for. -/
theorem exists_extract (h : (s.peek 0).value.1 = some first) (operators : Operators)
    (phase : Phase) : ∃ tail,
      (s.extract operators phase).value.1 = some ⟨first :: tail, kindIn phase first⟩ := by
  rcases hpeek : (s.peek 0).value with ⟨c, t⟩
  rw [hpeek] at h
  obtain rfl : c = some first := h
  cases phase with
  | extracting kind =>
    have hnext : s.next.value = (some first, t.advance) := by
      simp only [next, Logged.value_bind, Logged.value_pure, hpeek]
    refine ⟨(t.advance.takeRest operators kind first).value.1, ?_⟩
    simp only [extract, extractAs, Logged.value_bind, Logged.value_pure, hnext, kindIn]
  | dispatch =>
    have hfound := lookahead_peek 0 s
    rw [hpeek, ← List.head?_eq_getElem?] at hfound
    obtain ⟨queue, hqueue⟩ := List.head?_eq_some_iff.mp hfound
    obtain ⟨tail, u, hextract, -⟩ := extractAs_of_lookahead hqueue operators (Kind.of first)
    refine ⟨tail, ?_⟩
    simp only [extract, Logged.value_bind, hpeek, hextract, kindIn]

theorem extract_of_peek_none (h : (s.peek 0).value.1 = none) (operators : Operators)
    (phase : Phase) : (s.extract operators phase).value.1 = none := by
  rcases hpeek : (s.peek 0).value with ⟨c, t⟩
  rw [hpeek] at h
  obtain rfl : c = none := h
  cases phase with
  | extracting kind =>
    simp only [extract, extractAs, next, Logged.value_bind, Logged.value_pure, hpeek]
  | dispatch => simp only [extract, Logged.value_bind, Logged.value_pure, hpeek]

theorem canonical_extract_iff (h : (s.extract operators phase).value.1 = some token) :
    token.Canonical ↔ phase.Fits s := by
  cases hpeek : (s.peek 0).value.1 with
  | none =>
    rw [extract_of_peek_none hpeek] at h
    cases h
  | some first =>
    obtain ⟨tail, hextract⟩ := exists_extract hpeek operators phase
    obtain rfl := Option.some.inj (h.symm.trans hextract)
    simp [Token.Canonical, Phase.Fits, hpeek]

end Source

/-! ## What can be built -/

/-- A token that can be had by anyone: made from a text, the marker of a line break, handed out by a
tokenizer, or extracted in a phase that may be used in front of the source. -/
inductive Token.Obtained (MayExtract : Phase → Source → Prop) : Token → Prop
  | ofText (text : Text) : Obtained MayExtract (.ofText text)
  | newline : Obtained MayExtract .newline
  | next {t : Tokenizer} {token : Token} (ht : t.Reachable)
    (h : t.next.value.1 = some token) : Obtained MayExtract token
  | extract {operators : Operators} {phase : Phase} {s : Source} {token : Token}
    (hphase : MayExtract phase s) (h : (s.extract operators phase).value.1 = some token) :
    Obtained MayExtract token

/-- A semi-expression that comes of edits with available tokens, or of a collector after any
operations, and edits of that. -/
inductive SemiExpression.Built (Available : Token → Prop) : SemiExpression → Prop
  | empty : Built Available ∅
  | next (settings : Settings) (operations : List Collector.Operation) :
    Built Available (operations.foldl Collector.after (.ofSettings settings)).next.value.2.semi
  | edit {s : SemiExpression} (edit : Edit) (htokens : ∀ token ∈ edit.tokens, Available token)
    (h : Built Available s) : Built Available (s.after edit)

variable {MayExtract : Phase → Source → Prop} {Available : Token → Prop} {token : Token}

theorem SemiExpression.Built.singleton (havailable : Available token) (htext : token.text ≠ []) :
    Built Available ⟨[token]⟩ := by
  have hempty : token.isEmpty = false := List.isEmpty_eq_false_iff.mpr htext
  have hpush : (∅ : SemiExpression).after (.push token) = ⟨[token]⟩ := by
    show (∅ : SemiExpression).push token = _
    rw [push, hempty]
    rfl
  rw [← hpush]
  exact .edit (.push token) (List.forall_mem_singleton.mpr havailable) .empty

theorem Tokenizer.Reachable.canonical_next {t : Tokenizer} (h : t.Reachable)
    (hnext : t.next.value.1 = some token) : token.Canonical :=
  (h.settled.next.token token hnext).1

theorem Token.Obtained.canonical (hfits : ∀ phase s, MayExtract phase s → phase.Fits s)
    (h : Obtained MayExtract token) : token.Canonical := by
  cases h with
  | ofText text => exact canonical_ofText text
  | newline => exact canonical_ofText ['\n']
  | next ht hnext => exact ht.canonical_next hnext
  | extract hphase hextract =>
    exact (Source.canonical_extract_iff hextract).mpr (hfits _ _ hphase)

theorem Collector.reachable_after {c : Collector} (h : c.tokenizer.Reachable)
    (operation : Operation) : (c.after operation).tokenizer.Reachable := by
  cases operation with
  | openText text =>
    rw [after, value_openText]
    exact h.openText text
  | tryOpen files path => exact h.tryOpen files path
  | openFile files path => exact h.openFile files path
  | close => exact h.readsOn (.close .now)
  | next => exact h.readsOn (later_next c).readsOn
  | takeSemi => exact h
  | edit change => exact h
  | setSettings settings => exact h

theorem Collector.reachable_foldl_after {c : Collector} (h : c.tokenizer.Reachable)
    (operations : List Operation) : (operations.foldl after c).tokenizer.Reachable := by
  induction operations generalizing c with
  | nil => exact h
  | cons operation operations ih => exact ih (reachable_after h operation)

theorem SemiExpression.Built.canonical {s : SemiExpression}
    (havailable : ∀ token, Available token → token.Canonical) (h : Built Available s) :
    ∀ token ∈ s.tokens, token.Canonical := by
  induction h with
  | empty => exact List.forall_mem_nil _
  | next settings operations =>
    have hsettings : (Collector.ofSettings settings).tokenizer.Reachable := by
      rw [Collector.tokenizer_ofSettings]
      exact .ofSettings _
    have hreachable := Collector.reachable_foldl_after hsettings operations
    apply Collector.forall_mem_next
    intro u hu token htoken
    exact (hreachable.readsOn hu.readsOn).canonical_next htoken
  | edit edit htokens _ ih =>
    intro token htoken
    rcases mem_after htoken with hstored | ⟨hbrought, -⟩
    · exact ih token hstored
    · exact havailable token (htokens token hbrought)

/-- Semi-expressions, however they are built, are equal just if they have equally many tokens with
pairwise equal texts, provided that extractions are only made in phases that fit the next character.
If one that does not fit may be made, the texts are not enough. -/
theorem eq_iff_texts_iff_fits (MayExtract : Phase → Source → Prop) :
    (∀ a b, Built (Token.Obtained MayExtract) a → Built (Token.Obtained MayExtract) b →
        (a = b ↔ List.Forall₂ (fun t u => t.text = u.text) a.tokens b.tokens)) ↔
      ∀ phase s, MayExtract phase s → phase.Fits s := by
  constructor
  · intro htexts phase s hphase first hfirst
    obtain ⟨tail, hextract⟩ := Source.exists_extract hfirst default phase
    -- the extracted token, and one that is made from its text
    have ha : Built (Token.Obtained MayExtract) ⟨[⟨first :: tail, Source.kindIn phase first⟩]⟩ :=
      .singleton (.extract hphase hextract) (List.cons_ne_nil _ _)
    have hb : Built (Token.Obtained MayExtract) ⟨[.ofText (first :: tail)]⟩ :=
      .singleton (.ofText (first :: tail)) (List.cons_ne_nil _ _)
    have heq := (htexts _ _ ha hb).mpr (.cons rfl .nil)
    simpa using heq
  · intro hfits a b ha hb
    have havailable (token : Token) (h : token.Obtained MayExtract) : token.Canonical :=
      h.canonical hfits
    constructor
    · rintro rfl
      exact List.forall₂_same.mpr fun _ _ => rfl
    · intro htexts
      obtain ⟨tokens⟩ := a
      obtain ⟨others⟩ := b
      exact congrArg SemiExpression.mk
        (eq_of_forall₂_text (ha.canonical havailable) (hb.canonical havailable) htexts)

/-- A collected semi-expression, and one that is put together of a word that is extracted as such
and a token that is made. -/
theorem eq_iff_texts_of_word :
    let a := (Collector.after (.ofSettings .default) (.openText "y;".toList)).next.value.2.semi
    let b := ((∅ : SemiExpression).after (.push ⟨['y'], .word⟩)).after (.push (.ofText [';']))
    Built (Token.Obtained Phase.Fits) a ∧ Built (Token.Obtained Phase.Fits) b ∧
      List.Forall₂ (fun t u => t.text = u.text) a.tokens b.tokens ∧ a = b := by
  intro a b
  let s := (Source.ofText "y".toList).value
  have hextract : (s.extract default (.extracting .word)).value.1 = some ⟨['y'], .word⟩ := by
    decide +kernel
  have hfits : (Phase.extracting .word).Fits s := by
    have hpeek : (s.peek 0).value.1 = some 'y' := by decide +kernel
    rw [Phase.Fits, hpeek]
    rintro _ ⟨⟩
    decide
  have ha : Built (Token.Obtained Phase.Fits) a := .next .default [.openText "y;".toList]
  have hword : Built (Token.Obtained Phase.Fits) (after ∅ (.push ⟨['y'], .word⟩)) :=
    .edit (.push ⟨['y'], .word⟩) (List.forall_mem_singleton.mpr (.extract hfits hextract)) .empty
  have hb : Built (Token.Obtained Phase.Fits) b :=
    .edit (.push (.ofText [';'])) (List.forall_mem_singleton.mpr (.ofText [';'])) hword
  have htokens : a.tokens = [⟨['y'], .word⟩, .ofText [';']] := by decide +kernel
  have htexts : List.Forall₂ (fun t u => t.text = u.text) a.tokens b.tokens := by
    rw [htokens]
    exact .cons rfl (.cons rfl .nil)
  exact ⟨ha, hb, htexts,
    ((eq_iff_texts_iff_fits Phase.Fits).mpr (fun _ _ h => h) a b ha hb).mpr htexts⟩

/-- A letter that is extracted as whitespace is no letter. -/
theorem ne_of_forced_whitespace :
    let MayExtract : Phase → Source → Prop := fun _ _ => True
    let s := (Source.ofText "abc".toList).value
    ∃ token, (s.extract default (.extracting .whitespace)).value.1 = some token ∧
      Built (Token.Obtained MayExtract) ⟨[token]⟩ ∧
      Built (Token.Obtained MayExtract) ⟨[.ofText ['a']]⟩ ∧
      List.Forall₂ (fun t u : Token => t.text = u.text) [token] [.ofText ['a']] ∧
      (⟨[token]⟩ : SemiExpression) ≠ ⟨[.ofText ['a']]⟩ := by
  intro MayExtract s
  have hextract : (s.extract default (.extracting .whitespace)).value.1 =
      some ⟨['a'], .whitespace⟩ := by decide +kernel
  exact ⟨_, hextract, .singleton (.extract trivial hextract) (List.cons_ne_nil _ _),
    .singleton (.ofText ['a']) (List.cons_ne_nil _ _), .cons rfl .nil, by decide⟩

end SemiLex
