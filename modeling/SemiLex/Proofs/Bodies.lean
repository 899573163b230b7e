import SemiLex.Proofs.Stability

/-!
# What literals and comments enclose

A literal or a comment stays one lexeme when what it encloses is replaced by anything else that does
not close it, and the lexemes around it stay as they are.  To the grouping it is a token like any
other, whatever it encloses: it ends no unit, makes no directive and is no `for`.  So the
semi-expressions stay the same but for this one token.
-/

namespace SemiLex

/-! ## Enclosed texts -/

/-- What encloses a text. -/
inductive Enclosure where
  | doubleQuotes
  | singleQuotes
  | lineComment
  | blockComment
  deriving DecidableEq, Repr

namespace Enclosure

def opening : Enclosure → Text
  | doubleQuotes => ['"']
  | singleQuotes => ['\'']
  | lineComment => ['/', '/']
  | blockComment => ['/', '*']

/-- A line comment is closed by the end of its line, which is not part of it. -/
def closing : Enclosure → Text
  | doubleQuotes => ['"']
  | singleQuotes => ['\'']
  | lineComment => []
  | blockComment => commentClose

def enclose (enclosure : Enclosure) (body : Text) : Text :=
  enclosure.opening ++ body ++ enclosure.closing

/-- The enclosed text does not close what encloses it. -/
def Admits : Enclosure → Text → Prop
  | doubleQuotes, body => '"' ∉ body
  | singleQuotes, body => '\'' ∉ body
  | lineComment, body => ∀ c ∈ body, isLineBreak c = false
  | blockComment, body => ¬ commentClose <:+: body

/-- What follows does not belong to it. -/
def ClosedBefore : Enclosure → Text → Prop
  | lineComment, rest => ∀ c ∈ rest.head?, isLineBreak c = true
  | _, _ => True

variable {enclosure : Enclosure} {operators : Operators} {body body' rest : Text}

theorem isLexeme_enclose (hbody : enclosure.Admits body) (hrest : enclosure.ClosedBefore rest) :
    IsLexeme operators .punctuation (enclosure.enclose body) rest := by
  cases enclosure with
  | doubleQuotes => exact .literal (Or.inl rfl) (.closed body hbody)
  | singleQuotes => exact .literal (Or.inr rfl) (.closed body hbody)
  | lineComment =>
    rw [enclose, closing, List.append_nil]
    exact .lineComment
      ⟨fun c hc => congrArg not (hbody c hc), fun c hc => congrArg not (hrest c hc)⟩
  | blockComment =>
    rw [enclose, List.append_assoc]
    exact .blockComment (.closed body (not_close_infix_concat hbody (by decide)))

theorem exists_enclose (enclosure : Enclosure) :
    ∃ first, Kind.of first = .punctuation ∧ first ≠ Utf8.byteOrderMark ∧
      ∀ body, ∃ tail, enclosure.enclose body = first :: tail := by
  cases enclosure with
  | doubleQuotes => exact ⟨'"', by decide, by decide, fun body => ⟨_, rfl⟩⟩
  | singleQuotes => exact ⟨'\'', by decide, by decide, fun body => ⟨_, rfl⟩⟩
  | lineComment => exact ⟨'/', by decide, by decide, fun body => ⟨_, rfl⟩⟩
  | blockComment => exact ⟨'/', by decide, by decide, fun body => ⟨_, rfl⟩⟩

def token (enclosure : Enclosure) (body : Text) : Token :=
  .ofText (enclosure.enclose body)

theorem isComment_token (enclosure : Enclosure) (body body' : Text) :
    (enclosure.token body).isComment = (enclosure.token body').isComment := by
  cases enclosure <;> rfl

theorem surfaced_token (enclosure : Enclosure) (body : Text) (markers : Bool) :
    Tokenizer.surfaced markers (enclosure.token body) = some (enclosure.token body) := by
  cases enclosure <;> rfl

theorem lexes_token {lexemes : List Token} (hbody : enclosure.Admits body)
    (hrest : enclosure.ClosedBefore rest) (h : Lexes operators lexemes rest) :
    Lexes operators (enclosure.token body :: lexemes) (enclosure.enclose body ++ rest) := by
  obtain ⟨first, hkind, -, htext⟩ := exists_enclose enclosure
  obtain ⟨tail, htext⟩ := htext body
  have hlexeme : IsLexeme operators .punctuation _ _ := isLexeme_enclose hbody hrest
  rw [htext, ← hkind] at hlexeme
  rw [token, htext]
  exact .cons hlexeme h

end Enclosure

/-! ## Lexemes in front -/

variable {operators : Operators} {lexemes front back : List Token} {kind : Kind}
  {lexeme text rest rest' : Text}

theorem IsLexeme.congr (h : IsLexeme operators kind lexeme rest)
    (hrest : rest' = [] ∨ rest'.head? = rest.head?) : IsLexeme operators kind lexeme rest' := by
  rcases hrest with rfl | hhead
  · exact h.ends
  · exact h.congr_head? hhead

/-- The lexemes in front of a place stay the same if nothing is left behind it, or something that
starts alike. -/
theorem Lexes.exists_rest (h : Lexes operators (front ++ back) text) :
    ∃ rest, text = front.flatMap Token.text ++ rest ∧
      ∀ rest' back', rest' = [] ∨ rest'.head? = rest.head? → Lexes operators back' rest' →
        Lexes operators (front ++ back') (front.flatMap Token.text ++ rest') := by
  induction front generalizing text with
  | nil => exact ⟨text, rfl, fun rest' back' _ h' => h'⟩
  | cons t front ih =>
    cases h with
    | @cons first tail _ _ hlexeme hrest =>
      obtain ⟨rest, rfl, hback⟩ := ih hrest
      refine ⟨rest, by simp, fun rest' back' hhead h' => ?_⟩
      rw [List.flatMap_cons, List.append_assoc]
      refine .cons (hlexeme.congr ?_) (hback rest' back' hhead h')
      cases front.flatMap Token.text with
      | nil => exact hhead
      | cons c more => exact Or.inr rfl

def lexemesOf (settings : ScanSettings) (text : Text) : List Token :=
  (Source.ofText text >>= Source.lexemes (.ofSettings settings)).value.1

theorem lexes_lexemesOf (settings : ScanSettings) (text : Text) :
    Lexes (.ofSettings settings) (lexemesOf settings text) (Source.withoutMark text) := by
  obtain ⟨lexemes, source, hrun, hlexes, -⟩ :=
    (Source.holds_ofText text).lexemes (.ofSettings settings)
  rwa [lexemesOf, Logged.value_bind, hrun]

/-- In this text, a lexeme ends or nothing begins where `front` ends. -/
def EndsLexeme (settings : ScanSettings) (front text : Text) : Prop :=
  ∃ n, ((lexemesOf settings text).take n).flatMap Token.text = Source.withoutMark front

namespace Enclosure

variable {settings : ScanSettings} {enclosure : Enclosure} {body front : Text}

/-- What is enclosed makes one lexeme, and has no influence on those around it. -/
theorem exists_lexes_enclose (hrest : enclosure.ClosedBefore rest)
    (hfront : EndsLexeme settings front (front ++ (enclosure.enclose body ++ rest))) :
    ∃ before after, Lexes (.ofSettings settings) before (Source.withoutMark front) ∧
      ∀ body', enclosure.Admits body' → Lexes (.ofSettings settings)
        (before ++ enclosure.token body' :: after)
        (Source.withoutMark (front ++ (enclosure.enclose body' ++ rest))) := by
  obtain ⟨first, -, hmark, htext⟩ := exists_enclose enclosure
  have hhead (body : Text) : (enclosure.enclose body ++ rest).head? = some first := by
    obtain ⟨tail, htail⟩ := htext body
    rw [htail]
    rfl
  have hskip (body : Text) : Source.withoutMark (front ++ (enclosure.enclose body ++ rest)) =
      Source.withoutMark front ++ (enclosure.enclose body ++ rest) := by
    apply Source.withoutMark_append
    rw [hhead, ne_eq, Option.some.injEq]
    exact hmark
  obtain ⟨before, back, hsplit, hbefore⟩ : ∃ before back,
      lexemesOf settings (front ++ (enclosure.enclose body ++ rest)) = before ++ back ∧
        before.flatMap Token.text = Source.withoutMark front := by
    obtain ⟨n, hn⟩ := hfront
    exact ⟨_, _, (List.take_append_drop n _).symm, hn⟩
  have hlexes := lexes_lexemesOf settings (front ++ (enclosure.enclose body ++ rest))
  rw [hsplit] at hlexes
  obtain ⟨found, hfound, hsame⟩ := hlexes.exists_rest
  rw [hskip, hbefore] at hfound
  obtain rfl := List.append_cancel_left hfound
  rw [hbefore] at hsame
  obtain ⟨after, hafter⟩ := exists_lexes (.ofSettings settings) rest
  refine ⟨before, after, ?_, fun body' hbody' => ?_⟩
  · simpa using hsame [] [] (Or.inl rfl) .nil
  · rw [hskip]
    exact hsame _ _ (Or.inr ((hhead body').trans (hhead body).symm))
      (lexes_token hbody' hrest hafter)

open Tokenizer in
theorem exists_tokensOf_enclose (hrest : enclosure.ClosedBefore rest)
    (hfront : EndsLexeme settings front (front ++ (enclosure.enclose body ++ rest)))
    (markers : Bool) :
    ∃ after, ∀ body', enclosure.Admits body' →
      tokensOf { settings with returnNewlines := markers }
          (front ++ (enclosure.enclose body' ++ rest)) =
        tokensOf { settings with returnNewlines := markers } front ++
          enclosure.token body' :: after := by
  obtain ⟨before, after, hbefore, hlexes⟩ := exists_lexes_enclose hrest hfront
  refine ⟨after.filterMap (surfaced markers), fun body' hbody' => ?_⟩
  rw [tokensOf_eq { settings with returnNewlines := markers } hbefore,
    tokensOf_eq { settings with returnNewlines := markers } (hlexes body' hbody'),
    List.filterMap_append, List.filterMap_cons, surfaced_token]

end Enclosure

/-! ## Grouping around a token -/

namespace Grouping

variable {keepMarkers : Bool} {unit tokens : List Token} {parts : List (List Token)} {t t' : Token}

/-- The token makes no difference to the grouping. -/
structure Neutral (t : Token) : Prop where
  isTerminator : isTerminator t = false
  isNewline : t.isNewline = false
  isHash : (t.text == ['#']) = false
  isFor : (t.text == ['f', 'o', 'r']) = false

theorem Neutral.containsFor (h : Neutral t) (left right : List Token) :
    containsFor (left ++ t :: right) = containsFor (left ++ right) := by
  simp [Grouping.containsFor, h.isFor]

theorem Neutral.isDirective (h : Neutral t) (left right : List Token) :
    isDirective (left ++ t :: right) = isDirective left := by
  cases left with
  | nil => exact h.isHash
  | cons first left => rfl

theorem Neutral.units_cons (h : Neutral t) (unit tokens : List Token) :
    units keepMarkers unit (t :: tokens) = units keepMarkers (unit ++ [t]) tokens := by
  have hends : ends unit t = false := by
    rw [ends, h.isTerminator, h.isNewline]
    rfl
  have hadded : added keepMarkers unit t = [t] := by
    rw [added, h.isNewline]
    rfl
  rw [Grouping.units_cons, hends, hadded]
  rfl

theorem exists_units_open (keepMarkers : Bool) (left middle tokens : List Token) :
    ∃ right after, ∀ t, Neutral t →
      units keepMarkers (left ++ t :: middle) tokens = (left ++ t :: right) :: after := by
  induction tokens generalizing middle with
  | nil => exact ⟨middle, [], fun t _ => by simp [units]⟩
  | cons u tokens ih =>
    set more := if u.isNewline && !keepMarkers then [] else [u] with hmore
    have hadded (t : Token) : added keepMarkers (left ++ t :: middle) u = more := by
      simp [added, hmore]
    by_cases hends : (isTerminator u || (u.isNewline && isDirective left)) = true
    · refine ⟨middle ++ more, units keepMarkers [] tokens, fun t ht => ?_⟩
      rw [units_cons, hadded, ends, ht.isDirective, if_pos hends, List.append_assoc,
        List.cons_append]
    · obtain ⟨right, after, hunits⟩ := ih (middle ++ more)
      refine ⟨right, after, fun t ht => ?_⟩
      rw [units_cons, hadded, ends, ht.isDirective, if_neg hends, List.append_assoc,
        List.cons_append, hunits t ht]

theorem exists_units_neutral (keepMarkers : Bool) (front tokens : List Token) :
    ∃ before left right after, solid (before.flatten ++ left) = solid front ∧ ∀ t, Neutral t →
      units keepMarkers [] (front ++ t :: tokens) = before ++ (left ++ t :: right) :: after := by
  obtain ⟨before, left, hunits⟩ := exists_units_append keepMarkers [] front
  obtain ⟨right, after, hopen⟩ := exists_units_open keepMarkers left [] tokens
  refine ⟨before, left, right, after, ?_, fun t ht => ?_⟩
  · have hleft : (units keepMarkers left []).flatten = left := by
      unfold units
      split
      · rename_i hnil
        rw [hnil]
        rfl
      · simp
    have hfront := hunits []
    rw [List.append_nil] at hfront
    calc solid (before.flatten ++ left)
        = solid (units keepMarkers [] front).flatten := by rw [hfront, List.flatten_append, hleft]
      _ = solid front := solid_flatten_units
  · rw [hunits, ht.units_cons, hopen t ht]

theorem exists_joined_neutral (before after : List (List Token)) (left right : List Token) :
    ∃ before' left' right' after', before'.flatten ++ left' = before.flatten ++ left ∧
      ∀ t, Neutral t → joined (before ++ (left ++ t :: right) :: after) =
        before' ++ (left' ++ t :: right') :: after' := by
  fun_induction joined before with
  | case1 =>
    by_cases hfor : containsFor (left ++ right) = true
    · refine ⟨[], left, right ++ (after.take 2).flatten, joined (after.drop 2), rfl,
        fun t ht => ?_⟩
      rw [List.nil_append, joined_cons, ht.containsFor, if_pos hfor, List.append_assoc]
      rfl
    · refine ⟨[], left, right, joined after, rfl, fun t ht => ?_⟩
      rw [List.nil_append, joined_cons, ht.containsFor, if_neg hfor]
      rfl
  | case2 unit units hfor ih =>
    by_cases hclauses : 2 ≤ units.length
    · obtain ⟨before', left', right', after', hflatten, hjoined⟩ := ih
      refine ⟨(unit ++ (units.take 2).flatten) :: before', left', right', after', ?_,
        fun t ht => ?_⟩
      · rw [List.flatten_cons, List.append_assoc, hflatten, List.flatten_cons, List.append_assoc,
          List.append_assoc, ← List.append_assoc (units.take 2).flatten, ← List.flatten_append,
          List.take_append_drop]
      · rw [List.cons_append, joined_cons, if_pos hfor, List.take_append_of_le_length hclauses,
          List.drop_append_of_le_length hclauses, hjoined t ht]
        rfl
    · -- The unit of the token is one of the clauses.
      have hlength : 2 - units.length = 1 - units.length + 1 := by omega
      have htake (unit : List Token) : (units ++ unit :: after).take 2 =
          units ++ unit :: after.take (1 - units.length) := by
        rw [List.take_append, List.take_of_length_le (by omega), hlength, List.take_succ_cons]
      have hdrop (unit : List Token) : (units ++ unit :: after).drop 2 =
          after.drop (1 - units.length) := by
        rw [List.drop_append, List.drop_eq_nil_of_le (by omega), hlength, List.drop_succ_cons,
          List.nil_append]
      refine ⟨[], unit ++ units.flatten ++ left,
        right ++ (after.take (1 - units.length)).flatten, joined (after.drop (1 - units.length)),
        by simp, fun t ht => ?_⟩
      rw [List.cons_append, joined_cons, if_pos hfor, htake, hdrop]
      simp
  | case3 unit units hfor ih =>
    obtain ⟨before', left', right', after', hflatten, hjoined⟩ := ih
    refine ⟨unit :: before', left', right', after', ?_, fun t ht => ?_⟩
    · rw [List.flatten_cons, List.append_assoc, hflatten, List.flatten_cons, List.append_assoc]
    · rw [List.cons_append, joined_cons, if_neg hfor, hjoined t ht]
      rfl

/-- The same lists but for one token.  What stands in front of it is `front`, apart from markers. -/
def Replaced (front : List Token) (t t' : Token) (parts parts' : List (List Token)) : Prop :=
  ∃ before left right after, solid (before.flatten ++ left) = solid front ∧
    parts = before ++ (left ++ t :: right) :: after ∧
    parts' = before ++ (left ++ t' :: right) :: after

theorem replaced_units (ht : Neutral t) (ht' : Neutral t') (front tokens : List Token) :
    Replaced front t t' (units keepMarkers [] (front ++ t :: tokens))
      (units keepMarkers [] (front ++ t' :: tokens)) := by
  obtain ⟨before, left, right, after, hfront, hunits⟩ :=
    exists_units_neutral keepMarkers front tokens
  exact ⟨before, left, right, after, hfront, hunits t ht, hunits t' ht'⟩

theorem visible_append_cons (discardComments : Bool) (front : List Token) (t : Token)
    (tokens : List Token) :
    visible discardComments (front ++ t :: tokens) = visible discardComments front ++
      if discardComments && t.isComment then visible discardComments tokens
      else t :: visible discardComments tokens := by
  rw [← Collector.visible_cons, visible, visible, visible, List.filter_append]

theorem replaced_unitsOf (ht : Neutral t) (ht' : Neutral t') (h : t.isComment = t'.isComment)
    (settings : GroupSettings) (front tokens : List Token) :
    if settings.discardComments && t.isComment then
      unitsOf settings (front ++ t :: tokens) = unitsOf settings (front ++ t' :: tokens)
    else Replaced (visible settings.discardComments front) t t'
      (unitsOf settings (front ++ t :: tokens)) (unitsOf settings (front ++ t' :: tokens)) := by
  rw [unitsOf, unitsOf, visible_append_cons, visible_append_cons, ← h]
  split
  · rfl
  · exact replaced_units ht ht' _ _

theorem Replaced.joined {front : List Token} {parts' : List (List Token)}
    (h : Replaced front t t' parts parts') (ht : Neutral t) (ht' : Neutral t') :
    Replaced front t t' (joined parts) (joined parts') := by
  obtain ⟨before, left, right, after, hfront, rfl, rfl⟩ := h
  obtain ⟨before', left', right', after', hflatten, hjoined⟩ :=
    exists_joined_neutral before after left right
  exact ⟨before', left', right', after', hflatten ▸ hfront, hjoined t ht, hjoined t' ht'⟩

theorem Replaced.map_containsFor {front : List Token} {parts' : List (List Token)}
    (h : Replaced front t t' parts parts') (ht : Neutral t) (ht' : Neutral t') :
    parts.map Grouping.containsFor = parts'.map Grouping.containsFor := by
  obtain ⟨before, left, right, after, -, rfl, rfl⟩ := h
  simp only [List.map_append, List.map_cons, ht.containsFor, ht'.containsFor]

end Grouping

open Grouping in
theorem neutral_token (enclosure : Enclosure) (body : Text) : Neutral (enclosure.token body) := by
  cases enclosure <;> exact ⟨rfl, rfl, rfl, rfl⟩

namespace Collector

open Grouping Tokenizer

variable {settings : Settings} {enclosure : Enclosure} {front rest body body' : Text}

/-- Of two texts that differ in what a literal or a comment encloses, the semi-expressions are the
same but for this token; and where the comment is left out, they are the same.  So are the units
that they are joined from, and where these are joined. -/
theorem replaced_collected_enclose (hbody : enclosure.Admits body) (hbody' : enclosure.Admits body')
    (hrest : enclosure.ClosedBefore rest)
    (hfront : EndsLexeme settings.scanner front (front ++ (enclosure.enclose body ++ rest))) :
    let tokens (text : Text) := tokensOf { settings.scanner with returnNewlines := true } text
    let text := front ++ (enclosure.enclose body ++ rest)
    let text' := front ++ (enclosure.enclose body' ++ rest)
    let units := unitsOf settings.semi (tokens text)
    let units' := unitsOf settings.semi (tokens text')
    if settings.semi.discardComments && (enclosure.token body).isComment then
      units = units' ∧ collected settings text = collected settings text'
    else
      let Alike := Replaced (visible settings.semi.discardComments (tokens front))
        (enclosure.token body) (enclosure.token body')
      Alike units units' ∧ Alike (collected settings text) (collected settings text') ∧
        units.map containsFor = units'.map containsFor := by
  intro tokens text text' units units'
  obtain ⟨after, htokens⟩ := Enclosure.exists_tokensOf_enclose hrest hfront true
  have htext : tokens text = tokens front ++ enclosure.token body :: after := htokens body hbody
  have htext' : tokens text' = tokens front ++ enclosure.token body' :: after :=
    htokens body' hbody'
  have hcollected (text : Text) :
      collected settings text = joined (unitsOf settings.semi (tokens text)) :=
    collected_eq settings text
  rw [hcollected, hcollected]
  have hneutral := neutral_token enclosure
  have hunits := replaced_unitsOf (hneutral body) (hneutral body')
    (Enclosure.isComment_token enclosure body body') settings.semi (tokens front) after
  rw [← htext, ← htext'] at hunits
  split
  · rename_i hcomment
    rw [if_pos hcomment] at hunits
    exact ⟨hunits, congrArg joined hunits⟩
  · rename_i hcomment
    rw [if_neg hcomment] at hunits
    exact ⟨hunits, hunits.joined (hneutral body) (hneutral body'),
      hunits.map_containsFor (hneutral body) (hneutral body')⟩

/-- What ends units and makes them join, in a comment that is kept. -/
theorem replaced_collected_enclose_kept :
    let settings := Settings.default.unmarked false
    let front := "for(a;".toList
    let body := ";\x7d\n# for \"/**".toList
    let rest := "b;c)\n#d;".toList
    let tokens (text : Text) := tokensOf { settings.scanner with returnNewlines := true } text
    let text := front ++ (Enclosure.blockComment.enclose body ++ rest)
    let text' := front ++ (Enclosure.blockComment.enclose [] ++ rest)
    Enclosure.blockComment.Admits body ∧ Enclosure.blockComment.Admits [] ∧
      Enclosure.blockComment.ClosedBefore rest ∧ EndsLexeme settings.scanner front text ∧
      (settings.semi.discardComments && (Enclosure.blockComment.token body).isComment) = false ∧
      Replaced (visible false (tokens front)) (Enclosure.blockComment.token body)
        (Enclosure.blockComment.token []) (collected settings text) (collected settings text') ∧
      (unitsOf settings.semi (tokens text)).map containsFor =
        (unitsOf settings.semi (tokens text')).map containsFor := by
  intro settings front body rest tokens text text'
  have hbody : Enclosure.blockComment.Admits body := by
    unfold Enclosure.Admits
    decide +kernel
  have hnone : Enclosure.blockComment.Admits [] := by
    unfold Enclosure.Admits
    decide
  have hfront : EndsLexeme settings.scanner front text := ⟨4, by decide +kernel⟩
  have hkept : (settings.semi.discardComments &&
      (Enclosure.blockComment.token body).isComment) = false := by decide
  have h := replaced_collected_enclose hbody hnone trivial hfront
  simp only [hkept, Bool.false_eq_true, if_false] at h
  exact ⟨hbody, hnone, trivial, hfront, hkept, h.2.1, h.2.2⟩

end Collector

end SemiLex
