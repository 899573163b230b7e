import SemiLex.Proofs.Pieces
import SemiLex.Proofs.Reopening

/-!
# Tokens and their lines

Call after call, a tokenizer goes through the lexemes of what its source has left.  The line that it
has reached is that of the end of the lexeme behind the token, because what was looked at further on
is not consumed yet.  Markers may be switched on and off between the calls.  That decides which of
the whitespace comes out, and neither the other tokens nor their lines depend on it.
-/

namespace SemiLex.Tokenizer

variable {t : Tokenizer} {text taken front ahead : Text} {last : Nat} {lexemes : List Token}
  {listed : List (Token × Nat)} {switches : Nat → Bool}

/-! ## Lexemes with their lines -/

/-- What the calls hand out for lexemes behind `front`: the tokens, each with the line at the end of
its lexeme.  The call with number `n` surfaces markers if `switches n` says so. -/
def items (switches : Nat → Bool) (front : Text) : List Token → List (Token × Nat)
  | [] => []
  | lexeme :: lexemes =>
    let through := front ++ lexeme.text
    match surfaced (switches 0) lexeme with
    | some token =>
      (token, 1 + through.count '\n') :: items (fun n => switches (n + 1)) through lexemes
    | none => items switches through lexemes

theorem items_cons (switches : Nat → Bool) (front : Text) (lexeme : Token)
    (lexemes : List Token) :
    items switches front (lexeme :: lexemes) =
      match surfaced (switches 0) lexeme with
      | some token => (token, 1 + (front ++ lexeme.text).count '\n') ::
          items (fun n => switches (n + 1)) (front ++ lexeme.text) lexemes
      | none => items switches (front ++ lexeme.text) lexemes := rfl

theorem map_fst_items (markers : Bool) (front : Text) (lexemes : List Token) :
    (items (fun _ => markers) front lexemes).map Prod.fst =
      lexemes.filterMap (surfaced markers) := by
  induction lexemes generalizing front with
  | nil => rfl
  | cons lexeme lexemes ih =>
    rw [items_cons, List.filterMap_cons]
    cases surfaced markers lexeme with
    | some token => exact congrArg (token :: ·) (ih _)
    | none => exact ih _

theorem not_isNewline_of_not_isWhitespace {token : Token} (h : token.isWhitespace = false) :
    token.isNewline = false := by
  rw [Token.isNewline, beq_eq_false_iff_ne]
  intro htext
  rw [Token.isWhitespace, htext] at h
  exact absurd h (by decide)

theorem filter_items (switches : Nat → Bool) (front : Text) (lexemes : List Token) :
    (items switches front lexemes).filter (fun item => !item.1.isNewline) =
      items (fun _ => false) front lexemes := by
  induction lexemes generalizing switches front with
  | nil => rfl
  | cons lexeme lexemes ih =>
    rw [items_cons, items_cons, surfaced, surfaced]
    cases hblank : lexeme.isWhitespace with
    | false =>
      have hsolid := not_isNewline_of_not_isWhitespace hblank
      simp only [Bool.not_false, if_true, List.filter_cons, hsolid]
      rw [ih]
    | true =>
      cases switches 0 && lexeme.text.contains '\n' with
      | false => exact ih _ _
      | true => exact ih _ _

/-! ## One call -/

/-- The tokenizer is in front of lexemes that make up these items in the calls to come, and behind
them it will be on the line `last`. -/
def Lists (t : Tokenizer) (switches : Nat → Bool) (listed : List (Token × Nat)) (last : Nat) :
    Prop :=
  ∃ front ahead lexemes, t.Faces ahead last ∧ last = 1 + (front ++ ahead).count '\n' ∧
    Lexes t.operators lexemes ahead ∧ items switches front lexemes = listed

/-- What a call makes of a list of items: it hands out the first one, and leaves the others to the
calls after it. -/
structure Hands (listed : List (Token × Nat)) (switches : Nat → Bool) (last : Nat)
    (result : Option Token × Tokenizer) : Prop where
  token : result.1 = listed.head?.map Prod.fst
  line : ∀ item ∈ listed.head?, result.2.line = item.2
  lists : result.2.Lists (fun n => switches (n + 1)) listed.tail last
  done : listed = [] → result.2.line = last ∧ result.2.isDone = true

/-- The lexemes that do not surface are passed over in the same call, under the same switch. -/
theorem Faces.next_items (h : t.Faces ahead last)
    (hlast : last = 1 + (front ++ ahead).count '\n')
    (hlexes : Lexes t.operators lexemes ahead) (hswitch : t.returnNewlines = switches 0) :
    Hands (items switches front lexemes) switches last t.next.value := by
  generalize hoperators : t.operators = operators at hlexes
  induction hlexes generalizing t front with
  | nil =>
    have hline := h.line
    rw [h.next_nil]
    refine ⟨rfl, nofun, ⟨front, [], [], h, hlast, .nil, rfl⟩, fun _ => ⟨?_, h.isDone⟩⟩
    simpa using hline
  | @cons first tail rest lexemes hlexeme hrest ih =>
    subst hoperators
    obtain ⟨u, hu, hoperators, hmarkers, hnext⟩ := h.next_cons hlexeme
    have hthrough : last = 1 + ((front ++ first :: tail) ++ rest).count '\n' := by
      rw [hlast, List.append_assoc]
      rfl
    rw [hnext, hswitch, items_cons]
    cases hsurfaced : surfaced (switches 0) ⟨first :: tail, Kind.of first⟩ with
    | none =>
      -- The call goes on, and what it has passed over moves to the front.
      exact ih hu hthrough (hmarkers.trans hswitch) hoperators
    | some token =>
      refine ⟨rfl, ?_, ⟨_, rest, lexemes, hu, hthrough, hoperators ▸ hrest, rfl⟩, nofun⟩
      rintro item ⟨⟩
      have hline := hu.line
      rw [List.count_append] at hthrough
      show u.line = 1 + (front ++ first :: tail).count '\n'
      omega

theorem Lists.next (h : t.Lists switches listed last) :
    Hands listed switches last { t with returnNewlines := switches 0 }.next.value := by
  obtain ⟨front, ahead, lexemes, hfaces, hlast, hlexes, rfl⟩ := h
  have hswitched : { t with returnNewlines := switches 0 }.Faces ahead last :=
    ⟨hfaces.source, hfaces.phase⟩
  exact hswitched.next_items hlast hlexes rfl

/-! ## All calls -/

/-- The answer of a call, counted from 0, and the tokenizer after it, where markers are switched on
or off in front of every call. -/
def switchedCall (switches : Nat → Bool) : Nat → Tokenizer → Option Token × Tokenizer
  | 0, t => { t with returnNewlines := switches 0 }.next.value
  | n + 1, t =>
    switchedCall (fun n => switches (n + 1)) n
      { t with returnNewlines := switches 0 }.next.value.2

theorem Lists.switchedCall (h : t.Lists switches listed last) (n : Nat) :
    let (token, u) := switchedCall switches n t
    listed[n]? = token.map (fun token => (token, u.line)) ∧
      (token = none → u.line = last ∧ u.isDone = true) := by
  induction n generalizing t switches listed with
  | zero =>
    have hnext := h.next
    unfold Tokenizer.switchedCall
    generalize { t with returnNewlines := switches 0 }.next.value = result at hnext
    obtain ⟨token, u⟩ := result
    cases listed with
    | nil =>
      obtain rfl : token = none := hnext.token
      exact ⟨rfl, fun _ => hnext.done rfl⟩
    | cons item listed =>
      obtain rfl : token = some item.1 := hnext.token
      have hline : u.line = item.2 := hnext.line item rfl
      refine ⟨?_, nofun⟩
      rw [List.getElem?_cons_zero, Option.map_some, hline]
  | succ n ih =>
    rw [← List.getElem?_tail]
    exact ih h.next.lists

theorem exists_follows (t : Tokenizer) : ∃ settings, t.Follows settings := by
  refine ⟨⟨t.operators.pairs.map fun pair => [pair.1, pair.2], t.returnNewlines⟩, ?_, rfl⟩
  rw [Operators.ofSettings, ScanSettings.pairs, List.filterMap_map]
  exact congrArg Operators.mk List.filterMap_some.symm

theorem returnNewlines_next (t : Tokenizer) :
    t.next.value.2.returnNewlines = t.returnNewlines := by
  obtain ⟨settings, h⟩ := exists_follows t
  rw [h.next.returnNewlines, h.returnNewlines]

theorem call_eq_switchedCall (n : Nat) (t : Tokenizer) :
    call n t = Tokenizer.switchedCall (fun _ => t.returnNewlines) n t := by
  induction n generalizing t with
  | zero => rfl
  | succ n ih =>
    rw [call, ih, returnNewlines_next]
    rfl

theorem Lists.rest (h : t.Lists (fun _ => t.returnNewlines) listed last) :
    t.rest.value.1 = listed ∧ t.rest.value.2.line = last := by
  induction listed generalizing t with
  | nil =>
    have hnext : Hands [] _ last t.next.value := h.next
    rw [rest_eq, Logged.value_bind]
    generalize t.next.value = result at hnext
    obtain ⟨token, u⟩ := result
    obtain rfl : token = none := hnext.token
    exact ⟨rfl, (hnext.done rfl).1⟩
  | cons item listed ih =>
    have hnext : Hands (item :: listed) _ last t.next.value := h.next
    have hmarkers := returnNewlines_next t
    rw [rest_eq, Logged.value_bind]
    generalize t.next.value = result at hnext hmarkers
    obtain ⟨token, u⟩ := result
    obtain rfl : token = some item.1 := hnext.token
    have hlists : u.Lists (fun _ => u.returnNewlines) listed last := by
      rw [show u.returnNewlines = t.returnNewlines from hmarkers]
      exact hnext.lists
    obtain ⟨htokens, hline⟩ := ih hlists
    have hitem : u.line = item.2 := hnext.line item rfl
    simp only [Logged.value_bind, Logged.value_pure, htokens, hitem]
    exact ⟨trivial, hline⟩

theorem lists_attach {s : Source} (h : s.Holds ahead (1 + (front ++ ahead).count '\n'))
    (t : Tokenizer) (hlexes : Lexes t.operators lexemes ahead) (switches : Nat → Bool) :
    (t.attach s).value.Lists switches (items switches front lexemes)
      (1 + (front ++ ahead).count '\n') := by
  rw [value_attach]
  exact ⟨front, ahead, lexemes, faces_dispatch h, rfl, hlexes, rfl⟩

theorem line_rest_openText (text : Text) (t : Tokenizer) :
    (t.openText text >>= Tokenizer.rest).value.2.line = 1 + text.count '\n' := by
  obtain ⟨lexemes, hlexes⟩ := exists_lexes t.operators text
  have hlists : (t.openText text).value.Lists (fun _ => t.returnNewlines)
      (items (fun _ => t.returnNewlines) [] lexemes)
      (1 + (Source.withoutMark text).count '\n') :=
    ⟨[], _, lexemes, faces_openText text t, rfl, hlexes, rfl⟩
  rw [Logged.value_bind, ← Source.count_newline_withoutMark]
  exact hlists.rest.2

/-- A tokenizer hands out the lexemes of what is left in its source, wherever the source has got to
in a text and however far it has looked ahead.  Whitespace is left out, or it comes out as a marker
if there is a line break in it and markers are surfaced.  With each token, the line is that of the
end of its lexeme in the text, and after the last one that of the end of the text.  Markers may be
switched on and off in front of every call.  Then a marker comes out where the call that meets the
whitespace surfaces them, and the other tokens come out as ever, on the same lines. -/
theorem call_attached_eq_items {s : Source} (h : s.Reached text taken) (t : Tokenizer) :
    let attached := (t.attach s).value
    let lexemes := (s.lexemes t.operators).value.1
    let last := 1 + text.count '\n'
    (∃ ahead, taken ++ ahead = Source.withoutMark text ∧ Lexes t.operators lexemes ahead) ∧
      (items (fun _ => t.returnNewlines) taken lexemes).map Prod.fst =
        lexemes.filterMap (surfaced t.returnNewlines) ∧
      (∀ n, let (token, u) := call n attached
        (items (fun _ => t.returnNewlines) taken lexemes)[n]? =
            token.map (fun token => (token, u.line)) ∧
          (token = none → u.line = last ∧ u.isDone = true)) ∧
      ∀ switches : Nat → Bool,
        (∀ n, let (token, u) := switchedCall switches n attached
          (items switches taken lexemes)[n]? = token.map (fun token => (token, u.line)) ∧
            (token = none → u.line = last ∧ u.isDone = true)) ∧
          (items switches taken lexemes).filter (fun item => !item.1.isNewline) =
            items (fun _ => false) taken lexemes := by
  intro attached lexemes last
  obtain ⟨ahead, hsplit, hs⟩ := h.holds
  obtain ⟨found, u, hrun, hlexes, -⟩ := hs.lexemes t.operators
  obtain rfl : lexemes = found := congrArg Prod.fst hrun
  have hcount : last = 1 + (taken ++ ahead).count '\n' := by
    rw [hsplit, Source.count_newline_withoutMark]
  rw [← hsplit] at hs
  have hlists (switches : Nat → Bool) :
      attached.Lists switches (items switches taken lexemes) last := by
    rw [hcount]
    exact lists_attach hs t hlexes switches
  have hcalls (n : Nat) : call n attached =
      Tokenizer.switchedCall (fun _ => t.returnNewlines) n attached :=
    call_eq_switchedCall n attached
  refine ⟨⟨ahead, hsplit, hlexes⟩, map_fst_items _ _ _, fun n => ?_, fun switches => ⟨?_, ?_⟩⟩
  · rw [hcalls]
    exact (hlists fun _ => t.returnNewlines).switchedCall n
  · exact (hlists switches).switchedCall
  · exact filter_items switches taken lexemes

/-- A source that has handed out a line break behind its mark and looked six characters ahead.  Only
the third call surfaces a marker. -/
theorem switchedCall_behind_mark :
    let text := Utf8.byteOrderMark :: "\n x\n\"a\nb\"\n\n;".toList
    let s := ((Source.ofText text).value.next.value.2.peek 5).value.2
    let attached := (attach s default).value
    let switches : Nat → Bool := fun n => n == 2
    s.Reached text ['\n'] ∧
      (switchedCall switches 1 attached).1 = some (.ofText "\"a\nb\"".toList) ∧
      (switchedCall switches 1 attached).2.line = 4 ∧
      (switchedCall switches 2 attached).1 = some .newline ∧
      (switchedCall switches 2 attached).2.line = 6 ∧
      ∀ n, (switchedCall switches n attached).1 = none →
        (switchedCall switches n attached).2.line = 1 + text.count '\n' := by
  intro text s attached switches
  have hs : s.Reached text ['\n'] :=
    .peek 5 (.next (.opened (Stream.steady_ofBytes _) (Stream.bytes_ofBytes _)))
  obtain ⟨-, -, -, hswitched⟩ := call_attached_eq_items hs default
  refine ⟨hs, by decide +kernel, by decide +kernel, by decide +kernel, by decide +kernel,
    fun n hnone => ?_⟩
  exact (((hswitched switches).1 n).2 hnone).1

end SemiLex.Tokenizer
