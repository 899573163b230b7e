import SemiLex.Proofs.Lookahead
import SemiLex.Proofs.Tokens

/-!
# Settled tokenizers

A tokenizer is settled if it is done, or if the next character waits in the queue of its source and
the phase is the one that this character asks for.  Every operation leaves a settled tokenizer,
whatever source it is given, with pauses and failures in any place.  From a settled tokenizer each
round of a scan finds a lexeme and uses up the characters of it, so that a scan comes to an end, and
it hands out nothing that its own text would not scan to.
-/

namespace SemiLex

namespace Source

variable {s t : Source}

/-! ## What a run hands over -/

theorem owed_advance_of_peek {c : Char} (h : (s.peek 0).value = (some c, t)) :
    s.owed = c :: t.advance.owed := by
  have hfound := lookahead_peek 0 s
  have howed := owed_peek 0 s
  rw [h, ← List.head?_eq_getElem?] at hfound
  rw [h] at howed
  rw [← howed, owed_advance t, hfound]
  rfl

theorem owed_of_next {c : Option Char} (h : s.next.value = (c, t)) :
    s.owed = c.toList ++ t.owed := by
  have howed := owed_next s
  rwa [h] at howed

theorem owed_takeWhile (p : Char → Bool) (s : Source) :
    s.owed = (s.takeWhile p).value.1 ++ (s.takeWhile p).value.2.owed := by
  have hpeek := owed_peek 0 s
  rw [takeWhile_eq]
  simp only [Logged.value_bind]
  split
  · rename_i t ht
    rw [ht] at hpeek
    exact hpeek.symm
  · rename_i c t ht
    split
    · have hlt := size_advance_lt ht
      rw [owed_advance_of_peek ht, owed_takeWhile p t.advance]
      rfl
    · rw [ht] at hpeek
      exact hpeek.symm
termination_by s.size

theorem owed_takeThrough (mark : Char) (s : Source) :
    s.owed = (s.takeThrough mark).value.1 ++ (s.takeThrough mark).value.2.owed := by
  rw [takeThrough_eq]
  simp only [Logged.value_bind]
  split
  · rename_i t ht
    exact owed_of_next ht
  · rename_i c t ht
    split
    · exact owed_of_next ht
    · have hlt := size_next_lt ht
      rw [owed_of_next ht, owed_takeThrough mark t]
      rfl
termination_by s.size

theorem owed_takeThroughClose (s : Source) :
    s.owed = s.takeThroughClose.value.1 ++ s.takeThroughClose.value.2.owed := by
  rw [takeThroughClose_eq]
  simp only [Logged.value_bind]
  split
  · rename_i t ht
    exact owed_of_next ht
  · rename_i c t ht
    have hlt := size_next_lt ht
    rw [owed_of_next ht]
    split
    · rename_i hstar
      rcases hpeek : (t.peek 0).value with ⟨d, u⟩
      have hle : u.size ≤ t.size := by simpa [hpeek] using size_peek_le 0 t
      have howed : u.owed = t.owed := by simpa [hpeek] using owed_peek 0 t
      simp only [Logged.value_bind, hpeek]
      split
      · rename_i hslash
        rw [hstar, owed_advance_of_peek (hslash ▸ hpeek)]
        rfl
      · rw [hstar, ← howed, owed_takeThroughClose u]
        rfl
    · rw [owed_takeThroughClose t]
      rfl
termination_by s.size

theorem owed_takePunctuationRest (operators : Operators) (first : Char) (s : Source) :
    s.owed = (s.takePunctuationRest operators first).value.1 ++
      (s.takePunctuationRest operators first).value.2.owed := by
  rcases hpeek : (s.peek 0).value with ⟨second, t⟩
  have howed := owed_peek 0 s
  rw [hpeek] at howed
  simp only [takePunctuationRest, Logged.value_bind, hpeek]
  split
  · rw [← howed]
    exact owed_takeThrough first t
  · split
    · rw [← howed]
      exact owed_takeWhile _ t
    · split
      · rename_i hstar
        rw [owed_advance_of_peek (hstar.2 ▸ hpeek), owed_takeThroughClose t.advance]
        rfl
      · split
        · exact howed.symm
        · split
          · exact owed_advance_of_peek hpeek
          · exact howed.symm

theorem owed_takeRest (operators : Operators) (kind : Kind) (first : Char) (s : Source) :
    s.owed = (s.takeRest operators kind first).value.1 ++
      (s.takeRest operators kind first).value.2.owed := by
  cases kind with
  | whitespace => exact owed_takeWhile _ s
  | word => exact owed_takeWhile _ s
  | punctuation => exact owed_takePunctuationRest operators first s

theorem extractAs_of_lookahead {first : Char} {queue : Text} (h : s.lookahead = first :: queue)
    (operators : Operators) (kind : Kind) :
    ∃ tail t, (s.extractAs operators kind).value = (some ⟨first :: tail, kind⟩, t) ∧
      s.owed = first :: tail ++ t.owed := by
  have hnext : s.next.value = (some first, s.advance) := by
    simp only [next, peek, h, List.getElem?_cons_zero, Logged.value_bind, Logged.value_pure]
  have howed := owed_of_next hnext
  rw [owed_takeRest operators kind first s.advance] at howed
  refine ⟨_, _, ?_, howed⟩
  simp only [extractAs, Logged.value_bind, hnext, Logged.value_pure]

end Source

namespace Tokenizer

variable {t u : Tokenizer} {phase : Phase} {token : Token}

/-! ## Rounds of a scan -/

/-- The phase is that of the character in front of the queue, or there is none. -/
inductive Settled (t : Tokenizer) : Prop
  | done (h : t.phase = none) : Settled t
  | ready {first : Char} {queue : Text} (hqueue : t.source.lookahead = first :: queue)
    (hphase : t.phase = some (.extracting (Kind.of first))) : Settled t

/-- One round: the next lexeme, and the tokenizer in front of what follows it. -/
def round (phase : Phase) (t : Tokenizer) : Logged (Option Token × Tokenizer) := do
  let (token, source) ← t.source.extract t.operators phase
  let t ← dispatch { t with source }
  return (token, t)

def rounds : Nat → Tokenizer → Tokenizer
  | 0, t => t
  | n + 1, t => match t.phase with
    | none => t
    | some phase => rounds n (t.round phase).value.2

theorem settled_dispatch (t : Tokenizer) : t.dispatch.value.Settled := by
  have hfound := Source.lookahead_peek 0 t.source
  rw [← List.head?_eq_getElem?] at hfound
  cases hpeek : (t.source.peek 0).value.1 with
  | none =>
    apply Settled.done
    simp only [dispatch, Source.dispatch, Logged.value_bind, Logged.value_pure, hpeek,
      Option.map_none]
  | some first =>
    rw [hpeek] at hfound
    obtain ⟨queue, hqueue⟩ := List.head?_eq_some_iff.mp hfound
    refine .ready (hqueue : t.dispatch.value.source.lookahead = first :: queue) ?_
    simp only [dispatch, Source.dispatch, Logged.value_bind, Logged.value_pure, hpeek,
      Option.map_some]

theorem settled_round (phase : Phase) (t : Tokenizer) : (t.round phase).value.2.Settled :=
  settled_dispatch _

theorem Settled.round (h : t.Settled) (hphase : t.phase = some phase) :
    ∃ first tail, (t.round phase).value.1 = some (.ofText (first :: tail)) ∧
      t.source.owed = first :: tail ++ (t.round phase).value.2.source.owed := by
  cases h with
  | done hnone =>
    rw [hnone] at hphase
    cases hphase
  | @ready first queue hqueue hready =>
    obtain rfl := Option.some.inj (hready.symm.trans hphase)
    obtain ⟨tail, source, hextract, howed⟩ :=
      Source.extractAs_of_lookahead hqueue t.operators (Kind.of first)
    have hdispatch : (dispatch { t with source }).value.source.owed = source.owed :=
      Source.owed_peek 0 source
    refine ⟨first, tail, ?_, ?_⟩
    · simp only [Tokenizer.round, Source.extract, Logged.value_bind, hextract, Logged.value_pure,
        Token.ofText_cons]
    · simp only [Tokenizer.round, Source.extract, Logged.value_bind, hextract, Logged.value_pure,
        hdispatch, howed]

theorem size_round_lt (h : (t.round phase).value = (some token, u)) :
    u.source.size < t.source.size := by
  rcases hextract : (t.source.extract t.operators phase).value with ⟨found, source⟩
  simp only [round, Logged.value_bind, hextract, Logged.value_pure, Prod.mk.injEq] at h
  obtain ⟨rfl, rfl⟩ := h
  exact Nat.lt_of_le_of_lt (size_dispatch_le { t with source }) (Source.size_extract_lt hextract)

/-- A scan for the next token goes on in rounds until a lexeme surfaces. -/
theorem value_next (t : Tokenizer) :
    t.next.value = match t.phase with
      | none => (none, t)
      | some phase => match (t.round phase).value with
        | (none, u) => (none, u)
        | (some lexeme, u) => match surfaced u.returnNewlines lexeme with
          | some token => (some token, u)
          | none => u.next.value := by
  rw [next_eq]
  cases hphase : t.phase with
  | none => rfl
  | some phase =>
    rcases hextract : (t.source.extract t.operators phase).value with ⟨_ | lexeme, source⟩
    · simp only [round, Logged.value_bind, hextract, Logged.value_pure, hphase]
    · simp only [round, Logged.value_bind, hextract, Logged.value_pure, hphase, surfaced]
      generalize (dispatch _).value = u
      cases lexeme.isWhitespace with
      | false => rfl
      | true => cases u.returnNewlines && lexeme.text.contains '\n' <;> rfl

/-! ## Calls -/

theorem eq_of_surfaced {markers : Bool} {lexeme : Token}
    (h : surfaced markers lexeme = some token) :
    token = .newline ∨ token = lexeme ∧ token.isWhitespace = false := by
  unfold surfaced at h
  split at h
  · rename_i hsolid
    cases h
    exact Or.inr ⟨rfl, by simpa using hsolid⟩
  · split at h
    · cases h
      exact Or.inl rfl
    · cases h

/-- What a call does to a settled tokenizer. -/
structure Scanned (t : Tokenizer) (result : Option Token) (u : Tokenizer) : Prop where
  settled : u.Settled
  rounds : ∃ n, u = rounds n t
  token : ∀ token ∈ result, token = .ofText token.text ∧
    (token.isWhitespace = true → token = .newline)
  done : result = none → u.phase = none

theorem Settled.next {t : Tokenizer} (h : t.Settled) : Scanned t t.next.value.1 t.next.value.2 := by
  rw [value_next]
  cases hphase : t.phase with
  | none => exact ⟨h, ⟨0, rfl⟩, nofun, fun _ => hphase⟩
  | some phase =>
    obtain ⟨first, tail, hfound, -⟩ := h.round hphase
    have hsettled := settled_round phase t
    have hone (n : Nat) : rounds n (t.round phase).value.2 = rounds (n + 1) t := by
      rw [rounds, hphase]
    rcases hround : (t.round phase).value with ⟨lexeme, u⟩
    rw [hround] at hfound hsettled hone
    cases hfound
    simp only [hround]
    cases hsurfaced : surfaced u.returnNewlines (.ofText (first :: tail)) with
    | some token =>
      refine ⟨hsettled, ⟨1, hone 0⟩, ?_, nofun⟩
      rintro _ ⟨⟩
      rcases eq_of_surfaced hsurfaced with rfl | ⟨rfl, hsolid⟩
      · exact ⟨Token.ofText_newline.symm, fun _ => rfl⟩
      · refine ⟨rfl, fun hblank => ?_⟩
        rw [hsolid] at hblank
        cases hblank
    | none =>
      -- The lexeme is dropped, and the call goes on with the input that is left.
      have hlt := size_round_lt hround
      have hnext := hsettled.next
      refine ⟨hnext.settled, ?_, hnext.token, hnext.done⟩
      obtain ⟨n, hn⟩ := hnext.rounds
      exact ⟨n + 1, hn.trans (hone n)⟩
termination_by t.source.size

theorem Settled.rounds (h : t.Settled) (n : Nat) : (rounds n t).Settled := by
  induction n generalizing t with
  | zero => exact h
  | succ n ih =>
    unfold Tokenizer.rounds
    split
    · exact h
    · exact ih (settled_round _ t)

theorem Settled.exists_rounds_isDone {t : Tokenizer} (h : t.Settled) :
    ∃ n, (Tokenizer.rounds n t).isDone = true := by
  cases hphase : t.phase with
  | none => exact ⟨0, Option.isNone_iff_eq_none.mpr hphase⟩
  | some phase =>
    obtain ⟨first, tail, hfound, -⟩ := h.round hphase
    have hlt : (t.round phase).value.2.source.size < t.source.size :=
      size_round_lt (Prod.ext hfound rfl)
    obtain ⟨n, hn⟩ := (settled_round phase t).exists_rounds_isDone
    refine ⟨n + 1, ?_⟩
    rw [Tokenizer.rounds, hphase]
    exact hn
termination_by t.source.size

/-! ## Every tokenizer that can be had -/

/-- `u` is what `t` becomes in any operations that open nothing. -/
inductive ReadsOn (t : Tokenizer) : Tokenizer → Prop
  | now : ReadsOn t t
  | next {u : Tokenizer} (h : ReadsOn t u) : ReadsOn t u.next.value.2
  | setReturnNewlines {u : Tokenizer} (markers : Bool) (h : ReadsOn t u) :
    ReadsOn t { u with returnNewlines := markers }
  | takeFailure {u : Tokenizer} (h : ReadsOn t u) : ReadsOn t u.takeFailure.2
  | close {u : Tokenizer} (h : ReadsOn t u) : ReadsOn t u.close.value

inductive Reachable : Tokenizer → Prop
  | ofSettings (settings : ScanSettings) : Reachable (ofSettings settings)
  | attach {t : Tokenizer} (source : Source) (h : Reachable t) :
    Reachable (t.attach source).value
  | openText {t : Tokenizer} (text : Text) (h : Reachable t) : Reachable (t.openText text).value
  | tryOpen {t : Tokenizer} (files : FileTree) (path : String) (h : Reachable t) :
    Reachable (t.tryOpen files path).value.2
  | openFile {t : Tokenizer} (files : FileTree) (path : String) (h : Reachable t) :
    Reachable (t.openFile files path).value.2
  | readsOn {t u : Tokenizer} (h : Reachable t) (hu : ReadsOn t u) : Reachable u

theorem Settled.of_phase_of_lookahead (h : t.Settled) (hphase : u.phase = t.phase)
    (hqueue : u.source.lookahead = t.source.lookahead) : u.Settled := by
  cases h with
  | done hdone => exact .done (hphase.trans hdone)
  | ready hready hkind => exact .ready (hqueue.trans hready) (hphase.trans hkind)

theorem Settled.readsOn (h : t.Settled) (hu : ReadsOn t u) : u.Settled := by
  induction hu with
  | now => exact h
  | next _ ih => exact ih.next.settled
  | setReturnNewlines markers _ ih => exact ih.of_phase_of_lookahead rfl rfl
  | takeFailure _ ih => exact ih.of_phase_of_lookahead rfl rfl
  | close _ _ => exact .done rfl

theorem settled_tryOpen (files : FileTree) (path : String) (t : Tokenizer) :
    (t.tryOpen files path).value.2.Settled := by
  simp only [tryOpen, Logged.value_bind]
  split
  · exact settled_dispatch _
  · exact .done rfl

theorem value_openFile (files : FileTree) (path : String) (t : Tokenizer) :
    (t.openFile files path).value =
      ((t.tryOpen files path).value.1.isOk, (t.tryOpen files path).value.2) := by
  simp only [openFile, Logged.value_bind]
  rcases (t.tryOpen files path).value with ⟨⟨⟩ | ⟨⟩, u⟩ <;> rfl

theorem Reachable.settled (h : Reachable t) : t.Settled := by
  induction h with
  | ofSettings settings => exact .done rfl
  | attach source _ _ => exact settled_dispatch _
  | openText text _ _ =>
    rw [value_openText]
    exact settled_dispatch _
  | tryOpen files path _ _ => exact settled_tryOpen files path _
  | openFile files path _ _ =>
    rw [value_openFile]
    exact settled_tryOpen files path _
  | readsOn _ hu ih => exact ih.readsOn hu

theorem ReadsOn.phase_eq_none (hu : ReadsOn t u) (h : t.phase = none) : u.phase = none := by
  induction hu with
  | now => exact h
  | next _ ih =>
    rw [value_next, ih]
    exact ih
  | setReturnNewlines markers _ ih => exact ih
  | takeFailure _ ih => exact ih
  | close _ _ => rfl

/-- Whatever operations a tokenizer has behind it, it is settled, and so it is in front of each
round of a scan.  A round finds a lexeme, of the kind of its first character, and uses up its
characters, so that a scan comes to an end.  A call hands out a token that its own text would be
scanned as, whitespace only as a marker; and when it hands out none, the tokenizer is done until
another source is opened. -/
theorem reachable_settled (h : Reachable t) :
    (∀ n, (rounds n t).Settled ∧ ∀ phase ∈ (rounds n t).phase,
      let (lexeme, u) := ((rounds n t).round phase).value
      ∃ first tail, lexeme = some (.ofText (first :: tail)) ∧
        (rounds n t).source.owed = first :: tail ++ u.source.owed) ∧
    (∃ n, (rounds n t).isDone = true) ∧
    let (token, u) := t.next.value
    (∃ n, u = rounds n t) ∧
      (∀ found ∈ token, found = .ofText found.text ∧
        (found.isWhitespace = true → found = .newline)) ∧
      (token = none → ∀ v, ReadsOn u v → v.isDone = true ∧ v.next.value.1 = none) := by
  have hsettled := h.settled
  have hnext := hsettled.next
  refine ⟨fun n => ⟨hsettled.rounds n, fun phase hphase => ?_⟩, hsettled.exists_rounds_isDone,
    hnext.rounds, hnext.token, fun hnone v hv => ?_⟩
  · exact (hsettled.rounds n).round hphase
  · have hphase : v.phase = none := hv.phase_eq_none (hnext.done hnone)
    refine ⟨Option.isNone_iff_eq_none.mpr hphase, ?_⟩
    rw [value_next, hphase]

/-- The input pauses behind a word.  The word ends there, and the look ahead after it finds the
input going on. -/
theorem reachable_settled_paused :
    let paused : Stream := ⟨[], [.data [0x61], .data [], .data [0x2b, 0x0a]]⟩
    let t := ((ofSettings .default).attach (Source.ofStream paused).value).value
    Reachable t ∧ t.phase = some (.extracting .word) ∧
      t.next.value.1 = some (.ofText ['a']) ∧
      t.next.value.2.phase = some (.extracting .punctuation) ∧
      (∃ n, t.next.value.2 = rounds n t) ∧ ∃ n, (rounds n t).isDone = true := by
  intro paused t
  have hreachable : Reachable t := (Reachable.ofSettings .default).attach _
  have hword : t.phase = some (.extracting .word) := by decide +kernel
  have hnext : t.next.value.1 = some (.ofText ['a']) := by decide +kernel
  have hoperator : t.next.value.2.phase = some (.extracting .punctuation) := by decide +kernel
  clear_value t
  obtain ⟨-, hdone, hrounds, -⟩ := reachable_settled hreachable
  exact ⟨hreachable, hword, hnext, hoperator, hrounds, hdone⟩

end Tokenizer

end SemiLex
