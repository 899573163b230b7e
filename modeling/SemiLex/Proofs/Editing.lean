import Mathlib.Data.List.Induction
import SemiLex.Proofs.Reopening
import SemiLex.Proofs.Retention

/-!
# Edited semi-expressions

A semi-expression changes by edits, and that of a collector by calls, too.  Every edit leaves out or
refuses empty tokens, and a refused edit changes nothing.  The one exception is the assignment to a
position, which takes any token: along a sequence of edits all stored tokens have a text just if no
empty one is assigned.
-/

namespace SemiLex

/-- An invariant holds in every moment of a run just if no action of the run breaks it. -/
theorem forall_prefix_foldl_iff {σ α : Type} {after : σ → α → σ} (Keeps : σ → Prop)
    {Breaks : σ → α → Prop} (hstep : ∀ s a, Keeps s → (Keeps (after s a) ↔ ¬ Breaks s a)) {s : σ}
    (hs : Keeps s) (actions : List α) :
    (∀ before, before <+: actions → Keeps (before.foldl after s)) ↔
      ∀ before a, before ++ [a] <+: actions → ¬ Breaks (before.foldl after s) a := by
  constructor
  · intro hall before a hprefix
    have hbefore := hall before ((List.prefix_append before [a]).trans hprefix)
    have hafter := hall (before ++ [a]) hprefix
    rw [List.foldl_concat] at hafter
    exact (hstep _ a hbefore).mp hafter
  · intro hnone before
    induction before using List.reverseRecOn with
    | nil => exact fun _ => hs
    | append_singleton before a ih =>
      intro hprefix
      have hbefore := ih ((List.prefix_append before [a]).trans hprefix)
      rw [List.foldl_concat]
      exact (hstep _ a hbefore).mpr (hnone before a hprefix)

namespace SemiExpression

/-! ## Edits -/

inductive Edit where
  | clear
  | collect (tokens : List Token)
  | push (token : Token)
  | extend (tokens : List Token)
  | insert (index : Nat) (token : Token)
  | set (index : Nat) (token : Token)
  | assign (index : Nat) (token : Token)
  | remove (index : Nat)
  | removeToken (text : Text)
  | trim (keepNewlines : Bool)
  deriving DecidableEq, Repr

/-- The semi-expression after an edit, and whether the edit was made, of those that say so.  An
assignment outside of the semi-expression is none. -/
def edited (s : SemiExpression) : Edit → Option Bool × SemiExpression
  | .clear => (none, ∅)
  | .collect tokens => (none, ofTokens tokens)
  | .push token => (none, s.push token)
  | .extend tokens => (none, s.extend tokens)
  | .insert index token => (s.insert index token).map some id
  | .set index token => (s.set index token).map some id
  | .assign index token => (none, (s.assign index token).toOption.getD s)
  | .remove index => (s.remove index).map some id
  | .removeToken text => (s.removeToken text).map some id
  | .trim keepNewlines => (none, s.trim keepNewlines)

def after (s : SemiExpression) (edit : Edit) : SemiExpression :=
  (s.edited edit).2

/-- The tokens that an edit brings. -/
def Edit.tokens : Edit → List Token
  | .collect tokens | .extend tokens => tokens
  | .push token | .insert _ token | .set _ token | .assign _ token => [token]
  | .clear | .remove _ | .removeToken _ | .trim _ => []

/-- The edit puts an empty token in the place of another one. -/
inductive Edit.PutsEmpty (s : SemiExpression) : Edit → Prop
  | assign {index : Nat} {token : Token} (hindex : index < s.length)
    (htoken : token.isEmpty = true) : PutsEmpty s (.assign index token)

def Filled (s : SemiExpression) : Prop :=
  ∀ token ∈ s.tokens, token.isEmpty = false

instance (s : SemiExpression) : Decidable s.Filled :=
  inferInstanceAs (Decidable (∀ token ∈ s.tokens, token.isEmpty = false))

variable {s : SemiExpression} {edit : Edit} {tokens : List Token} {token t : Token} {index : Nat}
  {text : Text}

theorem mem_ofTokens (h : token ∈ (ofTokens tokens).tokens) :
    token ∈ tokens ∧ token.isEmpty = false := by
  simpa [ofTokens] using h

theorem mem_push (h : token ∈ (s.push t).tokens) :
    token ∈ s.tokens ∨ token = t ∧ token.isEmpty = false := by
  unfold push at h
  split at h
  · exact Or.inl h
  · rename_i hempty
    rcases List.mem_append.mp h with h | h
    · exact Or.inl h
    · obtain rfl := List.mem_singleton.mp h
      exact Or.inr ⟨rfl, by simpa using hempty⟩

theorem mem_extend (h : token ∈ (s.extend tokens).tokens) :
    token ∈ s.tokens ∨ token ∈ tokens ∧ token.isEmpty = false := by
  simpa [extend] using h

theorem mem_insert (h : token ∈ (s.insert index t).2.tokens) :
    token ∈ s.tokens ∨ token = t ∧ token.isEmpty = false := by
  unfold insert at h
  split at h
  · rename_i hmade
    rcases List.mem_append.mp h with h | h
    · exact Or.inl (List.mem_of_mem_take h)
    · rcases List.mem_cons.mp h with rfl | h
      · exact Or.inr ⟨rfl, hmade.2⟩
      · exact Or.inl (List.mem_of_mem_drop h)
  · exact Or.inl h

theorem mem_set (h : token ∈ (s.set index t).2.tokens) :
    token ∈ s.tokens ∨ token = t ∧ token.isEmpty = false := by
  unfold set at h
  split at h
  · rename_i hmade
    rcases List.mem_or_eq_of_mem_set h with h | rfl
    · exact Or.inl h
    · exact Or.inr ⟨rfl, hmade.2⟩
  · exact Or.inl h

theorem mem_remove (h : token ∈ (s.remove index).2.tokens) : token ∈ s.tokens := by
  unfold remove at h
  split at h
  · exact List.mem_of_mem_eraseIdx h
  · exact h

theorem mem_removeToken (h : token ∈ (s.removeToken text).2.tokens) : token ∈ s.tokens := by
  unfold removeToken at h
  split at h
  · exact mem_remove h
  · exact h

theorem after_assign (s : SemiExpression) (index : Nat) (token : Token) :
    s.after (.assign index token) =
      if index < s.length then ⟨s.tokens.set index token⟩ else s := by
  show (s.assign index token).toOption.getD s = _
  unfold assign
  by_cases hindex : index < s.length
  · rw [if_pos hindex, if_pos hindex]
    rfl
  · rw [if_neg hindex, if_neg hindex]
    rfl

/-- What is stored after an edit was there before or is brought by the edit, and only an assignment
brings what is empty. -/
theorem mem_after (h : token ∈ (s.after edit).tokens) :
    token ∈ s.tokens ∨
      token ∈ edit.tokens ∧ (token.isEmpty = false ∨ edit.PutsEmpty s) := by
  cases edit with
  | clear => exact absurd h List.not_mem_nil
  | collect tokens => exact Or.inr ((mem_ofTokens h).imp_right Or.inl)
  | push t => exact (mem_push h).imp_right fun h => ⟨List.mem_singleton.mpr h.1, Or.inl h.2⟩
  | extend tokens => exact (mem_extend h).imp_right fun h => h.imp_right Or.inl
  | insert index t =>
    exact (mem_insert h).imp_right fun h => ⟨List.mem_singleton.mpr h.1, Or.inl h.2⟩
  | set index t =>
    exact (mem_set h).imp_right fun h => ⟨List.mem_singleton.mpr h.1, Or.inl h.2⟩
  | assign index t =>
    rw [after_assign] at h
    split at h
    · rename_i hindex
      rcases List.mem_or_eq_of_mem_set h with h | rfl
      · exact Or.inl h
      · refine Or.inr ⟨List.mem_singleton.mpr rfl, ?_⟩
        cases hempty : token.isEmpty with
        | false => exact Or.inl rfl
        | true => exact Or.inr (.assign hindex hempty)
    · exact Or.inl h
  | remove index => exact Or.inl (mem_remove h)
  | removeToken text => exact Or.inl (mem_removeToken h)
  | trim keepNewlines => exact Or.inl (List.mem_of_mem_filter h)

theorem Filled.after_iff (h : s.Filled) (edit : Edit) :
    (s.after edit).Filled ↔ ¬ edit.PutsEmpty s := by
  constructor
  · rintro hfilled ⟨hindex, hempty⟩
    rename_i index token
    rw [after_assign, if_pos hindex] at hfilled
    have hstored := hfilled token (List.mem_set hindex token)
    rw [hempty] at hstored
    cases hstored
  · intro hputs token htoken
    rcases mem_after htoken with hstored | ⟨-, hnonempty | hempty⟩
    · exact h token hstored
    · exact hnonempty
    · exact absurd hempty hputs

/-! ## Refused edits -/

theorem snd_ite_of_refused {p : Prop} [Decidable p] {made : SemiExpression}
    (h : (if p then (true, made) else (false, s)).1 = false) :
    (if p then (true, made) else (false, s)).2 = s := by
  split at h
  · cases h
  · rename_i hp
    rw [if_neg hp]

theorem insert_of_refused (h : (s.insert index t).1 = false) : (s.insert index t).2 = s :=
  snd_ite_of_refused h

theorem set_of_refused (h : (s.set index t).1 = false) : (s.set index t).2 = s :=
  snd_ite_of_refused h

theorem remove_of_refused (h : (s.remove index).1 = false) : (s.remove index).2 = s :=
  snd_ite_of_refused h

theorem removeToken_of_refused (h : (s.removeToken text).1 = false) :
    (s.removeToken text).2 = s := by
  revert h
  unfold removeToken
  split
  · exact remove_of_refused
  · exact fun _ => rfl

theorem edited_of_refused (h : (s.edited edit).1 = some false) : (s.edited edit).2 = s := by
  cases edit with
  | insert index t => exact insert_of_refused (Option.some.inj h)
  | set index t => exact set_of_refused (Option.some.inj h)
  | remove index => exact remove_of_refused (Option.some.inj h)
  | removeToken text => exact removeToken_of_refused (Option.some.inj h)
  | clear | collect | push | extend | assign | trim => cases h

end SemiExpression

namespace Collector

variable {s t : Tokenizer} {P : Token → Prop}

/-! ## Collected tokens

What holds of every token that a tokenizer hands out from here on, holds of every token that is
collected from it. -/

theorem forall_mem_collectUnit (h : ∀ u, s.Later u → ∀ token ∈ u.next.value.1, P token)
    (hlater : s.Later t) (settings : GroupSettings) :
    ∀ token ∈ (collectUnit settings t).value.1.tokens, P token := by
  intro token htoken
  obtain ⟨htaken, -⟩ := SemiExpression.mem_ofTokens (List.mem_of_mem_filter htoken)
  exact (forall_mem_takeUnit (fun _ hu => hu.next) h hlater settings none token htaken).1

theorem forall_mem_mergeClauses (h : ∀ u, s.Later u → ∀ token ∈ u.next.value.1, P token)
    (hlater : s.Later t) (settings : GroupSettings) {semi : SemiExpression}
    (hsemi : ∀ token ∈ semi.tokens, P token) (line : Nat) :
    ∀ token ∈ (mergeClauses settings semi line t).value.1.tokens, P token := by
  rw [mergeClauses]
  split
  · have hsecond := forall_mem_collectUnit h hlater settings
    have hthird := forall_mem_collectUnit h (later_collectUnit hlater settings) settings
    intro token htoken
    rcases SemiExpression.mem_extend htoken with htoken | ⟨htoken, -⟩
    · rcases SemiExpression.mem_extend htoken with htoken | ⟨htoken, -⟩
      · exact hsemi token htoken
      · exact hsecond token htoken
    · exact hthird token htoken
  · exact hsemi

theorem forall_mem_next {c : Collector}
    (h : ∀ u, c.tokenizer.Later u → ∀ token ∈ u.next.value.1, P token) :
    ∀ token ∈ c.next.value.2.semi.tokens, P token := by
  have hunit := forall_mem_collectUnit h .now c.settings
  exact forall_mem_mergeClauses h (later_collectUnit .now c.settings) c.settings hunit c.line

theorem filled_next (c : Collector) : c.next.value.2.semi.Filled := by
  refine forall_mem_next fun u _ token htoken => ?_
  exact (Tokenizer.isWhitespace_of_next (Prod.ext htoken rfl)).1

/-! ## Collectors at work -/

/-- What is done with a collector that is read, and edited by the edits of its semi-expression. -/
inductive Move where
  | openText (text : Text)
  | tryOpen (files : FileTree) (path : String)
  | openFile (files : FileTree) (path : String)
  | close
  | next
  | takeSemi
  | edit (change : SemiExpression.Edit)
  | setSettings (settings : GroupSettings)

def Move.operation : Move → Operation
  | .openText text => .openText text
  | .tryOpen files path => .tryOpen files path
  | .openFile files path => .openFile files path
  | .close => .close
  | .next => .next
  | .takeSemi => .takeSemi
  | .edit change => .edit fun semi => semi.after change
  | .setSettings settings => .setSettings settings

def moved (c : Collector) (move : Move) : Collector :=
  c.after move.operation

inductive Move.PutsEmpty (c : Collector) : Move → Prop
  | edit {change : SemiExpression.Edit} (h : change.PutsEmpty c.semi) : PutsEmpty c (.edit change)

theorem filled_moved_iff {c : Collector} (h : c.semi.Filled) (move : Move) :
    (c.moved move).semi.Filled ↔ ¬ move.PutsEmpty c := by
  cases move with
  | edit change =>
    refine (h.after_iff change).trans (not_congr ⟨.edit, ?_⟩)
    rintro ⟨hputs⟩
    exact hputs
  | next => exact iff_of_true (filled_next c) nofun
  | takeSemi => exact iff_of_true (List.forall_mem_nil _) nofun
  | openText | tryOpen | openFile | close | setSettings => exact iff_of_true h nofun

end Collector

/-- Through any sequence of edits, and through anything that is done with a collector and the
semi-expression in it, the stored tokens are not empty in any moment, just if no assignment puts an
empty token in the place of another one.  A refused edit leaves every semi-expression as it is. -/
theorem filled_throughout_iff (edits : List SemiExpression.Edit) (settings : Settings)
    (moves : List Collector.Move) :
    ((∀ before, before <+: edits → (before.foldl SemiExpression.after ∅).Filled) ↔
      ∀ before edit, before ++ [edit] <+: edits →
        ¬ edit.PutsEmpty (before.foldl SemiExpression.after ∅)) ∧
    ((∀ before, before <+: moves →
        (before.foldl Collector.moved (.ofSettings settings)).semi.Filled) ↔
      ∀ before move, before ++ [move] <+: moves →
        ¬ move.PutsEmpty (before.foldl Collector.moved (.ofSettings settings))) ∧
    ∀ (s : SemiExpression) (edit : SemiExpression.Edit),
      (s.edited edit).1 = some false → (s.edited edit).2 = s := by
  have hempty : (∅ : SemiExpression).Filled := List.forall_mem_nil _
  refine ⟨?_, ?_, fun s edit => ?_⟩
  · exact forall_prefix_foldl_iff SemiExpression.Filled (fun _ edit h => h.after_iff edit) hempty
      edits
  · exact forall_prefix_foldl_iff (fun c : Collector => c.semi.Filled)
      (fun _ move h => Collector.filled_moved_iff h move) hempty moves
  · exact SemiExpression.edited_of_refused

/-- A collected semi-expression that refuses an empty token and has another one assigned, and the
empty one that is left where it is taken. -/
theorem filled_throughout_assigned :
    let moves : List Collector.Move := [.openText "a b;".toList, .next,
      .edit (.insert 0 (.ofText [])), .edit (.assign 1 (.ofText ['c'])), .takeSemi]
    let s : SemiExpression := ⟨[.ofText ['a']]⟩
    (∀ before, before <+: moves →
        (before.foldl Collector.moved (.ofSettings .default)).semi.Filled) ∧
      ((moves.take 4).foldl Collector.moved (.ofSettings .default)).semi =
        ⟨[.ofText ['a'], .ofText ['c'], .ofText [';']]⟩ ∧
      (s.edited (.set 0 (.ofText []))).1 = some false ∧
      (s.edited (.set 0 (.ofText []))).2 = s := by
  intro moves s
  obtain ⟨-, hmoves, hrefused⟩ := filled_throughout_iff [] .default moves
  have hanswer : (s.edited (.set 0 (.ofText []))).1 = some false := by decide
  refine ⟨hmoves.mpr fun before move hprefix => ?_, by decide +kernel, hanswer,
    hrefused s (.set 0 (.ofText [])) hanswer⟩
  have hmove : move ∈ moves :=
    hprefix.subset (List.mem_append_right before (List.mem_singleton_self move))
  simp only [moves, List.mem_cons, List.not_mem_nil, or_false] at hmove
  rcases hmove with rfl | rfl | rfl | rfl | rfl
  case inr.inr.inr.inl =>
    rintro ⟨⟨-, hempty⟩⟩
    cases hempty
  all_goals nofun

/-- An empty token is assigned, and stored. -/
theorem not_filled_assigned_empty :
    ¬ ([SemiExpression.Edit.collect [.ofText ['a'], .ofText ['b']],
      .assign 0 (.ofText [])].foldl SemiExpression.after ∅).Filled := by
  decide

end SemiLex
