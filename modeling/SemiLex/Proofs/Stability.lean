import SemiLex.Proofs.Spacing

/-!
# Texts that are cut off

A text that goes on behind its end has the lexemes that it had, apart from the last one, which may
become longer, be another one, or turn into a comment and disappear.  Surfacing, leaving out
comments, cutting into units and joining them never look further ahead than that, so that all
semi-expressions but the last one are final.
-/

namespace SemiLex

/-! ## Lists that agree but for their ends -/

/-- The second list goes on as it likes behind the first one, which may lose its last element. -/
def Continues {α : Type} (xs ys : List α) : Prop :=
  ∃ kept last rest, xs = kept ++ last ∧ last.length ≤ 1 ∧ ys = kept ++ rest

namespace Continues

variable {α β : Type} {xs ys : List α}

theorem of_length_le_one (h : xs.length ≤ 1) (ys : List α) : Continues xs ys :=
  ⟨[], xs, ys, rfl, h, rfl⟩

theorem nil (ys : List α) : Continues [] ys :=
  ⟨[], [], ys, rfl, Nat.zero_le 1, rfl⟩

theorem singleton (x : α) (ys : List α) : Continues [x] ys :=
  ⟨[], [x], ys, rfl, Nat.le_refl 1, rfl⟩

theorem cons (x : α) (h : Continues xs ys) : Continues (x :: xs) (x :: ys) := by
  obtain ⟨kept, last, rest, rfl, hlast, rfl⟩ := h
  exact ⟨x :: kept, last, rest, rfl, hlast, rfl⟩

theorem filterMap (f : α → Option β) (h : Continues xs ys) :
    Continues (xs.filterMap f) (ys.filterMap f) := by
  obtain ⟨kept, last, rest, rfl, hlast, rfl⟩ := h
  refine ⟨kept.filterMap f, last.filterMap f, rest.filterMap f, List.filterMap_append, ?_,
    List.filterMap_append⟩
  exact Nat.le_trans (List.length_filterMap_le f last) hlast

theorem filter (p : α → Bool) (h : Continues xs ys) : Continues (xs.filter p) (ys.filter p) := by
  rw [← List.filterMap_eq_filter]
  exact h.filterMap _

theorem isPrefix_dropLast (h : Continues xs ys) : xs.dropLast <+: ys := by
  obtain ⟨kept, last, rest, rfl, hlast, rfl⟩ := h
  cases last with
  | nil =>
    rw [List.append_nil]
    have hkept := List.dropLast_prefix kept
    exact hkept.trans (List.prefix_append kept rest)
  | cons x last =>
    obtain rfl := List.length_eq_zero_iff.mp (Nat.le_zero.mp (Nat.le_of_succ_le_succ hlast))
    rw [List.dropLast_concat]
    exact List.prefix_append kept rest

end Continues

/-! ## Lexemes -/

variable {operators : Operators} {lexemes lexemes' : List Token} {text more : Text}

theorem exists_lexes (operators : Operators) (text : Text) :
    ∃ lexemes, Lexes operators lexemes text :=
  Tokenizer.exists_lexes operators (Utf8.byteOrderMark :: text)

/-- A lexeme with something behind it is there to stay: it depends on no more than the character
behind it. -/
theorem Lexes.cons_append {first next : Char} {tail rest : Text}
    (h : IsLexeme operators (Kind.of first) (first :: tail) (next :: rest))
    (hmore : Lexes operators lexemes (next :: rest ++ more)) :
    Lexes operators (⟨first :: tail, Kind.of first⟩ :: lexemes)
      (first :: (tail ++ next :: rest) ++ more) := by
  have hstays : IsLexeme operators (Kind.of first) (first :: tail) (next :: rest ++ more) :=
    h.congr_head? rfl
  rw [List.cons_append, List.append_assoc]
  exact .cons hstays hmore

theorem Lexes.continues (h : Lexes operators lexemes text)
    (h' : Lexes operators lexemes' (text ++ more)) : Continues lexemes lexemes' := by
  induction h generalizing lexemes' with
  | nil => exact .nil lexemes'
  | @cons first tail rest lexemes hlexeme hrest ih =>
    cases hrest with
    | nil =>
      -- Nothing follows, so this is the lexeme that may become any other.
      exact .singleton _ lexemes'
    | @cons second tail' rest' lexemes hsecond hrest' =>
      obtain ⟨others, hothers⟩ := exists_lexes operators (second :: (tail' ++ rest') ++ more)
      rw [h'.unique (.cons_append hlexeme hothers)]
      exact (ih hothers).cons _

theorem Source.exists_withoutMark_append (text more : Text) :
    ∃ more', withoutMark (text ++ more) = withoutMark text ++ more' := by
  cases text with
  | nil => exact ⟨withoutMark more, rfl⟩
  | cons c text =>
    refine ⟨more, ?_⟩
    rw [List.cons_append, withoutMark, withoutMark]
    split <;> rfl

theorem Tokenizer.continues_tokensOf (settings : ScanSettings) (text more : Text) :
    Continues (tokensOf settings text) (tokensOf settings (text ++ more)) := by
  obtain ⟨lexemes, hlexes⟩ := exists_lexes (.ofSettings settings) text
  obtain ⟨lexemes', hlexes'⟩ := exists_lexes (.ofSettings settings) (text ++ more)
  rw [tokensOf_eq settings hlexes, tokensOf_eq settings hlexes']
  obtain ⟨more', hmore⟩ := Source.exists_withoutMark_append text more
  exact (hlexes.continues (hmore ▸ hlexes')).filterMap _

/-! ## Groups -/

namespace Grouping

variable {keepMarkers : Bool} {unit tokens tokens' : List Token} {parts parts' : List (List Token)}

theorem exists_units_append (keepMarkers : Bool) (unit kept : List Token) :
    ∃ closed opened, ∀ tokens, units keepMarkers unit (kept ++ tokens) =
      closed ++ units keepMarkers opened tokens := by
  induction kept generalizing unit with
  | nil => exact ⟨[], unit, fun _ => rfl⟩
  | cons t kept ih =>
    simp only [List.cons_append, units_cons]
    split
    · obtain ⟨closed, opened, hunits⟩ := ih []
      refine ⟨(unit ++ added keepMarkers unit t) :: closed, opened, fun tokens => ?_⟩
      rw [hunits, List.cons_append]
    · exact ih _

theorem length_units_nil_le : (units keepMarkers unit []).length ≤ 1 := by
  unfold units
  split
  · exact Nat.zero_le 1
  · exact Nat.le_refl 1

theorem length_units_le (h : tokens.length ≤ 1) : (units keepMarkers unit tokens).length ≤ 1 := by
  match tokens with
  | [] => exact length_units_nil_le
  | [t] =>
    rw [units_cons]
    split
    · exact Nat.le_refl 1
    · exact length_units_nil_le

theorem continues_units (h : Continues tokens tokens') :
    Continues (units keepMarkers unit tokens) (units keepMarkers unit tokens') := by
  obtain ⟨kept, last, rest, rfl, hlast, rfl⟩ := h
  obtain ⟨closed, opened, hunits⟩ := exists_units_append keepMarkers unit kept
  rw [hunits, hunits]
  exact ⟨closed, _, _, rfl, length_units_le hlast, rfl⟩

theorem length_joined_le_one (h : parts.length ≤ 1) : (joined parts).length ≤ 1 := by
  match parts with
  | [] => rw [joined_nil]; exact Nat.zero_le 1
  | [unit] =>
    rw [joined_cons]
    split <;> simp

/-- A unit with `for` that lacks one of its clauses is the last one, or the cut is behind it. -/
theorem continues_joined (h : Continues parts parts') :
    Continues (joined parts) (joined parts') := by
  obtain ⟨kept, last, rest, rfl, hlast, rfl⟩ := h
  fun_induction joined kept with
  | case1 => exact .of_length_le_one (length_joined_le_one hlast) _
  | case2 unit kept hfor ih =>
    rw [List.cons_append, List.cons_append, joined_cons, joined_cons, if_pos hfor, if_pos hfor]
    by_cases hclauses : 2 ≤ kept.length
    · rw [List.take_append_of_le_length hclauses, List.take_append_of_le_length hclauses,
        List.drop_append_of_le_length hclauses, List.drop_append_of_le_length hclauses]
      exact ih.cons _
    · -- Behind it, fewer units than clauses are there to stay, so its group is the last one.
      have hnone : (kept ++ last).drop 2 = [] := by
        rw [List.drop_eq_nil_iff, List.length_append]
        omega
      rw [hnone, joined_nil]
      exact .singleton _ _
  | case3 unit kept hfor ih =>
    rw [List.cons_append, List.cons_append, joined_cons, joined_cons, if_neg hfor, if_neg hfor]
    exact ih.cons _

theorem continues_groups (settings : GroupSettings) (h : Continues tokens tokens') :
    Continues (groups settings tokens) (groups settings tokens') :=
  continues_joined (continues_units (h.filter _))

end Grouping

/-- Whatever comes after a text, the semi-expressions that the text makes stay as they are, apart
from the last one. -/
theorem Collector.isPrefix_dropLast_collected (settings : Settings) (text more : Text) :
    (collected settings text).dropLast <+: collected settings (text ++ more) := by
  rw [collected_eq, collected_eq]
  exact (Grouping.continues_groups _ (Tokenizer.continues_tokensOf _ text more)).isPrefix_dropLast

/-- The last semi-expression may also disappear, in a comment. -/
example : Collector.collected .default "a;/".toList =
      [[.ofText ['a'], .ofText [';']], [.ofText ['/']]] ∧
    Collector.collected .default "a;//".toList = [[.ofText ['a'], .ofText [';']]] := by
  decide +kernel

end SemiLex
