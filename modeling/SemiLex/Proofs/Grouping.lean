import Mathlib.Tactic.ByContra
import SemiLex.Settings

/-!
# Grouping a list of tokens

The whole list at once, against which the collector is measured.  A list of tokens is cut into
units, one token after the other, and a unit with `for` in it is joined with the next two.
Cutting and joining lose nothing but markers, and they neither repeat nor reorder anything.
-/

namespace SemiLex.Grouping

def isTerminator (t : Token) : Bool :=
  t.text == [';'] || t.text == ['{'] || t.text == ['}']

def isDirective (unit : List Token) : Bool :=
  unit.head?.any fun t => t.text == ['#']

/-- Puts a token to the open unit.  The result is the unit that the token ends, if it ends one, and
the unit that is open afterwards.  A marker does not start a unit, it is kept on request, and it
ends directive lines. -/
def step (keepMarkers : Bool) (unit : List Token) (t : Token) :
    Option (List Token) × List Token :=
  if isTerminator t then (some (unit ++ [t]), [])
  else if t.isNewline then
    if unit = [] then (none, [])
    else
      let extended := if keepMarkers then unit ++ [t] else unit
      if isDirective unit then (some extended, []) else (none, extended)
  else (none, unit ++ [t])

/-- The units of a list of tokens, where `unit` is open in front of it. -/
def units (keepMarkers : Bool) (unit : List Token) : List Token → List (List Token)
  | [] => if unit = [] then [] else [unit]
  | t :: tokens =>
    let (closed, unit) := step keepMarkers unit t
    closed.toList ++ units keepMarkers unit tokens

def containsFor (unit : List Token) : Bool :=
  unit.any fun t => t.text == ['f', 'o', 'r']

/-- Joins each unit that contains `for` with the next two, as far as there are any. -/
def joined : List (List Token) → List (List Token)
  | [] => []
  | unit :: units =>
    if containsFor unit then (unit ++ (units.take 2).flatten) :: joined (units.drop 2)
    else unit :: joined units
termination_by units => units.length
decreasing_by all_goals simp only [List.length_drop, List.length_cons]; omega

def visible (discardComments : Bool) (tokens : List Token) : List Token :=
  tokens.filter fun t => !(discardComments && t.isComment)

def unitsOf (settings : GroupSettings) (tokens : List Token) : List (List Token) :=
  units settings.returnNewlines [] (visible settings.discardComments tokens)

/-- The tokens of the semi-expressions that a list of tokens makes. -/
def groups (settings : GroupSettings) (tokens : List Token) : List (List Token) :=
  joined (unitsOf settings tokens)

/-- The tokens that are not markers. -/
def solid (tokens : List Token) : List Token :=
  tokens.filter fun t => !t.isNewline

variable {keepMarkers : Bool} {unit tokens : List Token} {t : Token}

theorem isTerminator_of_isNewline (h : t.isNewline = true) : isTerminator t = false := by
  rw [Token.isNewline, beq_iff_eq] at h
  rw [isTerminator, h]
  decide

theorem isNewline_of_isTerminator (h : isTerminator t = true) : t.isNewline = false := by
  by_contra hnewline
  rw [isTerminator_of_isNewline (by simpa using hnewline)] at h
  cases h

/-! ## One token

Every step puts the token to the unit or drops it, and then ends the unit or leaves it open. -/

def ends (unit : List Token) (t : Token) : Bool :=
  isTerminator t || (t.isNewline && isDirective unit)

/-- What a token adds to the unit in front of it. -/
def added (keepMarkers : Bool) (unit : List Token) (t : Token) : List Token :=
  if t.isNewline && !(keepMarkers && !unit.isEmpty) then [] else [t]

theorem step_eq (keepMarkers : Bool) (unit : List Token) (t : Token) :
    step keepMarkers unit t =
      if ends unit t then (some (unit ++ added keepMarkers unit t), [])
      else (none, unit ++ added keepMarkers unit t) := by
  rw [step, ends, added]
  cases hnewline : t.isNewline with
  | false => simp
  | true =>
    rw [isTerminator_of_isNewline hnewline]
    cases unit with
    | nil => simp [isDirective]
    | cons u unit => cases keepMarkers <;> simp

theorem units_cons (keepMarkers : Bool) (unit : List Token) (t : Token) (tokens : List Token) :
    units keepMarkers unit (t :: tokens) =
      if ends unit t then
        (unit ++ added keepMarkers unit t) :: units keepMarkers [] tokens
      else units keepMarkers (unit ++ added keepMarkers unit t) tokens := by
  rw [units, step_eq]
  cases ends unit t <;> rfl

theorem append_added_ne_nil (h : ends unit t = true) : unit ++ added keepMarkers unit t ≠ [] := by
  rw [ends, Bool.or_eq_true, Bool.and_eq_true] at h
  rcases h with hterminator | ⟨-, hdirective⟩
  · simp [added, isNewline_of_isTerminator hterminator]
  · cases unit with
    | nil => cases hdirective
    | cons u unit => simp

theorem solid_append (first second : List Token) :
    solid (first ++ second) = solid first ++ solid second :=
  List.filter_append _ _

theorem solid_added : solid (added keepMarkers unit t) = solid [t] := by
  unfold added
  split
  · rename_i h
    rw [Bool.and_eq_true] at h
    simp [solid, h.1]
  · rfl

/-! ## Units -/

theorem nil_not_mem_units : [] ∉ units keepMarkers unit tokens := by
  induction tokens generalizing unit with
  | nil =>
    unfold units
    split
    · simp
    · rename_i hunit
      simpa using Ne.symm hunit
  | cons t tokens ih =>
    rw [units_cons]
    split
    · rename_i hends
      rw [List.mem_cons, not_or]
      exact ⟨(append_added_ne_nil hends).symm, ih⟩
    · exact ih

theorem solid_flatten_units :
    solid (units keepMarkers unit tokens).flatten = solid (unit ++ tokens) := by
  induction tokens generalizing unit with
  | nil =>
    unfold units
    split
    · rename_i hunit
      rw [hunit]
      rfl
    · simp
  | cons t tokens ih =>
    have hadded : solid (unit ++ added keepMarkers unit t) ++ solid tokens =
        solid (unit ++ t :: tokens) := by
      rw [solid_append, solid_added, ← solid_append, ← solid_append, List.append_assoc,
        List.singleton_append]
    rw [units_cons]
    split
    · rw [List.flatten_cons, solid_append, ih, List.nil_append, hadded]
    · rw [ih, solid_append, hadded]

theorem added_false : added false unit t = solid [t] := by
  cases hnewline : t.isNewline <;> simp [added, solid, hnewline]

theorem flatten_units_false : (units false unit tokens).flatten = unit ++ solid tokens := by
  induction tokens generalizing unit with
  | nil =>
    unfold units
    split
    · rename_i hunit
      rw [hunit]
      rfl
    · simp [solid]
  | cons t tokens ih =>
    have hsolid : solid (t :: tokens) = solid [t] ++ solid tokens := solid_append [t] tokens
    rw [units_cons, added_false, hsolid, ← List.append_assoc]
    split
    · rw [List.flatten_cons, ih, List.nil_append]
    · exact ih

/-! ## Joined units -/

@[simp] theorem joined_nil : joined [] = [] := by
  rw [joined]

theorem joined_cons (unit : List Token) (units : List (List Token)) :
    joined (unit :: units) =
      if containsFor unit then (unit ++ (units.take 2).flatten) :: joined (units.drop 2)
      else unit :: joined units := by
  rw [joined]

theorem flatten_joined (units : List (List Token)) : (joined units).flatten = units.flatten := by
  fun_induction joined units with
  | case1 => rfl
  | case2 unit units hfor ih =>
    rw [List.flatten_cons, ih, List.append_assoc, ← List.flatten_append, List.take_append_drop,
      List.flatten_cons]
  | case3 unit units hfor ih => rw [List.flatten_cons, ih, List.flatten_cons]

theorem take_two_flatten (units : List (List Token)) :
    (units.take 2).flatten = units.headD [] ++ units.tail.headD [] := by
  match units with
  | [] => rfl
  | [_] => rfl
  | _ :: _ :: _ => simp

theorem nil_not_mem_joined {units : List (List Token)} (h : [] ∉ units) : [] ∉ joined units := by
  fun_induction joined units with
  | case1 => exact h
  | case2 unit units hfor ih =>
    rw [List.mem_cons, not_or] at h ⊢
    refine ⟨fun hnil => h.1 (List.append_eq_nil_iff.mp hnil.symm).1.symm, ih fun hmem => ?_⟩
    exact h.2 (List.mem_of_mem_drop hmem)
  | case3 unit units hfor ih =>
    rw [List.mem_cons, not_or] at h ⊢
    exact ⟨h.1, ih h.2⟩

end SemiLex.Grouping
