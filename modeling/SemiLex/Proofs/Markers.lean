import SemiLex.Token

/-!
# Runs of markers

Blanks surface as one marker at most.  Where blanks grow together, what is left of their markers is
one for each run of them.
-/

namespace SemiLex.Grouping

variable {unit unit' tokens tokens' : List Token}

/-- Each run of adjacent markers made into one. -/
def collapsed : List Token → List Token
  | [] => []
  | t :: tokens =>
    if t = .newline ∧ tokens.head? = some .newline then collapsed tokens
    else t :: collapsed tokens

theorem head?_collapsed (tokens : List Token) : (collapsed tokens).head? = tokens.head? := by
  induction tokens with
  | nil => rfl
  | cons t tokens ih =>
    rw [collapsed]
    split
    · rename_i h
      rw [ih, h.1, h.2, List.head?_cons]
    · rfl

theorem head?_eq_of_collapsed_eq (h : collapsed tokens = collapsed tokens') :
    tokens.head? = tokens'.head? := by
  rw [← head?_collapsed, h, head?_collapsed]

theorem collapsed_newline_cons (h : tokens.head? = some .newline) :
    collapsed (.newline :: tokens) = collapsed tokens := by
  rw [collapsed, if_pos ⟨rfl, h⟩]

theorem collapsed_cons_congr (t : Token) (h : collapsed tokens = collapsed tokens') :
    collapsed (t :: tokens) = collapsed (t :: tokens') := by
  rw [collapsed, collapsed, head?_eq_of_collapsed_eq h, h]

theorem collapsed_append_left (first : List Token) (h : collapsed tokens = collapsed tokens') :
    collapsed (first ++ tokens) = collapsed (first ++ tokens') := by
  induction first with
  | nil => exact h
  | cons t first ih => exact collapsed_cons_congr t ih

theorem collapsed_collapsed_append (first second : List Token) :
    collapsed (collapsed first ++ second) = collapsed (first ++ second) := by
  induction first with
  | nil => rfl
  | cons t first ih =>
    rw [collapsed]
    split
    · rename_i h
      have hhead : (first ++ second).head? = some .newline := by
        rw [List.head?_append, h.2]
        rfl
      rw [ih, h.1, List.cons_append, collapsed_newline_cons hhead]
    · exact collapsed_cons_congr t ih

theorem collapsed_append_congr (hunit : collapsed unit = collapsed unit')
    (h : collapsed tokens = collapsed tokens') :
    collapsed (unit ++ tokens) = collapsed (unit' ++ tokens') := by
  rw [← collapsed_collapsed_append unit, hunit, collapsed_collapsed_append]
  exact collapsed_append_left unit' h

theorem collapsed_collapsed (tokens : List Token) :
    collapsed (collapsed tokens) = collapsed tokens := by
  simpa using collapsed_collapsed_append tokens []

theorem collapsed_eq_self (h : .newline ∉ tokens) : collapsed tokens = tokens := by
  induction tokens with
  | nil => rfl
  | cons t tokens ih =>
    rw [List.mem_cons, not_or] at h
    rw [collapsed, if_neg fun hmarker => h.1 hmarker.1.symm, ih h.2]

end SemiLex.Grouping

namespace SemiLex

open Grouping

variable {t : Token}

/-- What whitespace surfaces as. -/
def breaks (blanks : Text) : List Token :=
  if '\n' ∈ blanks then [.newline] else []

theorem collapsed_breaks_append (first second : Text) (tokens : List Token) :
    collapsed (breaks (first ++ second) ++ tokens) =
      collapsed (breaks first ++ (breaks second ++ tokens)) := by
  unfold breaks
  by_cases hfirst : '\n' ∈ first
  · by_cases hsecond : '\n' ∈ second
    · simp only [List.mem_append, hfirst, hsecond, or_true, if_true, List.singleton_append]
      exact (collapsed_newline_cons rfl).symm
    · simp [hfirst, hsecond]
  · simp [hfirst]

theorem ne_newline_of_not_isNewline (ht : t.isNewline = false) : t ≠ .newline := by
  rintro rfl
  cases ht

theorem collapsed_breaks_cons (ht : t.isNewline = false) (gap : Text) (tokens : List Token) :
    collapsed (breaks gap ++ t :: tokens) = breaks gap ++ t :: collapsed tokens := by
  have hne := ne_newline_of_not_isNewline ht
  have hcons : collapsed (t :: tokens) = t :: collapsed tokens := by
    rw [collapsed, if_neg fun h => hne h.1]
  rw [breaks]
  split
  · rw [List.singleton_append, collapsed, if_neg fun h => hne (Option.some.inj h.2), hcons]
    rfl
  · exact hcons

theorem collapsed_breaks (gap : Text) : collapsed (breaks gap) = breaks gap := by
  rw [breaks]
  split <;> rfl

end SemiLex
