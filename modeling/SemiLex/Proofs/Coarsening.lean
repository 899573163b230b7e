import SemiLex.Proofs.Grouping

/-!
# Coarser units

Units that are put together before they are joined.  As long as the joining takes what was put
together anyway, it makes no difference, and the number of groups tells whether it does.
-/

namespace SemiLex.Grouping

variable {unit : List Token} {units pending coarse fine : List (List Token)}

/-! ## Numbers of units and groups -/

theorem length_joined_le_append (units more : List (List Token)) :
    (joined units).length ≤ (joined (units ++ more)).length := by
  fun_induction joined units generalizing more with
  | case1 => exact Nat.zero_le _
  | case2 unit units hfor ih =>
    rw [List.cons_append, joined_cons, if_pos hfor, List.length_cons, List.length_cons,
      List.drop_append]
    exact Nat.succ_le_succ (ih _)
  | case3 unit units hfor ih =>
    rw [List.cons_append, joined_cons, if_neg hfor, List.length_cons, List.length_cons]
    exact Nat.succ_le_succ (ih _)

theorem joined_eq_nil_iff : joined units = [] ↔ units = [] := by
  cases units with
  | nil => simp
  | cons unit units =>
    rw [joined_cons]
    split <;> simp

theorem length_joined_drop_eq_zero_iff (n : Nat) :
    (joined (units.drop n)).length = 0 ↔ units.length ≤ n := by
  rw [List.length_eq_zero_iff, joined_eq_nil_iff, List.drop_eq_nil_iff]

theorem eq_of_take_flatten_eq {m n : Nat} (hunits : [] ∉ units) (hm : m ≤ units.length)
    (hn : n ≤ units.length) (h : (units.take m).flatten = (units.take n).flatten) : m = n := by
  induction units generalizing m n with
  | nil =>
    rw [List.length_nil, Nat.le_zero] at hm hn
    rw [hm, hn]
  | cons unit units ih =>
    rw [List.mem_cons, not_or] at hunits
    cases m with
    | zero =>
      cases n with
      | zero => rfl
      | succ n => simp [Ne.symm hunits.1] at h
    | succ m =>
      cases n with
      | zero => simp [Ne.symm hunits.1] at h
      | succ n =>
        rw [List.take_succ_cons, List.take_succ_cons, List.flatten_cons, List.flatten_cons] at h
        rw [ih hunits.2 (Nat.le_of_succ_le_succ hm) (Nat.le_of_succ_le_succ hn)
          (List.append_cancel_left h)]

/-! ## Coarsening -/

/-- The units of `coarse` are made of `pending`, which are in the first one of them already, and
of the units of `fine`.  None ends before all that are in it have ended. -/
inductive Coarsens :
    List (List Token) → List (List Token) → List (List Token) → Prop
  | nil : Coarsens [] [] []
  | finish {pending : List (List Token)} (h : pending ≠ []) :
    Coarsens pending [pending.flatten] []
  | close {pending coarse fine : List (List Token)} {unit : List Token}
    (h : Coarsens [] coarse fine) :
    Coarsens pending ((pending.flatten ++ unit) :: coarse) (unit :: fine)
  | hide {pending coarse fine : List (List Token)} {unit : List Token}
    (h : Coarsens (pending ++ [unit]) coarse fine) : Coarsens pending coarse (unit :: fine)

theorem Coarsens.flatten (h : Coarsens pending coarse fine) :
    coarse.flatten = (pending ++ fine).flatten := by
  induction h with
  | nil => rfl
  | finish => simp
  | close h ih => simp [ih]
  | hide h ih => rw [ih, List.append_assoc, List.singleton_append]

theorem flatten_ne_nil (h : pending ≠ []) (hpending : [] ∉ pending) : pending.flatten ≠ [] := by
  obtain ⟨unit, hunit⟩ := List.exists_mem_of_ne_nil _ h
  intro hflatten
  rw [List.flatten_eq_nil_iff] at hflatten
  exact hpending (hflatten unit hunit ▸ hunit)

theorem Coarsens.nil_not_mem (h : Coarsens pending coarse fine) (hunits : [] ∉ pending ++ fine) :
    [] ∉ coarse := by
  induction h with
  | nil => exact List.not_mem_nil
  | finish hpending =>
    rw [List.append_nil] at hunits
    rw [List.mem_singleton]
    exact (flatten_ne_nil hpending hunits).symm
  | close h ih =>
    simp only [List.mem_append, List.mem_cons, not_or] at hunits
    rw [List.mem_cons, not_or]
    refine ⟨?_, ih hunits.2.2⟩
    simp [Ne.symm hunits.2.1]
  | hide h ih =>
    rw [List.append_assoc, List.singleton_append] at ih
    exact ih hunits

/-- So many coarse units hold as many fine ones, and `pending` besides, unless these are all. -/
theorem Coarsens.exists_take (h : Coarsens pending coarse fine) (n : Nat) :
    ∃ m, min (pending.length + (n + 1)) (pending ++ fine).length ≤ m ∧
      m ≤ (pending ++ fine).length ∧
      (coarse.take (n + 1)).flatten = ((pending ++ fine).take m).flatten := by
  induction h generalizing n with
  | nil => exact ⟨0, by simp, Nat.le_refl _, by simp⟩
  | @finish pending h =>
    refine ⟨pending.length, by simp, by simp, by simp⟩
  | @close pending coarse fine unit h ih =>
    cases n with
    | zero =>
      refine ⟨pending.length + 1, Nat.min_le_left _ _, by simp, ?_⟩
      rw [List.take_length_add_append]
      simp
    | succ n =>
      obtain ⟨m, hle, hge, hflatten⟩ := ih n
      simp only [List.nil_append, List.length_nil, Nat.zero_add] at hle hge hflatten
      refine ⟨pending.length + (m + 1), ?_, ?_, ?_⟩
      · simp only [List.length_append, List.length_cons]
        omega
      · simp only [List.length_append, List.length_cons]
        omega
      · rw [List.take_length_add_append, List.take_succ_cons, List.take_succ_cons,
          List.flatten_cons, hflatten]
        simp
  | @hide pending coarse fine unit h ih =>
    obtain ⟨m, hle, hge, hflatten⟩ := ih n
    rw [List.append_assoc, List.singleton_append] at hle hge hflatten
    refine ⟨m, ?_, hge, hflatten⟩
    rw [List.length_append, List.length_singleton] at hle
    omega

/-! ## Joining coarser units

One unit is pending, so that the first coarse unit holds it and, if there is any, the next one. -/

theorem Coarsens.exists_append (h : Coarsens (unit :: pending) coarse fine) :
    ∃ more rest, coarse = (unit ++ more) :: rest := by
  generalize hunits : unit :: pending = units at h
  induction h generalizing pending with
  | nil => cases hunits
  | finish h => exact ⟨pending.flatten, [], by rw [← hunits, List.flatten_cons]⟩
  | @close _ coarse _ last h _ =>
    exact ⟨pending.flatten ++ last, coarse, by rw [← hunits, List.flatten_cons, List.append_assoc]⟩
  | @hide _ _ _ last h ih =>
    have hcons : unit :: (pending ++ [last]) = unit :: pending ++ [last] := rfl
    exact ih (hcons.trans (congrArg (· ++ [last]) hunits))

/-- As many coarse units hold more, unless there is no more. -/
theorem Coarsens.take_flatten_ne (h : Coarsens [unit] coarse fine) (hunits : [] ∉ unit :: fine)
    {m n : Nat} (hmn : n ≤ m) (hn : n + 1 < (unit :: fine).length) :
    (coarse.take (m + 1)).flatten ≠ ((unit :: fine).take (n + 1)).flatten := by
  obtain ⟨k, hle, hge, hflatten⟩ := h.exists_take m
  rw [List.singleton_append] at hle hge hflatten
  intro heq
  rw [hflatten] at heq
  have := eq_of_take_flatten_eq hunits hge (Nat.le_of_lt hn) heq
  rw [List.length_singleton] at hle
  omega

theorem Coarsens.cons_joined_eq_iff (h : Coarsens [unit] coarse fine) (hunits : [] ∉ unit :: fine)
    (front : List Token) (n : Nat) :
    (front ++ (coarse.take (n + 1)).flatten) :: joined (coarse.drop (n + 1)) =
        (front ++ ((unit :: fine).take (n + 1)).flatten) ::
          joined ((unit :: fine).drop (n + 1)) ↔
      (unit :: fine).length ≤ n + 1 := by
  constructor
  · intro heq
    by_contra hlt
    exact h.take_flatten_ne hunits (Nat.le_refl n) (Nat.lt_of_not_le hlt)
      (List.append_cancel_left (List.cons.inj heq).1)
  · intro hle
    obtain ⟨m, hmin, hge, hflatten⟩ := h.exists_take n
    rw [List.singleton_append] at hmin hge hflatten
    rw [List.length_singleton] at hmin
    have hall : (coarse.take (n + 1)).flatten = coarse.flatten := by
      rw [hflatten, List.take_of_length_le (by omega), h.flatten, List.singleton_append]
    have hrest : coarse.drop (n + 1) = [] := by
      by_contra hne
      refine flatten_ne_nil hne (fun hmem => h.nil_not_mem hunits (List.mem_of_mem_drop hmem)) ?_
      have hparts : (coarse.take (n + 1)).flatten ++ (coarse.drop (n + 1)).flatten =
          coarse.flatten := by
        rw [← List.flatten_append, List.take_append_drop]
      rw [hall] at hparts
      exact List.append_right_eq_self.mp hparts
    rw [hall, hrest, h.flatten, List.singleton_append, List.take_of_length_le hle,
      List.drop_eq_nil_of_le hle]

theorem containsFor_append (first second : List Token) :
    containsFor (first ++ second) = (containsFor first || containsFor second) :=
  List.any_append

theorem length_cons_joined_drop_eq_one_iff (group : List Token) (units : List (List Token))
    (n : Nat) : 1 = (group :: joined (units.drop n)).length ↔ units.length ≤ n := by
  rw [List.length_cons, ← length_joined_drop_eq_zero_iff n]
  omega

theorem length_joined_singleton (unit : List Token) : (joined [unit]).length = 1 := by
  rw [joined_cons]
  split <;> simp

theorem Coarsens.joined_eq_joined_iff (h : Coarsens [unit] coarse fine)
    (hunits : [] ∉ unit :: fine) :
    joined coarse = joined (unit :: fine) ↔
      (joined [unit]).length = (joined (unit :: fine)).length := by
  rw [length_joined_singleton]
  by_cases hfine : fine = []
  · subst hfine
    cases h with
    | finish =>
      rw [length_joined_singleton, List.flatten_singleton]
      exact iff_of_true rfl rfl
  have hmore (m : Nat) : (coarse.take (m + 1)).flatten ≠ unit := by
    have hne := h.take_flatten_ne hunits (Nat.zero_le m)
      (Nat.succ_lt_succ (List.length_pos_iff.mpr hfine))
    simpa using hne
  have hgroup := h.cons_joined_eq_iff hunits [] 2
  obtain ⟨more, rest, rfl⟩ := h.exists_append
  by_cases hfor : containsFor unit = true
  · have hfor' : containsFor (unit ++ more) = true := by
      rw [containsFor_append, hfor, Bool.true_or]
    rw [joined_cons (unit ++ more), if_pos hfor', joined_cons unit fine, if_pos hfor,
      length_cons_joined_drop_eq_one_iff]
    simp only [List.nil_append, List.take_succ_cons, List.flatten_cons, List.drop_succ_cons]
      at hgroup
    rw [hgroup, List.length_cons, Nat.add_le_add_iff_right]
  · rw [joined_cons unit fine, if_neg hfor]
    refine iff_of_false (fun heq => ?_) (fun heq => ?_)
    · rw [joined_cons] at heq
      split at heq
      · exact hmore 2 (by simpa using (List.cons.inj heq).1)
      · exact hmore 0 (by simpa using (List.cons.inj heq).1)
    · exact hfine (by simpa [joined_eq_nil_iff] using heq)

/-- Behind units that are the same in both, joining makes up for the coarseness if it takes no
further group. -/
theorem Coarsens.joined_append_eq_iff (h : Coarsens [unit] coarse fine)
    (hunits : [] ∉ unit :: fine) (front : List (List Token)) :
    joined (front ++ coarse) = joined (front ++ unit :: fine) ↔
      (joined (front ++ [unit])).length = (joined (front ++ unit :: fine)).length := by
  fun_induction joined front with
  | case1 => exact h.joined_eq_joined_iff hunits
  | case2 first front hfor ih =>
    simp only [List.cons_append, joined_cons first, if_pos hfor]
    cases front with
    | nil =>
      simp only [List.nil_append]
      rw [h.cons_joined_eq_iff hunits first 1, ← length_cons_joined_drop_eq_one_iff []]
      simp
    | cons second front =>
      cases front with
      | nil =>
        have hgroup := h.cons_joined_eq_iff hunits (first ++ second) 0
        rw [← length_cons_joined_drop_eq_one_iff []] at hgroup
        simpa using hgroup
      | cons third front => simpa using ih
  | case3 first front hfor ih =>
    simp only [List.cons_append, joined_cons first, if_neg hfor, List.length_cons]
    rw [List.cons_inj_right, ih, Nat.add_right_cancel_iff]

end SemiLex.Grouping
