import SemiLex.Proofs.Coarsening
import SemiLex.Proofs.Collecting

/-!
# Grouping with comments and without

A comment is no terminator, so it should make no difference to the grouping whether comments are
kept.  It makes one where a comment stands in front of a directive: the unit then starts with the
comment, the line break does not end it, and it runs on to the next terminator.  Here the two
groupings are compared: they are the same just if, behind such a line break, no group begins.
-/

namespace SemiLex.Grouping

variable {unit tokens before : List Token} {t : Token} {pending front : List (List Token)}

/-! ## Comments -/

/-- The tokens that are no comments. -/
def code (tokens : List Token) : List Token :=
  tokens.filter fun t => !t.isComment

def startsWithComment (unit : List Token) : Bool :=
  unit.head?.any Token.isComment

theorem code_append (first second : List Token) :
    code (first ++ second) = code first ++ code second :=
  List.filter_append _ _

theorem code_cons_of_isComment (h : t.isComment = true) : code (t :: tokens) = code tokens := by
  simp [code, h]

theorem code_cons_of_not_isComment (h : t.isComment = false) :
    code (t :: tokens) = t :: code tokens := by
  simp [code, h]

theorem ne_of_isComment (text : Text) (h : t.isComment = true)
    (htext : (Token.mk text .punctuation).isComment = false) : (t.text == text) = false := by
  rw [beq_eq_false_iff_ne]
  intro heq
  rw [Token.isComment, Token.isLineComment, heq] at h
  rw [Token.isComment, Token.isLineComment, h] at htext
  cases htext

theorem isTerminator_of_isComment (h : t.isComment = true) : isTerminator t = false := by
  rw [isTerminator, ne_of_isComment _ h (by decide), ne_of_isComment _ h (by decide),
    ne_of_isComment _ h (by decide)]
  rfl

theorem isNewline_of_isComment (h : t.isComment = true) : t.isNewline = false :=
  ne_of_isComment _ h (by decide)

theorem not_isComment_of_isNewline (h : t.isNewline = true) : t.isComment = false := by
  by_contra hcomment
  rw [isNewline_of_isComment (by simpa using hcomment)] at h
  cases h

theorem containsFor_code (unit : List Token) : containsFor (code unit) = containsFor unit := by
  rw [containsFor, containsFor, code, List.any_filter]
  congr 1
  funext t
  cases hcomment : t.isComment with
  | false => simp
  | true => simp [ne_of_isComment ['f', 'o', 'r'] hcomment (by decide)]

theorem isDirective_code (h : startsWithComment unit = false) :
    isDirective (code unit) = isDirective unit := by
  cases unit with
  | nil => rfl
  | cons first unit => rw [code_cons_of_not_isComment h, isDirective, isDirective]; rfl

theorem isDirective_of_startsWithComment (h : startsWithComment unit = true) :
    isDirective unit = false := by
  cases unit with
  | nil => rfl
  | cons first unit =>
    have hfirst : first.isComment = true := h
    exact ne_of_isComment _ hfirst (by decide)

theorem not_startsWithComment_of_isDirective (h : isDirective unit = true) :
    startsWithComment unit = false := by
  by_contra hstart
  rw [isDirective_of_startsWithComment (by simpa using hstart)] at h
  cases h

theorem startsWithComment_append (second : List Token) (h : startsWithComment unit = true) :
    startsWithComment (unit ++ second) = true := by
  cases unit with
  | nil => cases h
  | cons first unit => exact h

/-- The units without their comments, as far as anything is left of them. -/
def bare (units : List (List Token)) : List (List Token) :=
  (units.map code).filter fun unit => !unit.isEmpty

theorem bare_cons (unit : List Token) (units : List (List Token)) :
    bare (unit :: units) =
      if code unit = [] then bare units else code unit :: bare units := by
  rw [bare, List.map_cons, List.filter_cons]
  by_cases h : code unit = [] <;> simp [h, bare]

/-! ## The units of the two groupings

The grouping without comments may have ended units, here `pending`, that the one with comments
has not.  Then its own unit starts with a comment. -/

theorem units_cons_newline (h : t.isNewline = true) :
    units false unit (t :: tokens) =
      if isDirective unit then unit :: units false [] tokens else units false unit tokens := by
  rw [units_cons, ends, added, h, isTerminator_of_isNewline h]
  simp

theorem units_cons_of_not_isNewline (h : t.isNewline = false) :
    units false unit (t :: tokens) =
      if isTerminator t then (unit ++ [t]) :: units false [] tokens
      else units false (unit ++ [t]) tokens := by
  rw [units_cons, ends, added, h]
  simp

theorem bare_units_nil (unit : List Token) :
    bare (units false unit []) = if code unit = [] then [] else [code unit] := by
  unfold units
  split
  · rename_i h
    rw [h]
    rfl
  · rw [bare_cons]
    rfl

theorem ne_nil_of_isDirective (h : isDirective unit = true) : unit ≠ [] := by
  rintro rfl
  cases h

/-- Only a comment at its start keeps a unit from being the directive that it is without it. -/
theorem startsWithComment_of_isDirective_code (h : isDirective unit = false)
    (hcode : isDirective (code unit) = true) : startsWithComment unit = true := by
  by_contra hstart
  rw [isDirective_code (by simpa using hstart), h] at hcode
  cases hcode

/-- The units with comments are made of whole units without. -/
theorem coarsens_units {rest : List Token} (hcode : code unit = pending.flatten ++ rest)
    (hpending : [] ∉ pending) (hstart : pending ≠ [] → startsWithComment unit = true) :
    Coarsens pending (bare (units false unit tokens)) (units false rest (code tokens)) := by
  induction tokens generalizing unit pending rest with
  | nil =>
    rw [bare_units_nil, hcode, code, List.filter_nil, units]
    by_cases hrest : rest = []
    · subst hrest
      by_cases hnone : pending = []
      · subst hnone
        exact .nil
      · rw [List.append_nil, if_neg (flatten_ne_nil hnone hpending), if_pos rfl]
        exact .finish hnone
    · rw [if_neg (by simp [hrest]), if_neg hrest]
      exact .close .nil
  | cons t tokens ih =>
    cases hcomment : t.isComment with
    | true =>
      rw [code_cons_of_isComment hcomment,
        units_cons_of_not_isNewline (isNewline_of_isComment hcomment),
        isTerminator_of_isComment hcomment]
      refine ih ?_ hpending fun h => startsWithComment_append _ (hstart h)
      rw [code_append, hcode, code_cons_of_isComment hcomment]
      simp [code]
    | false =>
      rw [code_cons_of_not_isComment hcomment]
      cases hnewline : t.isNewline with
      | true =>
        rw [units_cons_newline hnewline, units_cons_newline hnewline]
        cases hdirective : isDirective unit with
        | true =>
          -- the line break ends both units, and nothing can be pending in a directive
          have hfirst := not_startsWithComment_of_isDirective hdirective
          have hnone : pending = [] := by
            by_contra h
            rw [hstart h] at hfirst
            cases hfirst
          subst hnone
          obtain rfl : code unit = rest := hcode
          rw [isDirective_code hfirst, hdirective, if_pos rfl, if_pos rfl, bare_cons,
            if_neg (ne_nil_of_isDirective (isDirective_code hfirst ▸ hdirective))]
          exact .close (ih rfl List.not_mem_nil (fun h => absurd rfl h))
        | false =>
          cases hrest : isDirective rest with
          | true =>
            -- it ends only the unit without comments, which is pending from here on
            have hfirst : startsWithComment unit = true := by
              by_cases hnone : pending = []
              · subst hnone
                exact startsWithComment_of_isDirective_code hdirective (hcode ▸ hrest)
              · exact hstart hnone
            refine .hide (ih ?_ ?_ fun _ => hfirst)
            · simp [hcode]
            · simpa [hpending] using (ne_nil_of_isDirective hrest).symm
          | false => exact ih hcode hpending hstart
      | false =>
        have hextended : code (unit ++ [t]) = pending.flatten ++ (rest ++ [t]) := by
          rw [code_append, hcode, code_cons_of_not_isComment hcomment, List.append_assoc]
          rfl
        rw [units_cons_of_not_isNewline hnewline, units_cons_of_not_isNewline hnewline]
        cases hterminator : isTerminator t with
        | true =>
          simp only [if_true, bare_cons, hextended]
          rw [if_neg (by simp)]
          exact .close (ih rfl List.not_mem_nil (fun h => absurd rfl h))
        | false =>
          exact ih hextended hpending fun h => startsWithComment_append _ (hstart h)

/-! ## Joining comments

A unit of comments only stands at the end.  Wherever it is joined, nothing else is displaced. -/

theorem code_append_added_ne_nil (h : ends unit t = true) :
    code (unit ++ added false unit t) ≠ [] := by
  rw [ends, Bool.or_eq_true, Bool.and_eq_true] at h
  rcases h with hterminator | ⟨-, hdirective⟩
  · have hcomment : t.isComment = false := by
      by_contra hcomment
      rw [isTerminator_of_isComment (by simpa using hcomment)] at hterminator
      cases hterminator
    rw [added, isNewline_of_isTerminator hterminator, Bool.false_and, code_append,
      if_neg Bool.false_ne_true, code_cons_of_not_isComment hcomment]
    simp
  · have hfirst := not_startsWithComment_of_isDirective hdirective
    rw [code_append]
    have hne := ne_nil_of_isDirective (isDirective_code hfirst ▸ hdirective)
    simp [hne]

/-- Units of which only the last one may hold nothing but comments. -/
def FilledButLast : List (List Token) → Prop
  | [] => True
  | unit :: units => (code unit = [] → units = []) ∧ FilledButLast units

theorem filledButLast_units : FilledButLast (units false unit tokens) := by
  induction tokens generalizing unit with
  | nil =>
    unfold units
    split
    · trivial
    · exact ⟨fun _ => rfl, trivial⟩
  | cons t tokens ih =>
    rw [units_cons]
    split
    · rename_i hends
      exact ⟨fun h => absurd h (code_append_added_ne_nil hends), ih⟩
    · exact ih

theorem FilledButLast.take_drop {units : List (List Token)} (h : FilledButLast units) (n : Nat) :
    code (units.take n).flatten = ((bare units).take n).flatten ∧
      bare (units.drop n) = (bare units).drop n ∧ FilledButLast (units.drop n) := by
  induction units generalizing n with
  | nil => simp [bare, code, FilledButLast]
  | cons unit units ih =>
    cases n with
    | zero => exact ⟨rfl, rfl, h⟩
    | succ n =>
      obtain ⟨htake, hdrop, hfilled⟩ := ih h.2 n
      rw [bare_cons]
      by_cases hempty : code unit = []
      · obtain rfl := h.1 hempty
        simp [hempty, bare, FilledButLast]
      · rw [if_neg hempty, List.take_succ_cons, List.take_succ_cons, List.flatten_cons,
          List.flatten_cons, code_append, htake]
        exact ⟨rfl, hdrop, hfilled⟩

theorem FilledButLast.bare_joined {units : List (List Token)} (h : FilledButLast units) :
    bare (joined units) = joined (bare units) := by
  fun_induction joined units with
  | case1 => exact joined_nil.symm
  | case2 unit units hfor ih =>
    have hfor' : containsFor (code unit) = true := by rw [containsFor_code, hfor]
    have hfilled : code unit ≠ [] := by
      intro hempty
      rw [hempty] at hfor'
      cases hfor'
    obtain ⟨htake, hdrop, hrest⟩ := h.2.take_drop 2
    rw [bare_cons, bare_cons, if_neg hfilled, if_neg (by simp [code_append, hfilled]), joined_cons,
      if_pos hfor', code_append, htake, ih hrest, hdrop]
  | case3 unit units hfor ih =>
    rw [bare_cons, bare_cons, ih h.2]
    by_cases hempty : code unit = []
    · rw [if_pos hempty, if_pos hempty]
    · rw [if_neg hempty, if_neg hempty, joined_cons, containsFor_code, if_neg hfor]

/-! ## Hidden line breaks -/

/-- The unit that is open behind these tokens. -/
def openUnit (unit : List Token) : List Token → List Token
  | [] => unit
  | t :: tokens => openUnit (step false unit t).2 tokens

/-- Behind `before` there is a line break that ends a directive, but only without comments. With
them, the unit of the directive starts with a comment. -/
def HidesBreak (unit tokens before : List Token) : Prop :=
  ∃ t after, tokens = before ++ t :: after ∧ t.isNewline = true ∧
    startsWithComment (openUnit unit before) = true ∧
    isDirective (openUnit (code unit) (code before)) = true

theorem units_cons_step (unit : List Token) (t : Token) (tokens : List Token) :
    units false unit (t :: tokens) =
      (step false unit t).1.toList ++ units false (step false unit t).2 tokens := rfl

theorem units_append_newline {after : List Token} (h : t.isNewline = true)
    (hdirective : isDirective (openUnit unit before) = true) :
    units false unit (before ++ t :: after) =
      units false unit before ++ units false [] after := by
  induction before generalizing unit with
  | nil =>
    rw [openUnit] at hdirective
    rw [List.nil_append, units_cons_newline h, if_pos hdirective, units,
      if_neg (ne_nil_of_isDirective hdirective)]
    rfl
  | cons first before ih =>
    rw [List.cons_append, units_cons_step, units_cons_step, ih hdirective, List.append_assoc]

theorem HidesBreak.length_le (h : HidesBreak unit tokens before) (front : List (List Token)) :
    (joined (front ++ units false (code unit) (code before))).length ≤
      (joined (front ++ units false (code unit) (code tokens))).length := by
  obtain ⟨t, after, rfl, hnewline, -, hdirective⟩ := h
  rw [code_append, code_cons_of_not_isComment (not_isComment_of_isNewline hnewline),
    units_append_newline hnewline hdirective, ← List.append_assoc]
  exact length_joined_le_append _ _

theorem hidesBreak_nil_iff :
    HidesBreak unit (t :: tokens) [] ↔ t.isNewline = true ∧ startsWithComment unit = true ∧
      isDirective (code unit) = true := by
  constructor
  · rintro ⟨t', after, htokens, h⟩
    obtain ⟨rfl, -⟩ := List.cons.inj htokens
    exact h
  · exact fun h => ⟨t, tokens, rfl, h⟩

theorem ends_code (h : ¬ HidesBreak unit (t :: tokens) []) : ends (code unit) t = ends unit t := by
  rw [hidesBreak_nil_iff] at h
  unfold ends
  cases hnewline : t.isNewline with
  | false => rfl
  | true =>
    cases hstart : startsWithComment unit with
    | false => rw [isDirective_code hstart]
    | true =>
      have hdirective : isDirective (code unit) = false := by
        by_contra hdirective
        exact h ⟨hnewline, hstart, by simpa using hdirective⟩
      rw [hdirective, isDirective_of_startsWithComment hstart]

/-- A token in front of which no line break is hidden does the same with comments and without. -/
theorem exists_closed (h : ¬ HidesBreak unit (t :: tokens) []) :
    ∃ closed : List (List Token),
      (∀ rest, bare (units false unit (t :: rest)) =
        closed ++ bare (units false (step false unit t).2 rest)) ∧
      (∀ rest, units false (code unit) (code (t :: rest)) =
        closed ++ units false (code (step false unit t).2) (code rest)) ∧
      ∀ rest, openUnit (code unit) (code (t :: rest)) =
        openUnit (code (step false unit t).2) (code rest) := by
  cases hcomment : t.isComment with
  | true =>
    have hstep : step false unit t = (none, unit ++ [t]) := by
      rw [step, isTerminator_of_isComment hcomment, isNewline_of_isComment hcomment]
      rfl
    have hcode : code (unit ++ [t]) = code unit := by
      rw [code_append, code_cons_of_isComment hcomment]
      exact List.append_nil _
    simp only [code_cons_of_isComment hcomment, units_cons_step, hstep, hcode]
    exact ⟨[], fun _ => rfl, fun _ => rfl, fun _ => trivial⟩
  | false =>
    have hadded : added false (code unit) t = added false unit t := rfl
    have hcode : code (unit ++ added false unit t) = code unit ++ added false unit t := by
      rw [code_append, added]
      split
      · rfl
      · rw [code_cons_of_not_isComment hcomment]
        rfl
    simp only [code_cons_of_not_isComment hcomment, openUnit, units_cons_step, step_eq,
      ends_code h, hadded]
    cases hends : ends unit t with
    | true =>
      refine ⟨[code unit ++ added false unit t], fun rest => ?_, fun _ => rfl, fun _ => rfl⟩
      have hne := code_append_added_ne_nil hends
      rw [hcode] at hne
      simp only [if_true, Option.toList_some, List.singleton_append, bare_cons, hcode, if_neg hne]
    | false =>
      simp only [Bool.false_eq_true, if_false, hcode]
      exact ⟨[], fun _ => rfl, fun _ => rfl, fun _ => trivial⟩

theorem hidesBreak_cons_iff (h : ¬ HidesBreak unit (t :: tokens) [])
    (hopen : ∀ rest, openUnit (code unit) (code (t :: rest)) =
      openUnit (code (step false unit t).2) (code rest)) :
    HidesBreak unit (t :: tokens) before ↔
      ∃ rest, before = t :: rest ∧ HidesBreak (step false unit t).2 tokens rest := by
  cases before with
  | nil => exact iff_of_false h (by rintro ⟨rest, hrest, -⟩; cases hrest)
  | cons first before =>
    constructor
    · rintro ⟨t', after, htokens, hnewline, hstart, hdirective⟩
      obtain ⟨rfl, rfl⟩ := List.cons.inj htokens
      rw [hopen] at hdirective
      exact ⟨before, rfl, t', after, rfl, hnewline, hstart, hdirective⟩
    · rintro ⟨rest, hrest, t', after, rfl, hnewline, hstart, hdirective⟩
      obtain ⟨rfl, rfl⟩ := List.cons.inj hrest
      rw [← hopen] at hdirective
      exact ⟨t', after, rfl, hnewline, hstart, hdirective⟩

theorem units_code_cons_newline (hnewline : t.isNewline = true)
    (hdirective : isDirective (code unit) = true) (rest : List Token) :
    units false (code unit) (code (t :: rest)) = code unit :: units false [] (code rest) := by
  rw [code_cons_of_not_isComment (not_isComment_of_isNewline hnewline),
    units_cons_newline hnewline, if_pos hdirective]

theorem joined_bare_units_eq_iff_of_hidesBreak (h : HidesBreak unit (t :: tokens) [])
    (front : List (List Token)) :
    joined (front ++ bare (units false unit (t :: tokens))) =
        joined (front ++ units false (code unit) (code (t :: tokens))) ↔
      ∀ before, HidesBreak unit (t :: tokens) before →
        (joined (front ++ units false (code unit) (code before))).length =
          (joined (front ++ units false (code unit) (code (t :: tokens)))).length := by
  obtain ⟨hnewline, hstart, hdirective⟩ := hidesBreak_nil_iff.mp h
  have hne := ne_nil_of_isDirective hdirective
  have hcut := units_code_cons_newline hnewline hdirective
  have hnil : units false (code unit) (code []) = [code unit] := by
    show units false (code unit) [] = [code unit]
    rw [units, if_neg hne]
  have hcoarsens : Coarsens [code unit] (bare (units false unit tokens))
      (units false [] (code tokens)) :=
    coarsens_units (by simp) (by simpa using hne.symm) fun _ => hstart
  have hunits : [] ∉ code unit :: units false [] (code tokens) := by
    rw [List.mem_cons, not_or]
    exact ⟨hne.symm, nil_not_mem_units⟩
  rw [units_cons_newline hnewline, isDirective_of_startsWithComment hstart,
    if_neg Bool.false_ne_true, hcut, hcoarsens.joined_append_eq_iff hunits]
  constructor
  · intro hcount before hhides
    -- behind the first hidden line break there are no fewer groups than in front of it
    refine Nat.le_antisymm (hcut tokens ▸ hhides.length_le front) ?_
    rw [← hcount]
    cases before with
    | nil => rw [hnil]
    | cons first before =>
      obtain ⟨_, _, htokens, -⟩ := hhides
      obtain ⟨rfl, -⟩ := List.cons.inj htokens
      rw [hcut, List.append_cons front (code unit) (units false [] (code before))]
      exact length_joined_le_append _ _
  · intro hall
    rw [← hall [] h, hnil]

/-- The induction over the tokens, behind units that are the same with comments and without. -/
theorem joined_bare_units_eq_iff (front : List (List Token)) :
    joined (front ++ bare (units false unit tokens)) =
        joined (front ++ units false (code unit) (code tokens)) ↔
      ∀ before, HidesBreak unit tokens before →
        (joined (front ++ units false (code unit) (code before))).length =
          (joined (front ++ units false (code unit) (code tokens))).length := by
  induction tokens generalizing unit front with
  | nil =>
    refine iff_of_true ?_ ?_
    · rw [bare_units_nil]
      rfl
    · rintro before ⟨t, after, htokens, -⟩
      simp at htokens
  | cons t tokens ih =>
    by_cases hnow : HidesBreak unit (t :: tokens) []
    · exact joined_bare_units_eq_iff_of_hidesBreak hnow front
    · obtain ⟨closed, hkept, hbare, hopen⟩ := exists_closed hnow
      rw [hkept, hbare, ← List.append_assoc, ← List.append_assoc, ih]
      simp only [hidesBreak_cons_iff hnow hopen]
      constructor
      · rintro hall before ⟨rest, rfl, hhides⟩
        rw [hbare, ← List.append_assoc]
        exact hall rest hhides
      · intro hall rest hhides
        have hcount := hall (t :: rest) ⟨rest, rfl, hhides⟩
        rwa [hbare, ← List.append_assoc] at hcount

end SemiLex.Grouping

namespace SemiLex.Collector

open Grouping

/-- Without markers, collecting with comments and leaving them out afterwards is the same as
collecting without them just if no semi-expression begins behind a hidden line break. -/
theorem bare_collected_eq_iff (settings : Settings) (text : Text) :
    let tokens := Tokenizer.tokensOf { settings.scanner with returnNewlines := true } text
    bare (collected (settings.unmarked false) text) = collected (settings.unmarked true) text ↔
      ∀ before, HidesBreak [] tokens before →
        (groups (settings.unmarked true).semi before).length =
          (collected (settings.unmarked true) text).length := by
  intro tokens
  have hkept : collected (settings.unmarked false) text = joined (units false [] tokens) := by
    have hvisible : visible false tokens = tokens := List.filter_eq_self.mpr fun _ _ => rfl
    rw [collected_eq]
    exact congrArg (fun tokens => joined (units false [] tokens)) hvisible
  rw [collected_eq (settings.unmarked true), hkept, filledButLast_units.bare_joined]
  exact joined_bare_units_eq_iff []

/-- A comment in front of a directive puts the line after it into the same semi-expression. -/
theorem bare_collected_directive_behind_comment :
    bare (collected (Settings.default.unmarked false) "/* c */ #define X 1\nint y;".toList) ≠
      collected (Settings.default.unmarked true) "/* c */ #define X 1\nint y;".toList := by
  decide +kernel

end SemiLex.Collector
