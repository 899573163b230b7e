import SemiLex.Proofs.Coarsening
import SemiLex.Proofs.Rendering

/-!
# Groups that are grouped again

Without markers, a unit has nothing in it that ends a unit, except for its last token.  Cutting a
group again finds no places but those at which it was cut before.  It may miss some, since the line
breaks that ended directive lines are gone; but the first unit still contains `for` if it did, and
there are no more clauses than it takes.  So a group is one group again, and with comments discarded
this is what a collector makes of its rendering.
-/

namespace SemiLex

namespace Grouping

variable {unit tokens group : List Token} {coarse fine parts : List (List Token)}
  {t : Token} {settings : GroupSettings}

/-! ## Cutting again -/

/-- The token is kept, and the unit goes on behind it. -/
def Inner (t : Token) : Prop :=
  isTerminator t = false ∧ t.isNewline = false

/-- A unit that was cut without markers. -/
inductive Cut : List Token → Prop
  | closed {inner : List Token} {last : Token} (h : ∀ t ∈ inner, Inner t)
    (hlast : isTerminator last = true) : Cut (inner ++ [last])
  | opened {inner : List Token} (h : ∀ t ∈ inner, Inner t) (hne : inner ≠ []) : Cut inner

theorem Cut.ne_nil (h : Cut unit) : unit ≠ [] := by
  cases h with
  | closed => exact List.append_ne_nil_of_right_ne_nil _ (List.cons_ne_nil _ _)
  | opened _ hne => exact hne

theorem added_of_not_isNewline (h : t.isNewline = false) : added false unit t = [t] := by
  rw [added, h]
  rfl

theorem units_cons_of_isTerminator (h : isTerminator t = true) (unit tokens : List Token) :
    units false unit (t :: tokens) = (unit ++ [t]) :: units false [] tokens := by
  have hends : ends unit t = true := by
    rw [ends, h, Bool.true_or]
  rw [units_cons, if_pos hends, added_of_not_isNewline (isNewline_of_isTerminator h)]

theorem units_append_of_inner (h : ∀ t ∈ tokens, Inner t) (unit more : List Token) :
    units false unit (tokens ++ more) = units false (unit ++ tokens) more := by
  induction tokens generalizing unit with
  | nil => rw [List.nil_append, List.append_nil]
  | cons t tokens ih =>
    obtain ⟨ht, htokens⟩ := List.forall_mem_cons.mp h
    have hends : ¬ ends unit t = true := by
      simp [ends, ht.1, ht.2]
    rw [List.cons_append, units_cons, if_neg hends, added_of_not_isNewline ht.2, ih htokens,
      List.append_assoc, List.singleton_append]

theorem cut_of_mem_units (hunit : ∀ t ∈ unit, Inner t) :
    ∀ cut ∈ units false unit tokens, Cut cut := by
  induction tokens generalizing unit with
  | nil =>
    unfold units
    split
    · exact List.forall_mem_nil _
    · rename_i hne
      exact List.forall_mem_singleton.mpr (.opened hunit hne)
  | cons t tokens ih =>
    cases hterminator : isTerminator t with
    | true =>
      rw [units_cons_of_isTerminator hterminator]
      exact List.forall_mem_cons.mpr ⟨.closed hunit hterminator, ih (List.forall_mem_nil _)⟩
    | false =>
      have hadded : ∀ u ∈ unit ++ added false unit t, Inner u := by
        rw [added_false, List.forall_mem_append]
        refine ⟨hunit, fun u hu => ?_⟩
        obtain ⟨hmem, hsolid⟩ := List.mem_filter.mp hu
        obtain rfl := List.mem_singleton.mp hmem
        exact ⟨hterminator, by simpa using hsolid⟩
      rw [units_cons]
      split
      · rename_i hends
        exact List.forall_mem_cons.mpr
          ⟨.opened hadded (append_added_ne_nil hends), ih (List.forall_mem_nil _)⟩
      · exact ih hadded

/-- A unit is cut again where it ended, or it stays open. -/
theorem Cut.units_append (h : Cut unit) (front more : List Token) :
    units false front (unit ++ more) = (front ++ unit) :: units false [] more ∨
      units false front (unit ++ more) = units false (front ++ unit) more := by
  cases h with
  | closed h hlast =>
    left
    rw [List.append_assoc, units_append_of_inner h, List.singleton_append,
      units_cons_of_isTerminator hlast, List.append_assoc]
  | opened h hne => exact Or.inr (units_append_of_inner h front more)

/-- Units that are put together and cut again are cut at some of the same places. -/
theorem coarsens_units_flatten (hfine : ∀ unit ∈ fine, Cut unit) (parts : List (List Token))
    (hparts : [] ∉ parts) :
    Coarsens parts (units false parts.flatten fine.flatten) fine := by
  induction fine generalizing parts with
  | nil =>
    rw [List.flatten_nil, units]
    split
    · rename_i hnil
      have hnone : parts = [] := by
        by_contra hne
        exact flatten_ne_nil hne hparts hnil
      rw [hnone]
      exact .nil
    · rename_i hne
      refine .finish ?_
      rintro rfl
      exact hne rfl
  | cons unit fine ih =>
    obtain ⟨hunit, hfine⟩ := List.forall_mem_cons.mp hfine
    rw [List.flatten_cons]
    rcases hunit.units_append parts.flatten fine.flatten with hclosed | hopened
    · rw [hclosed]
      exact .close (ih hfine [] List.not_mem_nil)
    · have hpending : (parts ++ [unit]).flatten = parts.flatten ++ unit := by
        rw [List.flatten_append, List.flatten_singleton]
      rw [hopened, ← hpending]
      refine .hide (ih hfine _ ?_)
      rw [List.mem_append, List.mem_singleton, not_or]
      exact ⟨hparts, hunit.ne_nil.symm⟩

theorem Coarsens.length_le (h : Coarsens parts coarse fine) :
    coarse.length ≤ (parts ++ fine).length := by
  induction h with
  | nil => exact Nat.le_refl _
  | finish h =>
    rw [List.append_nil]
    exact List.length_pos_iff.mpr h
  | close h ih =>
    simp only [List.nil_append, List.length_append, List.length_cons] at ih ⊢
    omega
  | hide h ih => rwa [List.append_assoc, List.singleton_append] at ih

/-! ## Joining again -/

theorem exists_of_mem_joined (h : group ∈ joined parts) :
    ∃ unit more, group = unit ++ more.flatten ∧ unit :: more ⊆ parts ∧
      (more = [] ∨ containsFor unit = true ∧ more.length ≤ 2) := by
  fun_induction joined parts with
  | case1 => cases h
  | case2 unit parts hfor ih =>
    rcases List.mem_cons.mp h with rfl | hmem
    · refine ⟨unit, parts.take 2, rfl, ?_, Or.inr ⟨hfor, List.length_take_le 2 parts⟩⟩
      exact List.cons_subset_cons unit (List.take_subset 2 parts)
    · obtain ⟨first, more, hgroup, hsubset, hmore⟩ := ih hmem
      refine ⟨first, more, hgroup, List.Subset.trans hsubset ?_, hmore⟩
      exact List.subset_cons_of_subset unit (List.drop_subset 2 parts)
  | case3 unit parts hfor ih =>
    rcases List.mem_cons.mp h with rfl | hmem
    · exact ⟨group, [], by simp, by simp, Or.inl rfl⟩
    · obtain ⟨first, more, hgroup, hsubset, hmore⟩ := ih hmem
      exact ⟨first, more, hgroup, List.subset_cons_of_subset unit hsubset, hmore⟩

theorem joined_cons_eq_singleton (h : parts = [] ∨ containsFor unit = true ∧ parts.length ≤ 2) :
    joined (unit :: parts) = [unit ++ parts.flatten] := by
  rw [joined_cons]
  rcases h with rfl | ⟨hfor, hlength⟩
  · rw [joined_nil, List.take_nil, List.drop_nil, List.flatten_nil, List.append_nil, joined_nil,
      ite_self]
  · rw [if_pos hfor, List.take_of_length_le hlength, List.drop_eq_nil_of_le hlength, joined_nil]

theorem Coarsens.joined_eq_singleton (h : Coarsens [] coarse (unit :: parts))
    (hmore : parts = [] ∨ containsFor unit = true ∧ parts.length ≤ 2) :
    joined coarse = [unit ++ parts.flatten] := by
  have hlength := h.length_le
  have hflatten := h.flatten
  rw [List.nil_append] at hlength hflatten
  obtain ⟨more, rest, rfl⟩ : ∃ more rest, coarse = (unit ++ more) :: rest := by
    cases h with
    | @close _ coarse _ _ h => exact ⟨[], coarse, by simp⟩
    | hide h => exact h.exists_append
  rw [List.length_cons, List.length_cons, Nat.add_le_add_iff_right] at hlength
  rw [List.flatten_cons, List.flatten_cons] at hflatten
  -- The first piece begins with the first unit, so it contains `for` if that unit does.
  rw [joined_cons_eq_singleton, hflatten]
  rcases hmore with rfl | ⟨hfor, htwo⟩
  · exact Or.inl (List.length_eq_zero_iff.mp (Nat.le_zero.mp hlength))
  · refine Or.inr ⟨?_, Nat.le_trans hlength htwo⟩
    rw [containsFor_append, hfor, Bool.true_or]

theorem joined_units_of_mem (h : group ∈ joined (units false [] tokens)) :
    joined (units false [] group) = [group] := by
  obtain ⟨unit, more, rfl, hsubset, hmore⟩ := exists_of_mem_joined h
  have hcut : ∀ cut ∈ unit :: more, Cut cut :=
    fun cut hmem => cut_of_mem_units (List.forall_mem_nil _) cut (hsubset hmem)
  exact (coarsens_units_flatten hcut [] List.not_mem_nil).joined_eq_singleton hmore

theorem subset_of_mem_groups (hmarkers : settings.returnNewlines = false)
    (h : group ∈ groups settings tokens) : group ⊆ visible settings.discardComments tokens := by
  refine List.Subset.trans (List.sublist_flatten_of_mem h).subset ?_
  rw [groups, flatten_joined, unitsOf, hmarkers, flatten_units_false, List.nil_append]
  exact List.filter_subset_self _

theorem groups_of_mem_groups (hmarkers : settings.returnNewlines = false)
    (h : group ∈ groups settings tokens) : groups settings group = [group] := by
  have hvisible : visible settings.discardComments group = group := by
    rw [visible, List.filter_eq_self]
    intro t ht
    exact (List.mem_filter.mp (subset_of_mem_groups hmarkers h ht)).2
  rw [groups, unitsOf, hmarkers, hvisible]
  rw [groups, unitsOf, hmarkers] at h
  exact joined_units_of_mem h

end Grouping

namespace Collector

open Grouping SemiExpression Tokenizer

variable {settings : Settings} {text : Text} {semi tokens : List Token} {d : Collector}

theorem ends_and_closed_of_mem_collected (hvalid : settings.scanner.IsValid)
    (hmarkers : settings.semi.returnNewlines = false) (h : semi ∈ collected settings text) :
    (∀ t ∈ semi, t.Ends (.ofSettings settings.scanner)) ∧
      semi.Pairwise fun t _ => t.Closed (.ofSettings settings.scanner) := by
  obtain ⟨lexemes, hlexes⟩ := Tokenizer.exists_lexes (.ofSettings settings.scanner) text
  have hsublist := sublist_of_mem_collected hmarkers h
  rw [tokensOf_eq { settings.scanner with returnNewlines := true } hlexes, solid_surfaced]
    at hsublist
  exact ⟨fun t ht => hlexes.ends t (hsublist.subset ht),
    (hlexes.closed (Operators.allPunctuation_ofSettings hvalid)).sublist hsublist⟩

theorem head?_renderAfter {operators : Operators} (hends : ∀ t ∈ tokens, t.Ends operators) :
    (renderAfter none tokens).head? = tokens.head?.bind fun t => t.text.head? := by
  cases tokens with
  | nil => rfl
  | cons t tokens =>
    obtain ⟨first, tail, rfl, -⟩ := hends t List.mem_cons_self
    rw [renderAfter_none_cons]
    rfl

theorem render_eq_renderAfter {operators : Operators} {s : SemiExpression}
    (hends : ∀ t ∈ s.tokens, t.Ends operators) (displayNewlines : Bool) :
    s.render displayNewlines = renderAfter none s.tokens := by
  rw [SemiExpression.render, List.filter_eq_self.mpr]
  intro t ht
  rw [(hends t ht).isNewline, Bool.not_false, Bool.or_true]

theorem not_isLineComment_of_mem_collected (hmarkers : settings.semi.returnNewlines = false)
    (hdiscard : settings.semi.discardComments = true) (h : semi ∈ collected settings text) :
    ∀ t ∈ semi, t.isLineComment = false := by
  intro t ht
  rw [collected_eq] at h
  have hvisible := (List.mem_filter.mp (subset_of_mem_groups hmarkers h ht)).2
  rw [hdiscard, Bool.true_and, Bool.not_eq_true', Token.isComment, Bool.or_eq_false_iff]
    at hvisible
  exact hvisible.1

theorem tokensOf_render_unbroken (hvalid : settings.scanner.IsValid)
    (hmarkers : settings.semi.returnNewlines = false)
    (hdiscard : settings.semi.discardComments = true)
    (hd : d.semi.tokens ∈ collected settings text)
    (hmark : ∀ t ∈ d.semi.tokens.head?, t.text.head? ≠ some Utf8.byteOrderMark) :
    tokensOf { settings.scanner with returnNewlines := true } d.render = d.semi.tokens := by
  obtain ⟨hends, hclosed⟩ := ends_and_closed_of_mem_collected hvalid hmarkers hd
  have hhead : (renderAfter none d.semi.tokens).head? ≠ some Utf8.byteOrderMark := by
    rw [head?_renderAfter hends]
    intro heq
    obtain ⟨t, ht, hfirst⟩ := Option.bind_eq_some_iff.mp heq
    exact hmark t ht hfirst
  rw [Collector.render, render_eq_renderAfter hends]
  exact (tokensOf_renderAfter_of_ends hends hclosed hhead).2
    (not_isLineComment_of_mem_collected hmarkers hdiscard hd)

/-- The rendering of a semi-expression is collected as that semi-expression, and there is nothing
else in it. -/
theorem call_openText_render (hvalid : settings.scanner.IsValid)
    (hmarkers : settings.semi.returnNewlines = false)
    (hdiscard : settings.semi.discardComments = true)
    (hd : d ∈ ((ofSettings settings).openText text >>= rest).value.1)
    (hmark : ∀ t ∈ d.semi.tokens.head?, t.text.head? ≠ some Utf8.byteOrderMark) :
    let fresh := ((ofSettings settings).openText d.render).value
    (∀ n, (call n fresh).1 = decide (n = 0)) ∧ (call 0 fresh).2.semi = d.semi ∧
      (call 0 fresh).2.render = d.render := by
  intro fresh
  have hcollected : d.semi.tokens ∈ collected settings text := List.mem_map_of_mem hd
  have hsettings : d.settings = settings.semi := (rest_spec (exists_supplies settings text)).2 d hd
  have hfresh : fresh.settings = settings.semi :=
    congrArg Collector.settings (value_openText d.render (ofSettings settings))
  have hsupplies : fresh.tokenizer.Supplies d.semi.tokens := by
    have h := exists_supplies settings d.render
    rwa [tokensOf_render_unbroken hvalid hmarkers hdiscard hcollected hmark] at h
  have hgroups : groups fresh.settings d.semi.tokens = [d.semi.tokens] := by
    rw [hfresh]
    rw [collected_eq] at hcollected
    exact groups_of_mem_groups hmarkers hcollected
  obtain ⟨e, -, hnext, hkept, hsemi, -⟩ := next_spec hsupplies
  have hsame : e.semi = d.semi := by
    rw [hgroups] at hsemi
    exact congrArg SemiExpression.mk hsemi
  refine ⟨fun n => ?_, ?_, ?_⟩
  · rw [(call_spec n hsupplies).1, hgroups]
    simp
  · rw [call, hnext]
    exact hsame
  · rw [call, hnext, Collector.render, Collector.render, hsame, hkept, hfresh, hsettings]

/-- Two directive lines and a clause of a loop are rendered on one line, and read as one unit. -/
theorem call_openText_render_merged_directives :
    let settings := Settings.default.unmarked true
    settings.scanner.IsValid ∧ settings.semi.returnNewlines = false ∧
      settings.semi.discardComments = true ∧
      ∃ d ∈ ((ofSettings settings).openText "#for x\n#b // c\ny;z".toList >>= rest).value.1,
        (∀ t ∈ d.semi.tokens.head?, t.text.head? ≠ some Utf8.byteOrderMark) ∧
        d.render = "# for x # b y ;".toList ∧
        let fresh := ((ofSettings settings).openText d.render).value
        (∀ n, (call n fresh).1 = decide (n = 0)) ∧ (call 0 fresh).2.semi = d.semi ∧
          (call 0 fresh).2.render = d.render := by
  intro settings
  have hvalid : settings.scanner.IsValid := by decide
  have hrun : ((ofSettings settings).openText "#for x\n#b // c\ny;z".toList >>=
      rest).value.1.map (fun d => (d.semi.tokens.head?, d.render)) =
        [(some (.ofText ['#']), "# for x # b y ;".toList), (some (.ofText ['z']), ['z'])] := by
    decide +kernel
  obtain ⟨d, hd, hfound⟩ := List.mem_map.mp (hrun ▸ List.mem_cons_self)
  obtain ⟨hhead, hrender⟩ := Prod.mk.inj hfound
  have hmark : ∀ t ∈ d.semi.tokens.head?, t.text.head? ≠ some Utf8.byteOrderMark := by
    rw [hhead]
    rintro t ⟨⟩
    decide
  exact ⟨hvalid, rfl, rfl, d, hd, hmark, hrender, call_openText_render hvalid rfl rfl hd hmark⟩

end Collector

end SemiLex
