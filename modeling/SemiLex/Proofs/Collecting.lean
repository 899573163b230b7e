import SemiLex.Collector
import SemiLex.Proofs.Grouping
import SemiLex.Proofs.Tokens

/-!
# Collecting is grouping

The collector sees one token at a time, and the tokenizer behind it may have comments and markers
in front of the next one.  Still its calls hand out the groups of the list of all tokens, in
order, and after the last one nothing.
-/

namespace SemiLex

/-- These settings, but no markers are kept, and comments are dropped or not. -/
def Settings.unmarked (settings : Settings) (discardComments : Bool) : Settings :=
  { settings with semi := { settings.semi with returnNewlines := false, discardComments } }

namespace Collector

open Grouping

variable {settings : GroupSettings} {t : Tokenizer} {c : Collector} {unit tokens : List Token}

/-! ## One unit -/

theorem added_eq (settings : GroupSettings) (unit : List Token) (token : Token) :
    added settings.returnNewlines unit token =
      if keeps settings unit.head? token then [token] else [] := by
  unfold added keeps
  cases token.isNewline <;> cases settings.returnNewlines <;> cases unit <;> rfl

theorem units_cons_eq (settings : GroupSettings) (unit : List Token) (token : Token)
    (tokens : List Token) :
    units settings.returnNewlines unit (token :: tokens) =
      if terminates unit.head? token then
        (unit ++ if keeps settings unit.head? token then [token] else []) ::
          units settings.returnNewlines [] tokens
      else
        units settings.returnNewlines
          (unit ++ if keeps settings unit.head? token then [token] else []) tokens := by
  rw [units_cons, added_eq]
  rfl

theorem ne_nil_of_terminates {token : Token} (hkeeps : ¬ keeps settings unit.head? token = true)
    (h : terminates unit.head? token = true) : unit ≠ [] := by
  have hne : unit ++ added settings.returnNewlines unit token ≠ [] := append_added_ne_nil h
  rwa [added_eq, if_neg hkeeps, List.append_nil] at hne

theorem visible_cons (discardComments : Bool) (token : Token) (tokens : List Token) :
    visible discardComments (token :: tokens) =
      if discardComments && token.isComment then visible discardComments tokens
      else token :: visible discardComments tokens := by
  rw [visible, List.filter_cons]
  cases discardComments && token.isComment <;> rfl

/-- What a unit takes after `unit`, which it already has, and what it leaves.  Only at the end of
the input it can be empty. -/
theorem takeUnit_spec (settings : GroupSettings) (unit : List Token) (h : t.Supplies tokens) :
    ∃ taken rest u, (takeUnit settings unit.head? t).value = (taken, u) ∧ u.Supplies rest ∧
      taken ⊆ tokens ∧
      (∀ token ∈ taken, token.isNewline = true → settings.returnNewlines = true) ∧
      (unit ++ taken = [] → rest = [] ∧ u.isDone = true) ∧
      units settings.returnNewlines unit (visible settings.discardComments tokens) =
        if unit ++ taken = [] then []
        else (unit ++ taken) ::
          units settings.returnNewlines [] (visible settings.discardComments rest) := by
  induction tokens generalizing t unit with
  | nil =>
    obtain ⟨u, hnext, hu, hdone⟩ := h.next
    refine ⟨[], [], u, ?_, hu, List.nil_subset _, List.forall_mem_nil _,
      fun _ => ⟨rfl, hdone rfl⟩, ?_⟩
    · rw [takeUnit_eq, Logged.value_bind, hnext]
      rfl
    · rw [List.append_nil]
      rfl
  | cons token tokens ih =>
    obtain ⟨u, hnext, hu, -⟩ := h.next
    rw [takeUnit_eq, Logged.value_bind, hnext, visible_cons]
    simp only [List.head?_cons]
    by_cases hcomment : (settings.discardComments && token.isComment) = true
    · obtain ⟨taken, rest, v, htake, hv, hsubset, hspec⟩ := ih unit hu
      simp only [if_pos hcomment]
      exact ⟨taken, rest, v, htake, hv, List.subset_cons_of_subset _ hsubset, hspec⟩
    · simp only [if_neg hcomment, units_cons_eq]
      by_cases hkeeps : keeps settings unit.head? token = true
      · have hmarker : token.isNewline = true → settings.returnNewlines = true := by
          intro hnewline
          rw [keeps, hnewline] at hkeeps
          exact (Bool.and_eq_true_iff.mp hkeeps).1
        simp only [if_pos hkeeps]
        by_cases hends : terminates unit.head? token = true
        · simp only [if_pos hends]
          refine ⟨[token], tokens, u, rfl, hu, ?_, ?_, by simp, by simp⟩
          · simp
          · simpa using hmarker
        · simp only [if_neg hends]
          obtain ⟨taken, rest, v, htake, hv, hsubset, hmarkers, hspec⟩ :=
            ih (unit ++ [token]) hu
          rw [List.head?_append, List.head?_singleton] at htake
          rw [List.append_assoc, List.singleton_append] at hspec
          refine ⟨token :: taken, rest, v, ?_, hv, List.cons_subset_cons _ hsubset,
            List.forall_mem_cons.mpr ⟨hmarker, hmarkers⟩, hspec⟩
          rw [Logged.value_bind, htake]
          rfl
      · simp only [if_neg hkeeps, List.append_nil]
        by_cases hends : terminates unit.head? token = true
        · -- a dropped marker ends a directive, which has its first token already
          have hunit := ne_nil_of_terminates hkeeps hends
          simp only [if_pos hends]
          exact ⟨[], tokens, u, rfl, hu, List.nil_subset _, List.forall_mem_nil _,
            by simp [hunit], by simp [hunit]⟩
        · simp only [if_neg hends]
          obtain ⟨taken, rest, v, htake, hv, hsubset, hspec⟩ := ih unit hu
          exact ⟨taken, rest, v, htake, hv, List.subset_cons_of_subset _ hsubset, hspec⟩

theorem filter_isEmpty (h : ∀ token ∈ tokens, token.isEmpty = false) :
    (tokens.filter fun token => !token.isEmpty) = tokens := by
  rw [List.filter_eq_self]
  intro token htoken
  rw [h token htoken]
  rfl

theorem collectUnit_spec (settings : GroupSettings) (h : t.Supplies tokens) :
    ∃ unit rest u, (collectUnit settings t).value = (⟨unit⟩, u) ∧ u.Supplies rest ∧
      (∀ token ∈ unit, token.isEmpty = false) ∧ (unit = [] → u.isDone = true) ∧
      unit = (unitsOf settings tokens).headD [] ∧
      unitsOf settings rest = (unitsOf settings tokens).tail := by
  obtain ⟨taken, rest, u, htake, hu, hsubset, hmarkers, hend, hunits⟩ :=
    takeUnit_spec settings [] h
  rw [List.head?_nil] at htake
  rw [List.nil_append] at hend hunits
  have hfacts := h.isWhitespace
  have hempty : ∀ token ∈ taken, token.isEmpty = false :=
    fun token htoken => (hfacts token (hsubset htoken)).1
  have hkept : ∀ token ∈ taken,
      (!token.isWhitespace || (settings.returnNewlines && token.isNewline)) = true := by
    intro token htoken
    cases hblank : token.isWhitespace with
    | false => rfl
    | true =>
      obtain rfl := (hfacts token (hsubset htoken)).2 hblank
      rw [hmarkers _ htoken rfl]
      rfl
  refine ⟨taken, rest, u, ?_, hu, hempty, fun hnil => (hend hnil).2, ?_⟩
  · rw [collectUnit, Logged.value_bind, htake]
    simp only [Logged.value_pure, SemiExpression.trim, SemiExpression.ofTokens]
    rw [filter_isEmpty hempty, List.filter_eq_self.mpr hkept]
  · rw [unitsOf, unitsOf, hunits]
    split
    · rename_i hnil
      rw [hnil, (hend hnil).1]
      exact ⟨rfl, rfl⟩
    · exact ⟨rfl, rfl⟩

/-! ## One semi-expression -/

theorem isSome_findFirst (unit : List Token) :
    ((SemiExpression.mk unit).findFirst ['f', 'o', 'r']).isSome = containsFor unit := by
  simp only [SemiExpression.findFirst, List.findIdx?_isSome, containsFor]

theorem extend_eq {unit second : List Token} (h : ∀ token ∈ second, token.isEmpty = false) :
    (SemiExpression.mk unit).extend second = ⟨unit ++ second⟩ := by
  rw [SemiExpression.extend, filter_isEmpty h]

theorem mergeClauses_spec (settings : GroupSettings) (unit : List Token) (line : Nat)
    (h : t.Supplies tokens) :
    ∃ rest u, (mergeClauses settings ⟨unit⟩ line t).value =
        (⟨if containsFor unit then unit ++ ((unitsOf settings tokens).take 2).flatten else unit⟩,
          u) ∧ u.Supplies rest ∧
      unitsOf settings rest =
        if containsFor unit then (unitsOf settings tokens).drop 2 else unitsOf settings tokens := by
  obtain ⟨second, middle, u, hsecond, hu, hempty, -, hhead, htail⟩ := collectUnit_spec settings h
  obtain ⟨third, rest, v, hthird, hv, hempty', -, hhead', htail'⟩ := collectUnit_spec settings hu
  rw [mergeClauses, isSome_findFirst]
  by_cases hfor : containsFor unit = true
  · simp only [if_pos hfor, Logged.value_bind, hsecond, hthird, Logged.value_pure]
    refine ⟨rest, v, ?_, hv, ?_⟩
    · rw [extend_eq hempty, extend_eq hempty', take_two_flatten, ← hhead, ← htail, ← hhead',
        List.append_assoc]
    · rw [htail', htail, ← List.drop_one, ← List.drop_one, List.drop_drop]
  · simp only [if_neg hfor]
    exact ⟨tokens, t, rfl, h, rfl⟩

/-- A call hands out the first group, or says that there is none and leaves nothing behind. -/
theorem next_spec (h : c.tokenizer.Supplies tokens) :
    ∃ d rest, c.next.value = (!(groups c.settings tokens).isEmpty, d) ∧
      d.settings = c.settings ∧ d.semi.tokens = (groups c.settings tokens).headD [] ∧
      d.tokenizer.Supplies rest ∧ groups c.settings rest = (groups c.settings tokens).tail ∧
      (groups c.settings tokens = [] → d.isDone = true) := by
  obtain ⟨unit, middle, u, hunit, hu, -, hdone, hhead, htail⟩ := collectUnit_spec c.settings h
  rw [Collector.next, Logged.value_bind, hunit, groups]
  cases hall : unitsOf c.settings tokens with
  | nil =>
    rw [hall] at hhead htail
    obtain rfl : unit = [] := hhead
    refine ⟨{ c with tokenizer := u, semi := ⟨[]⟩ }, middle, ?_, rfl, ?_, hu, ?_,
      fun _ => hdone rfl⟩
    · simp only [mergeClauses_of_nil, Logged.value_bind, Logged.value_pure, joined_nil]
      rfl
    · rw [joined_nil]
      rfl
    · rw [groups, htail, List.tail_nil, joined_nil, List.tail_nil]
  | cons first units =>
    rw [hall] at hhead htail
    obtain rfl : unit = first := hhead
    obtain ⟨rest, v, hmerge, hv, hunits⟩ :=
      mergeClauses_spec c.settings unit c.line hu
    rw [htail, List.tail_cons] at hmerge hunits
    have hnonempty : unit ≠ [] := by
      rintro rfl
      exact nil_not_mem_units (hall ▸ List.mem_cons_self)
    simp only [Logged.value_bind, hmerge, Logged.value_pure]
    refine ⟨{ c with tokenizer := v, semi := ⟨_⟩ }, rest, Prod.ext ?_ rfl, rfl, ?_, hv, ?_, ?_⟩
    · rw [joined_cons]
      split <;> simp [SemiExpression.isEmpty, hnonempty]
    · rw [joined_cons]
      split <;> rfl
    · rw [groups, hunits, joined_cons]
      split <;> rfl
    · rw [joined_cons]
      intro hnil
      split at hnil <;> cases hnil

/-! ## All semi-expressions -/

/-- The answer of a call, counted from 0, and the collector after it. -/
def call : Nat → Collector → Bool × Collector
  | 0, c => c.next.value
  | n + 1, c => call n c.next.value.2

theorem call_spec (n : Nat) (h : c.tokenizer.Supplies tokens) :
    (call n c).1 = decide (n < (groups c.settings tokens).length) ∧
      (call n c).2.semi.tokens = (groups c.settings tokens).getD n [] ∧
      ((call n c).1 = true ∨ (call n c).2.isDone = true) := by
  induction n generalizing c tokens with
  | zero =>
    obtain ⟨d, rest, hnext, -, hsemi, -, -, hdone⟩ := next_spec h
    rw [call, hnext]
    cases hall : groups c.settings tokens with
    | nil =>
      rw [hall] at hsemi
      exact ⟨rfl, hsemi, Or.inr (hdone hall)⟩
    | cons group groups =>
      rw [hall] at hsemi
      exact ⟨by simp, hsemi, Or.inl rfl⟩
  | succ n ih =>
    obtain ⟨d, rest, hnext, hsettings, -, hd, htail, -⟩ := next_spec h
    have hcall := ih hd
    rw [hsettings, htail] at hcall
    rw [call, hnext]
    cases hall : groups c.settings tokens with
    | nil =>
      rw [hall] at hcall
      exact hcall
    | cons group groups =>
      rw [hall] at hcall
      refine ⟨hcall.1.trans (decide_eq_decide.mpr ?_), hcall.2⟩
      rw [List.length_cons, Nat.add_lt_add_iff_right]
      rfl

theorem rest_spec (h : c.tokenizer.Supplies tokens) :
    c.rest.value.1.map (fun d => d.semi.tokens) = groups c.settings tokens ∧
      ∀ d ∈ c.rest.value.1, d.settings = c.settings := by
  generalize hall : groups c.settings tokens = found
  induction found generalizing c tokens with
  | nil =>
    obtain ⟨d, rest, hnext, -⟩ := next_spec h
    rw [rest_eq, Logged.value_bind, hnext, hall]
    exact ⟨rfl, List.forall_mem_nil _⟩
  | cons group found ih =>
    obtain ⟨d, rest, hnext, hsettings, hsemi, hd, htail, -⟩ := next_spec h
    rw [hall] at hsemi htail
    obtain ⟨htokens, hall'⟩ := ih hd (hsettings ▸ htail)
    rw [rest_eq, Logged.value_bind, hnext, hall]
    simp only [List.isEmpty_cons, Bool.not_false, Logged.value_bind, Logged.value_pure,
      List.map_cons, List.forall_mem_cons, htokens, hsemi]
    exact ⟨rfl, hsettings, fun e he => (hall' e he).trans hsettings⟩

theorem value_openText (text : Text) (c : Collector) :
    (c.openText text).value = { c with tokenizer := (c.tokenizer.openText text).value } := by
  simp only [openText, Logged.value_bind, Logged.value_pure]

theorem exists_supplies (settings : Settings) (text : Text) :
    ((ofSettings settings).openText text).value.tokenizer.Supplies
      (Tokenizer.tokensOf { settings.scanner with returnNewlines := true } text) := by
  obtain ⟨lexemes, hlexes⟩ :=
    Tokenizer.exists_lexes (.ofSettings settings.scanner) text
  have hsupplies : ((ofSettings settings).tokenizer.openText text).value.Supplies
      (lexemes.filterMap (Tokenizer.surfaced true)) :=
    Tokenizer.supplies_openText hlexes
  rw [Tokenizer.tokensOf_eq { settings.scanner with returnNewlines := true } hlexes, value_openText]
  exact hsupplies

/-- The tokens of the semi-expressions that a text makes: a collector with these settings, run to
the end. -/
def collected (settings : Settings) (text : Text) : List (List Token) :=
  ((ofSettings settings).openText text >>= rest).value.1.map fun d => d.semi.tokens

theorem collected_eq (settings : Settings) (text : Text) :
    collected settings text = groups settings.semi
      (Tokenizer.tokensOf { settings.scanner with returnNewlines := true } text) :=
  (rest_spec (exists_supplies settings text)).1

/-- The calls hand out the groups in order, one each, and then nothing more.  No group is empty,
and together they are the tokens of the text, where only markers are missing. -/
theorem call_eq_group (settings : Settings) (text : Text) (n : Nat) :
    let tokens := Tokenizer.tokensOf { settings.scanner with returnNewlines := true } text
    let found := groups settings.semi tokens
    let result := call n ((ofSettings settings).openText text).value
    result.1 = decide (n < found.length) ∧ result.2.semi.tokens = found.getD n [] ∧
      (result.1 = true ∨ result.2.isDone = true) ∧
      [] ∉ found ∧
      solid found.flatten = solid (visible settings.semi.discardComments tokens) := by
  intro tokens found result
  obtain ⟨hanswer, hsemi, hdone⟩ := call_spec n (exists_supplies settings text)
  refine ⟨hanswer, hsemi, hdone, nil_not_mem_joined nil_not_mem_units, ?_⟩
  calc solid found.flatten
      = solid (unitsOf settings.semi tokens).flatten := congrArg solid (flatten_joined _)
    _ = solid (visible settings.semi.discardComments tokens) := solid_flatten_units

end Collector

end SemiLex
