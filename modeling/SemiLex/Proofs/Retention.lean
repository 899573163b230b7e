import SemiLex.Proofs.Collecting

/-!
# Kept markers

Whether line break markers are kept decides nothing else.  Two collectors that differ in it stay in
step: they cut the same units out of the same tokens, and the one that drops the markers collects
what the other one collects, less the markers.  Markers are the only whitespace that is ever
collected, and no unit starts with one, so there is nothing to trim from a unit.
-/

namespace SemiLex

/-! ## Tokens that are handed out -/

theorem Source.text_ne_nil_of_extractAs {operators : Operators} {kind : Kind} {s t : Source}
    {token : Token} (h : (s.extractAs operators kind).value = (some token, t)) :
    token.text ≠ [] := by
  simp only [extractAs, Logged.value_bind] at h
  split at h
  · cases h
  · cases h
    exact List.cons_ne_nil _ _

theorem Source.text_ne_nil_of_extract {operators : Operators} {phase : Phase} {s t : Source}
    {token : Token} (h : (s.extract operators phase).value = (some token, t)) :
    token.text ≠ [] := by
  cases phase with
  | extracting kind => exact text_ne_nil_of_extractAs h
  | dispatch =>
    simp only [extract, Logged.value_bind] at h
    split at h
    · cases h
    · exact text_ne_nil_of_extractAs h

theorem Tokenizer.isWhitespace_of_next {t u : Tokenizer} {token : Token}
    (h : t.next.value = (some token, u)) :
    token.isEmpty = false ∧ (token.isWhitespace = true → token = .newline) := by
  rw [next_eq] at h
  split at h
  · cases h
  · simp only [Logged.value_bind] at h
    split at h
    · cases h
    · rename_i lexeme source hextract
      have hlt := Source.size_extract_lt hextract
      have hle := size_dispatch_le { t with source }
      simp only [Logged.value_bind] at h
      split at h
      · rename_i hsolid
        cases h
        refine ⟨?_, fun hblank => by simp [hblank] at hsolid⟩
        rw [Token.isEmpty, List.isEmpty_eq_false_iff]
        exact Source.text_ne_nil_of_extract hextract
      · split at h
        · cases h
          exact ⟨rfl, fun _ => rfl⟩
        · exact isWhitespace_of_next h
termination_by t.source.size
decreasing_by exact Nat.lt_of_le_of_lt hle hlt

/-- Settings that scan and discard alike.  They may keep, surface and show markers differently,
and differ in what is logged. -/
structure Settings.Alike (a b : Settings) : Prop where
  specialPairs : a.scanner.specialPairs = b.scanner.specialPairs
  discardComments : a.semi.discardComments = b.semi.discardComments

namespace Collector

open Grouping

variable {settings dropping keeping : GroupSettings} {t : Tokenizer} {c d : Collector}
  {unit first second : List Token}

/-! ## Units without superfluous whitespace -/

/-- Markers are the only whitespace among these tokens, and none of them comes first. -/
structure Trimmed (tokens : List Token) : Prop where
  head : ∀ token ∈ tokens.head?, token.isNewline = false
  marker : ∀ token ∈ tokens, token.isWhitespace = true → token = .newline

theorem Trimmed.append (hfirst : Trimmed first) (hsecond : Trimmed second) :
    Trimmed (first ++ second) where
  head := by
    intro token htoken
    rw [List.head?_append] at htoken
    cases hhead : first.head? with
    | none => exact hsecond.head token (by simpa [hhead] using htoken)
    | some u => exact hfirst.head token (by simpa [hhead] using htoken)
  marker := by
    intro token htoken
    rcases List.mem_append.mp htoken with hmem | hmem
    · exact hfirst.marker token hmem
    · exact hsecond.marker token hmem

/-- What holds of every token that is handed out by a tokenizer of which `During` holds, holds of
the tokens that a unit takes, and the markers among them are kept on request. -/
theorem forall_mem_takeUnit {During : Tokenizer → Prop} {P : Token → Prop}
    (hnext : ∀ t, During t → During t.next.value.2)
    (h : ∀ t, During t → ∀ token ∈ t.next.value.1, P token) {t : Tokenizer} (ht : During t)
    (settings : GroupSettings) (first : Option Token) :
    ∀ token ∈ (takeUnit settings first t).value.1,
      P token ∧ (token.isNewline = true → settings.returnNewlines = true) := by
  have htoken := h t ht
  have hlater := hnext t ht
  rw [takeUnit_eq, Logged.value_bind]
  rcases hfound : t.next.value with ⟨_ | token, u⟩
  · exact List.forall_mem_nil _
  have hlt := Tokenizer.size_next_lt hfound
  rw [hfound] at htoken hlater
  dsimp only
  split
  · exact forall_mem_takeUnit hnext h hlater settings first
  · split
    · rename_i hkeeps
      have hkept : P token ∧ (token.isNewline = true → settings.returnNewlines = true) := by
        refine ⟨htoken token rfl, fun hnewline => ?_⟩
        rw [keeps, hnewline, Bool.not_true, Bool.false_or, Bool.and_eq_true] at hkeeps
        exact hkeeps.1
      split
      · exact List.forall_mem_singleton.mpr hkept
      · have hmore := forall_mem_takeUnit hnext h hlater settings (first.or (some token))
        exact List.forall_mem_cons.mpr ⟨hkept, hmore⟩
    · split
      · exact List.forall_mem_nil _
      · exact forall_mem_takeUnit hnext h hlater settings first
termination_by t.source.size

theorem mem_takeUnit (settings : GroupSettings) (first : Option Token) (t : Tokenizer) :
    ∀ token ∈ (takeUnit settings first t).value.1, token.isEmpty = false ∧
      (token.isWhitespace = true → token = .newline ∧ settings.returnNewlines = true) := by
  intro token htoken
  have hnext (t : Tokenizer) (_ : True) (token : Token) (h : token ∈ t.next.value.1) :
      token.isEmpty = false ∧ (token.isWhitespace = true → token = .newline) :=
    Tokenizer.isWhitespace_of_next (Prod.ext h rfl)
  obtain ⟨⟨hempty, hblank⟩, hmarker⟩ :=
    forall_mem_takeUnit (fun _ _ => trivial) hnext trivial settings first token htoken
  refine ⟨hempty, fun hwhitespace => ?_⟩
  obtain rfl := hblank hwhitespace
  exact ⟨rfl, hmarker rfl⟩

theorem head?_takeUnit (settings : GroupSettings) (t : Tokenizer) :
    ∀ token ∈ (takeUnit settings none t).value.1.head?, token.isNewline = false := by
  rw [takeUnit_eq, Logged.value_bind]
  rcases hnext : t.next.value with ⟨_ | token, u⟩
  · intro token htoken
    cases htoken
  have hlt := Tokenizer.size_next_lt hnext
  dsimp only
  split
  · exact head?_takeUnit settings u
  · split
    · rename_i hkeeps
      have htoken : token.isNewline = false := by
        simpa [keeps] using hkeeps
      split
      · rintro _ ⟨⟩
        exact htoken
      · rintro _ ⟨⟩
        exact htoken
    · split
      · intro token htoken
        cases htoken
      · exact head?_takeUnit settings u
termination_by t.source.size

theorem trim_takeUnit (settings : GroupSettings) (t : Tokenizer) :
    (SemiExpression.ofTokens (takeUnit settings none t).value.1).trim settings.returnNewlines =
      .ofTokens (takeUnit settings none t).value.1 := by
  rw [SemiExpression.trim, List.filter_eq_self.mpr]
  intro token htoken
  obtain ⟨-, hblank⟩ := mem_takeUnit settings none t token (List.mem_of_mem_filter htoken)
  cases hwhitespace : token.isWhitespace with
  | false => rfl
  | true =>
    obtain ⟨rfl, hmarkers⟩ := hblank hwhitespace
    rw [hmarkers]
    rfl

theorem value_collectUnit (settings : GroupSettings) (t : Tokenizer) :
    (collectUnit settings t).value =
      (⟨(takeUnit settings none t).value.1⟩, (takeUnit settings none t).value.2) := by
  simp only [collectUnit, Logged.value_bind, Logged.value_pure]
  rw [trim_takeUnit, SemiExpression.ofTokens, filter_isEmpty]
  intro token htoken
  exact (mem_takeUnit settings none t token htoken).1

theorem trimmed_collectUnit (settings : GroupSettings) (t : Tokenizer) :
    Trimmed (collectUnit settings t).value.1.tokens := by
  rw [value_collectUnit]
  refine ⟨head?_takeUnit settings t, fun token htoken hblank => ?_⟩
  exact ((mem_takeUnit settings none t token htoken).2 hblank).1

theorem extend_collectUnit (settings : GroupSettings) (t : Tokenizer) (unit : List Token) :
    (SemiExpression.mk unit).extend (collectUnit settings t).value.1.tokens =
      ⟨unit ++ (collectUnit settings t).value.1.tokens⟩ := by
  apply extend_eq
  rw [value_collectUnit]
  intro token htoken
  exact (mem_takeUnit settings none t token htoken).1

theorem value_mergeClauses (settings : GroupSettings) (unit : List Token) (line : Nat)
    (t : Tokenizer) :
    (mergeClauses settings ⟨unit⟩ line t).value =
      if containsFor unit then
        let second := (collectUnit settings t).value
        let third := (collectUnit settings second.2).value
        (⟨unit ++ second.1.tokens ++ third.1.tokens⟩, third.2)
      else (⟨unit⟩, t) := by
  rw [mergeClauses, isSome_findFirst]
  split
  · simp only [Logged.value_bind, Logged.value_pure, extend_collectUnit]
  · rfl

theorem trimmed_next (c : Collector) : Trimmed c.next.value.2.semi.tokens := by
  have hunit := trimmed_collectUnit c.settings c.tokenizer
  simp only [next, Logged.value_bind, Logged.value_pure]
  generalize (collectUnit c.settings c.tokenizer).value = collected at hunit
  obtain ⟨⟨unit⟩, t⟩ := collected
  rw [value_mergeClauses]
  split
  · exact (hunit.append (trimmed_collectUnit _ _)).append (trimmed_collectUnit _ _)
  · exact hunit

/-! ## Two collectors in step -/

/-- Markers aside, both take the same tokens, up to the same place. -/
theorem takeUnit_eq_solid (hdropping : dropping.returnNewlines = false)
    (hdiscard : dropping.discardComments = keeping.discardComments) (first : Option Token)
    (t : Tokenizer) :
    (takeUnit dropping first t).value =
      (takeUnit keeping first t).value.map solid id := by
  rw [takeUnit_eq, takeUnit_eq keeping, Logged.value_bind, Logged.value_bind, hdiscard]
  rcases hnext : t.next.value with ⟨_ | token, u⟩
  · rfl
  have hlt := Tokenizer.size_next_lt hnext
  dsimp only
  split
  · exact takeUnit_eq_solid hdropping hdiscard first u
  · cases hnewline : token.isNewline with
    | false =>
      have hsolid (tokens : List Token) : solid (token :: tokens) = token :: solid tokens := by
        simp [solid, hnewline]
      simp only [keeps, hnewline, Bool.not_false, Bool.true_or, if_true]
      split
      · exact Prod.ext (hsolid []).symm rfl
      · simp only [Logged.value_bind, Logged.value_pure, Prod.map_apply, hsolid]
        rw [takeUnit_eq_solid hdropping hdiscard (first.or (some token)) u]
        rfl
    | true =>
      have hsolid (tokens : List Token) : solid (token :: tokens) = solid tokens := by
        simp [solid, hnewline]
      simp only [keeps, hnewline, hdropping, Bool.not_true, Bool.false_or, Bool.false_and,
        Bool.false_eq_true, if_false]
      by_cases hkept : (keeping.returnNewlines && first.isSome) = true
      · -- the marker goes into the unit of one collector only, behind its first token
        have hfirst : first.or (some token) = first := by
          cases first with
          | none => simp at hkept
          | some _ => rfl
        simp only [if_pos hkept]
        split
        · exact Prod.ext (hsolid []).symm rfl
        · simp only [Logged.value_bind, Logged.value_pure, Prod.map_apply, hsolid, hfirst]
          exact takeUnit_eq_solid hdropping hdiscard first u
      · simp only [if_neg hkept]
        split
        · rfl
        · exact takeUnit_eq_solid hdropping hdiscard first u
termination_by t.source.size

theorem collectUnit_eq_solid (hdropping : dropping.returnNewlines = false)
    (hdiscard : dropping.discardComments = keeping.discardComments) (t : Tokenizer) :
    (collectUnit dropping t).value =
      (⟨solid (collectUnit keeping t).value.1.tokens⟩, (collectUnit keeping t).value.2) := by
  rw [value_collectUnit, value_collectUnit, takeUnit_eq_solid hdropping hdiscard]
  rfl

theorem containsFor_solid (unit : List Token) : containsFor (solid unit) = containsFor unit := by
  rw [containsFor, containsFor, solid, List.any_filter]
  congr 1
  funext token
  cases hnewline : token.isNewline with
  | false => simp
  | true =>
    rw [Token.isNewline, beq_iff_eq] at hnewline
    rw [hnewline]
    rfl

theorem mergeClauses_eq_solid (hdropping : dropping.returnNewlines = false)
    (hdiscard : dropping.discardComments = keeping.discardComments) (unit : List Token)
    (line line' : Nat) (t : Tokenizer) :
    (mergeClauses dropping ⟨solid unit⟩ line t).value =
      (⟨solid (mergeClauses keeping ⟨unit⟩ line' t).value.1.tokens⟩,
        (mergeClauses keeping ⟨unit⟩ line' t).value.2) := by
  rw [value_mergeClauses, value_mergeClauses, containsFor_solid]
  split
  · simp only [collectUnit_eq_solid hdropping hdiscard, solid_append]
  · rfl

/-- Two collectors at the same place, the first of which keeps no markers. -/
structure InStep (c d : Collector) : Prop where
  tokenizer : c.tokenizer = d.tokenizer
  dropping : c.settings.returnNewlines = false
  discardComments : c.settings.discardComments = d.settings.discardComments

theorem Trimmed.isEmpty_solid (h : Trimmed unit) : (solid unit).isEmpty = unit.isEmpty := by
  cases unit with
  | nil => rfl
  | cons token unit => simp [solid, h.head token rfl]

theorem InStep.next (h : InStep c d) :
    c.next.value.1 = d.next.value.1 ∧ InStep c.next.value.2 d.next.value.2 ∧
      c.next.value.2.semi.tokens = solid d.next.value.2.semi.tokens := by
  have htrimmed := trimmed_next d
  simp only [Collector.next, Logged.value_bind, Logged.value_pure] at htrimmed ⊢
  rw [h.tokenizer, collectUnit_eq_solid h.dropping h.discardComments,
    mergeClauses_eq_solid h.dropping h.discardComments _ _ d.line]
  refine ⟨?_, ⟨rfl, h.dropping, h.discardComments⟩, rfl⟩
  exact congrArg (!·) htrimmed.isEmpty_solid

theorem InStep.call (h : InStep c d) (n : Nat) :
    (call n c).1 = (call n d).1 ∧ InStep (call n c).2 (call n d).2 ∧
      (call n c).2.semi.tokens = solid (call n d).2.semi.tokens := by
  induction n generalizing c d with
  | zero => exact h.next
  | succ n ih => exact ih h.next.2.1

theorem trimmed_call (n : Nat) (c : Collector) : Trimmed (call n c).2.semi.tokens := by
  induction n generalizing c with
  | zero => exact trimmed_next c
  | succ n ih => exact ih c.next.value.2

/-! ## Two settings -/

theorem inStep_openText {dropping keeping : Settings} (h : dropping.Alike keeping)
    (hdropping : dropping.semi.returnNewlines = false) (text : Text) :
    InStep ((ofSettings dropping).openText text).value
      ((ofSettings keeping).openText text).value where
  tokenizer := by
    have hoperators :
        Operators.ofSettings dropping.scanner = .ofSettings keeping.scanner := by
      simp only [Operators.ofSettings, ScanSettings.pairs, h.specialPairs]
    simp only [value_openText, ofSettings, Tokenizer.ofSettings, hoperators]
  dropping := hdropping
  discardComments := h.discardComments

/-- Markers are kept or dropped, and nothing hangs on it.  Call after call, two collectors on a
text give the same answer and reach the same line and the same end, and the one that drops markers
collects what the other one does, less the markers.  Neither collects a marker in front or any
other whitespace, and from no unit is anything trimmed. -/
theorem call_dropping_eq_solid {dropping keeping : Settings} (h : dropping.Alike keeping)
    (hdropping : dropping.semi.returnNewlines = false) (text : Text) (n : Nat) :
    let dropped := call n ((ofSettings dropping).openText text).value
    let kept := call n ((ofSettings keeping).openText text).value
    dropped.1 = kept.1 ∧ dropped.2.line = kept.2.line ∧ dropped.2.isDone = kept.2.isDone ∧
      dropped.2.semi.tokens = solid kept.2.semi.tokens ∧
      Trimmed dropped.2.semi.tokens ∧ Trimmed kept.2.semi.tokens ∧
      ∀ settings ∈ [dropping.semi, keeping.semi], ∀ t,
        let unit := SemiExpression.ofTokens (takeUnit settings none t).value.1
        unit.trim settings.returnNewlines = unit := by
  intro dropped kept
  obtain ⟨hanswer, hstep, hsemi⟩ := (inStep_openText h hdropping text).call n
  refine ⟨hanswer, ?_, ?_, hsemi, trimmed_call n _, trimmed_call n _, ?_⟩
  · exact congrArg Tokenizer.line hstep.tokenizer
  · exact congrArg Tokenizer.isDone hstep.tokenizer
  · intro settings _ t
    exact trim_takeUnit settings t

/-- A directive with a kept marker at its end, and a loop header over three lines. -/
theorem call_dropping_loop_header :
    let dropping := Settings.default.unmarked true
    let text := "#a\n\nfor (i;\nj;\n// k\nk)\n\x7b".toList
    let dropped := call 1 ((ofSettings dropping).openText text).value
    let kept := call 1 ((ofSettings Settings.default).openText text).value
    dropping.Alike Settings.default ∧ dropping.semi.returnNewlines = false ∧
      dropped.2.semi.tokens = solid kept.2.semi.tokens ∧
      kept.2.semi.tokens.map Token.text =
        ["for", "(", "i", ";", "j", ";", "k", ")", "\n", "\x7b"].map String.toList := by
  have halike : (Settings.default.unmarked true).Alike Settings.default := ⟨rfl, rfl⟩
  have hcall := call_dropping_eq_solid halike rfl "#a\n\nfor (i;\nj;\n// k\nk)\n\x7b".toList 1
  exact ⟨halike, rfl, hcall.2.2.2.1, by decide +kernel⟩

end Collector

end SemiLex
