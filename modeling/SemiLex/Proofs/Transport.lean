import SemiLex.Proofs.Moments
import SemiLex.Proofs.Tokens

/-!
# However the bytes arrive

A tokenizer sees the bytes and not the reads that deliver them.  Cut into reads anywhere, with
interrupted reads between them, they make the same tokens as in one piece.  A read that fails ends
the input.  It is the last one: nothing is read after it, and its cause is reported once.
-/

namespace SemiLex

/-! ## Deliveries -/

/-- A read that delivers something, or that is tried again. -/
def Read.Continues : Read → Prop
  | .data bytes => bytes ≠ []
  | .failure cause => cause.kind = .interrupted

/-- How a delivery finishes: with the end of the input, or with a failure that is not tried again,
whatever reads stand behind it. -/
inductive Read.Finish : List Read → Option Fault → Prop
  | clean : Finish [] none
  | failed {cause : Fault} {after : List Read} (h : cause.kind ≠ .interrupted) :
    Finish (.failure cause :: after) (some cause)

variable {before finish : List Read} {cause : Option Fault}

theorem Read.Finish.delivered (h : Finish finish cause) : Read.delivered finish = [] := by
  cases h with
  | clean => rfl
  | failed hkind => rw [Read.delivered, if_neg hkind]

theorem Read.Finish.steady (h : Finish finish cause) : Read.Steady finish := by
  cases h with
  | clean => trivial
  | failed hkind => exact fun hinterrupted => absurd hinterrupted hkind

theorem Read.delivered_append (hbefore : ∀ read ∈ before, read.Continues)
    (hfinish : Finish finish cause) :
    Read.delivered (before ++ finish) = Read.delivered before := by
  induction before with
  | nil => exact hfinish.delivered
  | cons read before ih =>
    obtain ⟨hread, hmore⟩ := List.forall_mem_cons.mp hbefore
    cases read with
    | data bytes => rw [List.cons_append, Read.delivered, ih hmore, Read.delivered]
    | failure interruption =>
      have hkind : interruption.kind = .interrupted := hread
      rw [List.cons_append, Read.delivered, if_pos hkind, ih hmore, Read.delivered, if_pos hkind]

theorem Read.steady_append (hbefore : ∀ read ∈ before, read.Continues)
    (hfinish : Finish finish cause) : Read.Steady (before ++ finish) := by
  induction before with
  | nil => exact hfinish.steady
  | cons read before ih =>
    obtain ⟨hread, hmore⟩ := List.forall_mem_cons.mp hbefore
    cases read with
    | data bytes => exact ⟨fun hnil => absurd hnil hread, ih hmore⟩
    | failure interruption => exact fun _ => ih hmore

/-! ## The finish -/

namespace Stream

variable {s t : Stream}

/-- The finish is still to come, and no read before it ends the input. -/
def Meets (finish : List Read) (s : Stream) : Prop :=
  ∃ before, s.reads = before ++ finish ∧ ∀ read ∈ before, read.Continues

theorem ofReads_append (hbefore : ∀ read ∈ before, read.Continues)
    (hfinish : Read.Finish finish cause) :
    (∃ t, ofReads (before ++ finish) = .ok t ∧ t.Meets finish ∧ (t.buffer = [] → cause = none)) ∨
      ∃ failure, ofReads (before ++ finish) = .error failure ∧ cause = some failure := by
  induction before with
  | nil =>
    cases hfinish with
    | clean => exact Or.inl ⟨⟨[], []⟩, rfl, ⟨[], rfl, List.forall_mem_nil _⟩, fun _ => rfl⟩
    | @failed failure after hkind =>
      refine Or.inr ⟨failure, ?_, rfl⟩
      rw [List.nil_append, ofReads, if_neg hkind]
  | cons read before ih =>
    obtain ⟨hread, hmore⟩ := List.forall_mem_cons.mp hbefore
    cases read with
    | data bytes =>
      have hbytes : bytes ≠ [] := hread
      rw [List.cons_append, ofReads]
      by_cases hle : bytes.length ≤ Read.capacity
      · rw [if_pos hle]
        exact Or.inl ⟨_, rfl, ⟨before, rfl, hmore⟩, fun hnil => absurd hnil hbytes⟩
      · -- what is beyond the capacity is the next read
        rw [if_neg hle]
        obtain ⟨-, htake, hdrop⟩ := Read.ne_nil_of_capacity_lt hle
        refine Or.inl ⟨_, rfl, ⟨.data (bytes.drop Read.capacity) :: before, rfl, ?_⟩,
          fun hnil => absurd hnil htake⟩
        exact List.forall_mem_cons.mpr ⟨hdrop, hmore⟩
    | failure interruption =>
      have hkind : interruption.kind = .interrupted := hread
      rw [List.cons_append, ofReads, if_pos hkind]
      exact ih hmore

theorem Meets.fill (h : s.Meets finish) (hfinish : Read.Finish finish cause) :
    (∃ t, s.fill = .ok t ∧ t.Meets finish ∧ (t.buffer = [] → cause = none)) ∨
      ∃ failure, s.fill = .error failure ∧ cause = some failure := by
  obtain ⟨before, hreads, hbefore⟩ := h
  rw [Stream.fill]
  by_cases hnil : s.buffer = []
  · rw [if_pos hnil, hreads]
    exact ofReads_append hbefore hfinish
  · rw [if_neg hnil]
    exact Or.inl ⟨s, rfl, ⟨before, hreads, hbefore⟩, fun h => absurd h hnil⟩

end Stream

namespace Source

variable {s t : Source} {failed : Option Fault → Prop}

/-- The stream has the finish still before it, and nothing has failed yet; or it is detached, and
what is then kept as the failure satisfies `failed`. -/
inductive Sealed (finish : List Read) (failed : Option Fault → Prop) (s : Source) : Prop
  | attached {stream : Stream} (hstream : s.stream = some stream) (hfailure : s.failure = none)
    (h : stream.Meets finish)
  | detached (hstream : s.stream = none) (h : failed s.failure)

theorem Sealed.peekByte (h : s.Sealed finish failed) (hfinish : Read.Finish finish cause)
    (hfailed : ∀ failure, cause = some failure → failed (some failure)) :
    s.peekByte.value.2.Sealed finish failed := by
  rw [Source.peekByte]
  cases h with
  | attached hstream hfailure hmeets =>
    rcases hmeets.fill hfinish with ⟨t, hfill, hmeets, -⟩ | ⟨failure, hfill, hcause⟩
    · simp only [hstream, hfill]
      exact .attached rfl hfailure hmeets
    · simp only [hstream, hfill]
      exact .detached rfl (hfailed failure hcause)
  | detached hstream hkept =>
    simp only [hstream]
    exact .detached hstream hkept

theorem Sealed.dropByte (h : s.Sealed finish failed) : s.dropByte.Sealed finish failed := by
  cases h with
  | attached hstream hfailure hmeets =>
    exact .attached (congrArg (Option.map Stream.tail) hstream) hfailure hmeets
  | detached hstream hkept => exact .detached (congrArg (Option.map Stream.tail) hstream) hkept

theorem Sealed.queue (h : s.Sealed finish failed) (hstream : t.stream = s.stream)
    (hfailure : t.failure = s.failure) : t.Sealed finish failed := by
  cases h with
  | attached hattached hnone hmeets =>
    exact .attached (hstream.trans hattached) (hfailure.trans hnone) hmeets
  | detached hdetached hkept =>
    exact .detached (hstream.trans hdetached) (by rwa [hfailure])

theorem Sealed.later (h : s.Sealed finish failed) (hfinish : Read.Finish finish cause)
    (hfailed : ∀ failure, cause = some failure → failed (some failure)) (hlater : s.Later t) :
    t.Sealed finish failed := by
  induction hlater with
  | now => exact h
  | peekByte _ ih => exact ih.peekByte hfinish hfailed
  | dropByte _ ih => exact ih.dropByte
  | queue _ hstream hfailure ih => exact ih.queue hstream hfailure

theorem Sealed.isOpen (h : s.Sealed finish failed) (hfailure : s.failure ≠ none) :
    s.isOpen = false := by
  cases h with
  | attached _ hnone _ => exact absurd hnone hfailure
  | detached hstream _ => rw [Source.isOpen, hstream, Option.isSome_none]

theorem Sealed.suffix (h : s.Sealed finish failed) :
    ∀ stream ∈ s.stream, finish <:+ stream.reads := by
  intro stream hmem
  cases h with
  | attached hstream _ hmeets =>
    obtain rfl := Option.some.inj (hstream.symm.trans hmem)
    obtain ⟨before, hreads, -⟩ := hmeets
    exact ⟨before, hreads.symm⟩
  | detached hstream _ =>
    rw [hstream] at hmem
    cases hmem

theorem Sealed.mono {failed' : Option Fault → Prop} (h : s.Sealed finish failed)
    (himp : ∀ failure, failed failure → failed' failure) : s.Sealed finish failed' := by
  cases h with
  | attached hstream hfailure hmeets => exact .attached hstream hfailure hmeets
  | detached hstream hkept => exact .detached hstream (himp _ hkept)

/-! ## What is known at the end -/

/-- The stream has its finish before it, or it has failed and the cause is kept. -/
def Reports (finish : List Read) (cause : Option Fault) (s : Source) : Prop :=
  s.Sealed finish fun failure => failure = cause

theorem Reports.later (h : Reports finish cause s) (hfinish : Read.Finish finish cause)
    (hlater : s.Later t) : Reports finish cause t :=
  Sealed.later h hfinish (fun _ hcause => hcause.symm) hlater

theorem Reports.failure_peekByte (h : Reports finish cause s) (hfinish : Read.Finish finish cause)
    (hnone : s.peekByte.value.1 = none) : s.peekByte.value.2.failure = cause := by
  rw [Source.peekByte] at hnone ⊢
  cases h with
  | attached hstream hfailure hmeets =>
    rcases hmeets.fill hfinish with ⟨t, hfill, -, hend⟩ | ⟨failure, hfill, hcause⟩
    · simp only [hstream, hfill, Logged.value_pure] at hnone ⊢
      rw [hfailure, hend (List.head?_eq_none_iff.mp hnone)]
    · simp only [hstream, hfill]
      exact hcause.symm
  | detached hstream hkept =>
    simp only [hstream]
    exact hkept

theorem Reports.failure_readChar (h : Reports finish cause s) (hfinish : Read.Finish finish cause)
    (hread : s.readChar.value = (none, t)) : t.failure = cause := by
  simp only [readChar, Logged.value_bind] at hread
  split at hread
  · rename_i u hu
    simp only [readByte, Logged.value_bind, Logged.value_pure, Prod.mk.injEq] at hu
    obtain ⟨hnone, rfl⟩ := hu
    cases hread
    exact h.failure_peekByte hfinish hnone
  · simp only [Logged.value_bind] at hread
    split at hread <;> cases hread

theorem Reports.failure_peek (h : Reports finish cause s) (hfinish : Read.Finish finish cause)
    (hnone : (s.peek 0).value.1 = none) : (s.peek 0).value.2.failure = cause := by
  rw [peek] at hnone ⊢
  split at hnone
  · cases hnone
  · rename_i hlookahead
    have hnil : s.lookahead = [] := by simpa using hlookahead
    simp only [hnil, List.length_nil, readChars, Logged.value_bind, Logged.value_pure] at hnone ⊢
    rcases hread : s.readChar.value with ⟨_ | c, u⟩
    · exact h.failure_readChar hfinish hread
    · simp [hread] at hnone

theorem reports_ofStream (hbefore : ∀ read ∈ before, read.Continues)
    (hfinish : Read.Finish finish cause) :
    Reports finish cause (ofStream ⟨[], before ++ finish⟩).value := by
  have hfresh : Reports finish cause { stream := some ⟨[], before ++ finish⟩ } :=
    .attached rfl rfl ⟨before, rfl, hbefore⟩
  exact hfresh.later hfinish (later_ofStream _)

end Source

namespace Tokenizer

variable {t t' u : Tokenizer} {text : Text} {last : Nat} {tokens lexemes : List Token}

/-- At the end of its input, a tokenizer keeps the cause of the failure. -/
structure Reports (finish : List Read) (cause : Option Fault) (t : Tokenizer) : Prop where
  source : t.source.Reports finish cause
  failure : t.phase = none → t.source.failure = cause

theorem reports_dispatch (h : t.source.Reports finish cause)
    (hfinish : Read.Finish finish cause) : Reports finish cause t.dispatch.value where
  source := h.later hfinish (later_dispatch t)
  failure := by
    intro hphase
    refine h.failure_peek hfinish ?_
    cases hpeek : (t.source.peek 0).value.1 with
    | none => rfl
    | some c =>
      simp only [Tokenizer.dispatch, Source.dispatch, Logged.value_bind, Logged.value_pure, hpeek]
        at hphase
      cases hphase

theorem Reports.next {t : Tokenizer} (h : Reports finish cause t)
    (hfinish : Read.Finish finish cause) : Reports finish cause t.next.value.2 := by
  rw [next_eq]
  split
  · exact h
  · rename_i phase hphase
    have hextract := h.source.later hfinish (Source.later_extract t.operators phase t.source)
    simp only [Logged.value_bind]
    split
    · rename_i source hsource
      rw [hsource] at hextract
      exact reports_dispatch hextract hfinish
    · rename_i lexeme source hsource
      have hlt := Source.size_extract_lt hsource
      have hle := size_dispatch_le { t with source }
      rw [hsource] at hextract
      have hdispatch : Reports finish cause (dispatch { t with source }).value :=
        reports_dispatch hextract hfinish
      simp only [Logged.value_bind]
      split
      · exact hdispatch
      · split
        · exact hdispatch
        · exact hdispatch.next hfinish
termination_by t.source.size
decreasing_by exact Nat.lt_of_le_of_lt hle hlt

/-! ## Two tokenizers in front of lexemes that correspond -/

/-- `f` makes lexemes out of lexemes, with as many line breaks, and what surfaces of them is what
`g` makes of what surfaced before. -/
structure Recodes (f g : Token → Token) : Prop where
  count (lexeme : Token) : (f lexeme).text.count '\n' = lexeme.text.count '\n'
  surfaced (markers : Bool) (lexeme : Token) :
    surfaced markers (f lexeme) = (surfaced markers lexeme).map g

/-- The one is in front of some lexemes, and the other one of what `f` makes of them. -/
structure Abreast (f : Token → Token) (t t' : Tokenizer) : Prop where
  operators : t.operators = t'.operators
  returnNewlines : t.returnNewlines = t'.returnNewlines
  faces : ∃ lexemes text text' last, t.Faces text last ∧ t'.Faces text' last ∧
    Lexes t.operators lexemes text ∧ Lexes t.operators (lexemes.map f) text'

variable {f g : Token → Token} {operators : Operators} {text' : Text}

theorem Recodes.count_newline (hf : Recodes f g) (h : Lexes operators lexemes text)
    (h' : Lexes operators (lexemes.map f) text') : text'.count '\n' = text.count '\n' := by
  have hcount : (fun lexeme => (f lexeme).text.count '\n') =
      fun lexeme => lexeme.text.count '\n' := funext hf.count
  rw [← h.flatten, ← h'.flatten, List.count_flatten, List.count_flatten, List.map_map,
    List.map_map, List.map_map]
  exact congrArg (fun count => (lexemes.map count).sum) hcount

theorem Faces.line (h : t.Faces text last) : t.line + text.count '\n' = last :=
  h.source.line

theorem Abreast.line (hf : Recodes f g) (h : Abreast f t t') : t'.line = t.line := by
  obtain ⟨lexemes, text, text', last, hfaces, hfaces', hlexes, hlexes'⟩ := h.faces
  have hline := hfaces.line
  have hline' := hfaces'.line
  have hcount := hf.count_newline hlexes hlexes'
  omega

theorem Abreast.isDone (h : Abreast f t t') : t'.isDone = t.isDone := by
  obtain ⟨lexemes, text, text', last, hfaces, hfaces', hlexes, hlexes'⟩ := h.faces
  rw [Tokenizer.isDone, Tokenizer.isDone, hfaces.phase, hfaces'.phase]
  cases hlexes with
  | nil =>
    cases hlexes'
    rfl
  | cons =>
    rw [List.map_cons] at hlexes'
    generalize f _ = lexeme at hlexes'
    cases hlexes'
    rfl

theorem Faces.next_abreast (hf : Recodes f g) (h : t.Faces text last) (h' : t'.Faces text' last)
    (hoperators : t.operators = t'.operators) (hmarkers : t.returnNewlines = t'.returnNewlines)
    (hlexes : Lexes t.operators lexemes text)
    (hlexes' : Lexes t.operators (lexemes.map f) text') :
    t'.next.value.1 = t.next.value.1.map g ∧ Abreast f t.next.value.2 t'.next.value.2 := by
  generalize hall : t.operators = operators at hlexes hlexes'
  induction hlexes generalizing t t' text' with
  | nil =>
    cases hlexes'
    rw [h.next_nil, h'.next_nil]
    exact ⟨rfl, hoperators, hmarkers, [], [], [], last, h, h', .nil, .nil⟩
  | @cons first tail rest lexemes hlexeme hrest ih =>
    subst hall
    have hsurfaced := hf.surfaced t'.returnNewlines ⟨first :: tail, Kind.of first⟩
    rw [List.map_cons] at hlexes'
    generalize f ⟨first :: tail, Kind.of first⟩ = lexeme' at hlexes' hsurfaced
    cases hlexes' with
    | @cons first' tail' rest' _ hlexeme' hrest' =>
      obtain ⟨u, hu, hsame, hkept, hnext⟩ := h.next_cons hlexeme
      obtain ⟨u', hu', hsame', hkept', hnext'⟩ := h'.next_cons (hoperators ▸ hlexeme')
      have hoperators' : u.operators = u'.operators := by rw [hsame, hsame', hoperators]
      have hmarkers' : u.returnNewlines = u'.returnNewlines := by rw [hkept, hkept', hmarkers]
      rw [hnext, hnext', hmarkers, hsurfaced]
      cases surfaced t'.returnNewlines ⟨first :: tail, Kind.of first⟩ with
      | some token =>
        rw [← hsame] at hrest hrest'
        exact ⟨rfl, hoperators', hmarkers', lexemes, rest, rest', last, hu, hu', hrest, hrest'⟩
      | none => exact ih hu hu' hoperators' hmarkers' hsame hrest'

theorem Abreast.next (hf : Recodes f g) (h : Abreast f t t') :
    t'.next.value.1 = t.next.value.1.map g ∧ Abreast f t.next.value.2 t'.next.value.2 := by
  obtain ⟨lexemes, text, text', last, hfaces, hfaces', hlexes, hlexes'⟩ := h.faces
  exact hfaces.next_abreast hf hfaces' h.operators h.returnNewlines hlexes hlexes'

/-! ## Two tokenizers in front of one text -/

/-- Both are in front of the same text and cut it alike. -/
structure Agree (t t' : Tokenizer) : Prop where
  operators : t.operators = t'.operators
  returnNewlines : t.returnNewlines = t'.returnNewlines
  faces : ∃ text last, t.Faces text last ∧ t'.Faces text last

theorem recodes_id : Recodes id id where
  count _ := rfl
  surfaced _ _ := (Option.map_id_apply ..).symm

theorem agree_iff_abreast : Agree t t' ↔ Abreast id t t' := by
  constructor
  · intro h
    obtain ⟨text, last, hfaces, hfaces'⟩ := h.faces
    obtain ⟨lexemes, -, -, hlexes, -⟩ := hfaces.source.lexemes t.operators
    refine ⟨h.operators, h.returnNewlines, lexemes, text, text, last, hfaces, hfaces', hlexes, ?_⟩
    rwa [List.map_id]
  · intro h
    obtain ⟨lexemes, text, text', last, hfaces, hfaces', hlexes, hlexes'⟩ := h.faces
    rw [List.map_id] at hlexes'
    obtain rfl : text = text' := by rw [← hlexes.flatten, hlexes'.flatten]
    exact ⟨h.operators, h.returnNewlines, text, last, hfaces, hfaces'⟩

theorem Agree.line (h : Agree t t') : t.line = t'.line :=
  ((agree_iff_abreast.mp h).line recodes_id).symm

theorem Agree.isDone (h : Agree t t') : t.isDone = t'.isDone :=
  (agree_iff_abreast.mp h).isDone.symm

/-! ## All calls -/

/-- The answer of a call, counted from 0, and the tokenizer after it. -/
def call : Nat → Tokenizer → Option Token × Tokenizer
  | 0, t => t.next.value
  | n + 1, t => call n t.next.value.2

theorem Abreast.call (hf : Recodes f g) (h : Abreast f t t') (n : Nat) :
    (call n t').1 = (call n t).1.map g ∧ Abreast f (call n t).2 (call n t').2 := by
  induction n generalizing t t' with
  | zero => exact h.next hf
  | succ n ih => exact ih (h.next hf).2

theorem Agree.call (h : Agree t t') (n : Nat) :
    (call n t).1 = (call n t').1 ∧ Agree (call n t).2 (call n t').2 := by
  obtain ⟨hanswer, hafter⟩ := (agree_iff_abreast.mp h).call recodes_id n
  rw [Option.map_id] at hanswer
  exact ⟨hanswer.symm, agree_iff_abreast.mpr hafter⟩

theorem Reports.call (h : Reports finish cause t) (hfinish : Read.Finish finish cause) (n : Nat) :
    Reports finish cause (call n t).2 := by
  induction n generalizing t with
  | zero => exact h.next hfinish
  | succ n ih => exact ih (h.next hfinish)

theorem Supplies.call (h : t.Supplies tokens) (n : Nat) :
    (call n t).1 = tokens[n]? ∧ ((call n t).1 = none → (call n t).2.isDone = true) := by
  induction n generalizing t tokens with
  | zero =>
    obtain ⟨u, hnext, -, hdone⟩ := h.next
    rw [Tokenizer.call, hnext, ← List.head?_eq_getElem?]
    exact ⟨rfl, fun hnone => hdone (List.head?_eq_none_iff.mp hnone)⟩
  | succ n ih =>
    obtain ⟨u, hnext, hu, -⟩ := h.next
    rw [Tokenizer.call, hnext, ← List.getElem?_tail]
    exact ih hu

/-- `u` is the tokenizer after any calls for tokens and for the failure. -/
inductive Later (t : Tokenizer) : Tokenizer → Prop
  | now : Later t t
  | next {u : Tokenizer} (h : Later t u) : Later t u.next.value.2
  | takeFailure {u : Tokenizer} (h : Later t u) : Later t u.takeFailure.2

theorem Later.isSealed (hlater : Later t u) (hfinish : Read.Finish finish cause)
    (h : t.source.Reports finish cause) : u.source.Sealed finish fun _ => True := by
  induction hlater with
  | now => exact h.mono fun _ _ => trivial
  | next _ ih => exact ih.later hfinish (fun _ _ => trivial) (later_next _)
  | takeFailure _ ih =>
    cases ih with
    | attached hstream _ hmeets => exact .attached hstream rfl hmeets
    | detached hstream _ => exact .detached hstream trivial

/-! ## Streams and texts -/

theorem value_attach (source : Source) (t : Tokenizer) :
    (t.attach source).value = (dispatch { t with source }).value := by
  simp only [attach, Logged.value_bind]

theorem agree_attach {source source' : Source} (h : source.Holds text last)
    (h' : source'.Holds text last) (t : Tokenizer) :
    Agree (t.attach source).value (t.attach source').value := by
  rw [value_attach, value_attach]
  exact ⟨rfl, rfl, text, last, faces_dispatch h, faces_dispatch h'⟩

theorem exists_supplies_attach {source : Source} (h : source.Holds text last) (t : Tokenizer) :
    ∃ tokens, (t.attach source).value.Supplies tokens := by
  obtain ⟨lexemes, -, -, hlexes, -⟩ := h.lexemes t.operators
  rw [value_attach]
  exact ⟨_, supplies_dispatch h hlexes⟩

/-- However bytes arrive, and whatever ends them, they make the same tokens as in one piece.  Call
after call, a tokenizer on a stream gives the same answer and reaches the same line and the same
end as one on the bytes that the stream delivers.  The calls come to an end, and then the cause of
a failure is reported once.  At every moment, also within a call, a source that keeps a failure is
closed, and one that is open has not read the failure nor anything after it. -/
theorem call_streamed_eq_whole {before finish : List Read} {cause : Option Fault}
    (hbefore : ∀ read ∈ before, read.Continues) (hfinish : Read.Finish finish cause)
    (t : Tokenizer) :
    let streamed := (Source.ofStream ⟨[], before ++ finish⟩ >>= fun s => t.attach s).value
    let whole := (Source.ofBytes (Read.delivered before) >>= fun s => t.attach s).value
    (streamed.line = whole.line ∧ streamed.isDone = whole.isDone) ∧
      (∀ n, (call n streamed).1 = (call n whole).1 ∧
        (call n streamed).2.line = (call n whole).2.line ∧
        (call n streamed).2.isDone = (call n whole).2.isDone) ∧
      (∃ n, (call n streamed).1 = none) ∧
      (∀ n, (call n streamed).1 = none →
        let (failure, drained) := (call n streamed).2.takeFailure
        failure = cause.map .readFailed ∧ drained.takeFailure.1 = none) ∧
      ∀ u, Later streamed u → ∀ s, u.source.Later s →
        (s.failure ≠ none → s.isOpen = false) ∧ ∀ stream ∈ s.stream, finish <:+ stream.reads := by
  intro streamed whole
  have hsteady : Stream.Steady ⟨[], before ++ finish⟩ := Read.steady_append hbefore hfinish
  have hholds := Source.holds_ofStream hsteady rfl
  have hwhole := Source.holds_ofStream (Stream.steady_ofBytes (Read.delivered before)) rfl
  have hbytes : Stream.bytes ⟨[], before ++ finish⟩ = Read.delivered before :=
    Read.delivered_append hbefore hfinish
  rw [Stream.bytes_ofBytes] at hwhole
  rw [hbytes] at hholds
  have hagree : Agree streamed whole := agree_attach hholds hwhole t
  obtain ⟨tokens, hsupplies⟩ : ∃ tokens, streamed.Supplies tokens :=
    exists_supplies_attach hholds t
  have hreports : Reports finish cause streamed := by
    have hsource := Source.reports_ofStream hbefore hfinish
    show Reports finish cause (t.attach (Source.ofStream ⟨[], before ++ finish⟩).value).value
    rw [value_attach]
    exact reports_dispatch hsource hfinish
  refine ⟨⟨hagree.line, hagree.isDone⟩, fun n => ?_, ⟨tokens.length, ?_⟩, fun n hnone => ?_,
    fun u hu s hs => ?_⟩
  · obtain ⟨hanswer, hafter⟩ := hagree.call n
    exact ⟨hanswer, hafter.line, hafter.isDone⟩
  · rw [(hsupplies.call tokens.length).1, List.getElem?_eq_none (Nat.le_refl _)]
  · have hdone := (hsupplies.call n).2 hnone
    have hfailure := (hreports.call hfinish n).failure (Option.isNone_iff_eq_none.mp hdone)
    exact ⟨congrArg (Option.map ScanError.readFailed) hfailure, rfl⟩
  · have hsealed := (hu.isSealed hfinish hreports.source).later hfinish (fun _ _ => trivial) hs
    exact ⟨hsealed.isOpen, hsealed.suffix⟩

/-- A character over three reads, an interruption, and a failure in the middle of the next one. -/
theorem call_streamed_broken_pipe :
    let pipe : Fault := ⟨.brokenPipe, "pipe closed"⟩
    let before : List Read := [.data [0xe2], .failure ⟨.interrupted, "signal"⟩, .data [0x82],
      .data [0xac, 0x20, 0xc3]]
    let finish : List Read := [.failure pipe, .data [0xa9]]
    let streamed := (Source.ofStream ⟨[], before ++ finish⟩ >>= fun s => attach s default).value
    let whole := (Source.ofBytes (Read.delivered before) >>= fun s => attach s default).value
    (∀ read ∈ before, read.Continues) ∧ Read.Finish finish (some pipe) ∧
      (call 1 streamed).1 = (call 1 whole).1 ∧ (call 2 streamed).1 = none ∧
      (call 2 streamed).2.takeFailure.1 = some (.readFailed pipe) := by
  intro pipe before finish streamed whole
  have hbefore : ∀ read ∈ before, read.Continues := by
    simp [before, Read.Continues]
  have hfinish : Read.Finish finish (some pipe) := .failed (by decide)
  obtain ⟨-, hcalls, -, hdrained, -⟩ := call_streamed_eq_whole hbefore hfinish default
  have hend : (call 2 streamed).1 = none := by decide +kernel
  exact ⟨hbefore, hfinish, (hcalls 1).1, hend, (hdrained 2 hend).1⟩

end Tokenizer

end SemiLex
