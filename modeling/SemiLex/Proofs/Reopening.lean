import SemiLex.Proofs.Collecting
import SemiLex.Proofs.Settling
import SemiLex.Proofs.Transport

/-!
# Opening another source

Whatever was done with a tokenizer or a collector before, behind an opening that succeeds it
answers as a new one does that was opened on the same text.  An opening that fails leaves it without
input, and the next one that succeeds makes it as new again.  From before an opening nothing is left
but the settings.
-/

namespace SemiLex

/-- The answers to queries that are asked one after the other. -/
def answersOf {σ query answer : Type} (ask : query → σ → Logged (answer × σ)) :
    List query → σ → Logged (List answer)
  | [], _ => pure []
  | q :: queries, s => do
    let (first, s) ← ask q s
    let others ← answersOf ask queries s
    return first :: others

theorem Source.value_close (s : Source) :
    s.close.value = { s with stream := none, lookahead := [] } := by
  rw [close]
  split <;> rfl

/-! ## Tokenizers -/

namespace Tokenizer

variable {settings : ScanSettings} {t u : Tokenizer}

inductive Query where
  | next
  | line
  | isDone
  | takeFailure
  deriving DecidableEq, Repr

inductive Answer where
  | token (token : Option Token)
  | line (line : Nat)
  | isDone (done : Bool)
  | failure (failure : Option ScanError)
  deriving DecidableEq, Repr

def ask : Query → Tokenizer → Logged (Answer × Tokenizer)
  | .next, t => do
    let (token, t) ← t.next
    return (.token token, t)
  | .line, t => pure (.line t.line, t)
  | .isDone, t => pure (.isDone t.isDone, t)
  | .takeFailure, t => pure (.failure t.takeFailure.1, t.takeFailure.2)

inductive Operation where
  | attach (source : Source)
  | openText (text : Text)
  | tryOpen (files : FileTree) (path : String)
  | openFile (files : FileTree) (path : String)
  | close
  | next
  | takeFailure
  | setReturnNewlines (markers : Bool)

def after (t : Tokenizer) : Operation → Tokenizer
  | .attach source => (t.attach source).value
  | .openText text => (t.openText text).value
  | .tryOpen files path => (t.tryOpen files path).value.2
  | .openFile files path => (t.openFile files path).value.2
  | .close => t.close.value
  | .next => t.next.value.2
  | .takeFailure => t.takeFailure.2
  | .setReturnNewlines markers => { t with returnNewlines := markers }

/-- The settings after an operation. -/
def Operation.adjust (settings : ScanSettings) : Operation → ScanSettings
  | .setReturnNewlines markers => { settings with returnNewlines := markers }
  | _ => settings

structure Follows (settings : ScanSettings) (t : Tokenizer) : Prop where
  operators : t.operators = .ofSettings settings
  returnNewlines : t.returnNewlines = settings.returnNewlines

theorem follows_ofSettings (settings : ScanSettings) : (ofSettings settings).Follows settings :=
  ⟨rfl, rfl⟩

theorem Follows.next {t : Tokenizer} (h : t.Follows settings) :
    t.next.value.2.Follows settings := by
  rw [value_next]
  split
  · exact h
  · rename_i phase hphase
    have hround : (t.round phase).value.2.Follows settings := ⟨h.operators, h.returnNewlines⟩
    split
    · rename_i v hv
      rwa [hv] at hround
    · rename_i lexeme v hv
      have hlt := size_round_lt hv
      rw [hv] at hround
      split
      · exact hround
      · exact hround.next
termination_by t.source.size

theorem Follows.later (h : t.Follows settings) (hlater : Later t u) : u.Follows settings := by
  induction hlater with
  | now => exact h
  | next _ ih => exact ih.next
  | takeFailure _ ih => exact ⟨ih.operators, ih.returnNewlines⟩

theorem Follows.attach (h : t.Follows settings) (source : Source) :
    (t.attach source).value.Follows settings :=
  ⟨h.operators, h.returnNewlines⟩

theorem Follows.openText (h : t.Follows settings) (text : Text) :
    (t.openText text).value.Follows settings := by
  simp only [Tokenizer.openText, Logged.value_bind]
  exact h.attach _

theorem Follows.tryOpen (h : t.Follows settings) (files : FileTree) (path : String) :
    (t.tryOpen files path).value.2.Follows settings := by
  simp only [Tokenizer.tryOpen, Logged.value_bind]
  split
  · exact ⟨h.operators, h.returnNewlines⟩
  · exact ⟨h.operators, h.returnNewlines⟩

theorem Follows.after (h : t.Follows settings) (operation : Operation) :
    (t.after operation).Follows (Operation.adjust settings operation) := by
  cases operation with
  | next => exact h.next
  | tryOpen files path => exact h.tryOpen files path
  | openFile files path =>
    rw [Tokenizer.after, value_openFile]
    exact h.tryOpen files path
  | setReturnNewlines markers => exact ⟨h.operators, rfl⟩
  | attach source => exact h.attach source
  | openText text => exact h.openText text
  | close => exact ⟨h.operators, h.returnNewlines⟩
  | takeFailure => exact ⟨h.operators, h.returnNewlines⟩

theorem Follows.foldl_after (h : t.Follows settings) (operations : List Operation) :
    (operations.foldl Tokenizer.after t).Follows (operations.foldl Operation.adjust settings) := by
  induction operations generalizing t settings with
  | nil => exact h
  | cons operation operations ih => exact ih (h.after operation)

/-! ## Tokenizers that open something -/

/-- Nothing is left to read, neither in the stream nor in the queue. -/
structure Drained (t : Tokenizer) : Prop where
  phase : t.phase = none
  stream : t.source.stream = none
  lookahead : t.source.lookahead = []

theorem Drained.next (h : t.Drained) : t.next.value = (none, t) := by
  rw [value_next, h.phase]

theorem drained_close (t : Tokenizer) :
    Drained { t with source := t.source.close.value, phase := none } := by
  refine ⟨rfl, ?_, ?_⟩
  · rw [Source.value_close]
  · rw [Source.value_close]

theorem Drained.readsOn (h : t.Drained) (hu : ReadsOn t u) : u.Drained := by
  induction hu with
  | now => exact h
  | next _ ih =>
    rw [ih.next]
    exact ih
  | setReturnNewlines markers _ ih => exact ⟨ih.phase, ih.stream, ih.lookahead⟩
  | takeFailure _ ih => exact ⟨ih.phase, ih.stream, ih.lookahead⟩
  | close _ _ => exact drained_close _

theorem Later.readsOn (h : Later t u) : ReadsOn t u := by
  induction h with
  | now => exact .now
  | next _ ih => exact ih.next
  | takeFailure _ ih => exact ih.takeFailure

theorem value_tryOpen_ok {files : FileTree} {path : String} {bytes : List UInt8}
    (h : files.scanned path.toList = .ok bytes) (t : Tokenizer) :
    (t.tryOpen files path).value = (.ok (), (t.attach (Source.ofBytes bytes).value).value) := by
  simp only [tryOpen, Source.tryOpen, Logged.value_bind, Logged.value_pure, h, value_attach]

theorem value_tryOpen_error {files : FileTree} {path : String} {cause : Fault}
    (h : files.scanned path.toList = .error cause) (t : Tokenizer) :
    (t.tryOpen files path).value = (.error (.cannotOpen path cause),
      { t with source := t.source.close.value, phase := none }) := by
  simp only [tryOpen, Source.tryOpen, Logged.value_bind, Logged.value_pure, h]

theorem Follows.value_attach (h : t.Follows settings) (source : Source) :
    (t.attach source).value = ((ofSettings settings).attach source).value := by
  have hsame : ({ t with source } : Tokenizer).dispatch.value =
      (dispatch { ofSettings settings with source }).value := by
    simp only [dispatch, Logged.value_bind, Logged.value_pure, h.operators, h.returnNewlines,
      ofSettings]
  rw [Tokenizer.value_attach, Tokenizer.value_attach, hsame]

theorem Follows.value_openText (h : t.Follows settings) (text : Text) :
    (t.openText text).value = ((ofSettings settings).openText text).value := by
  simp only [Tokenizer.openText, Logged.value_bind]
  exact h.value_attach _

theorem line_openText (text : Text) (t : Tokenizer) : (t.openText text).value.line = 1 := by
  have hline := (faces_openText text t).line
  omega

/-- `t` answers as `fresh` does once they have opened the same, and keeps nothing but its settings
in an opening that fails. -/
structure StartsOver (fresh t : Tokenizer) : Prop where
  text (text : Text) (queries : List Query) :
    answersOf ask queries (t.openText text).value =
      answersOf ask queries (fresh.openText text).value
  line (text : Text) : (t.openText text).value.line = 1
  file {files : FileTree} {path : String} {text : Text}
    (h : files.scanned path.toList = .ok (Utf8.encode text)) :
    (t.tryOpen files path).value = (.ok (), (t.openText text).value) ∧
      (t.openFile files path).value = (true, (t.openText text).value)
  missing {files : FileTree} {path : String} {cause : Fault}
    (h : files.scanned path.toList = .error cause) :
    ∃ u, (t.tryOpen files path).value = (.error (.cannotOpen path cause), u) ∧
      (t.openFile files path).value = (false, u) ∧
      u.operators = t.operators ∧ u.returnNewlines = t.returnNewlines ∧
      ∀ v, ReadsOn u v → v.Drained ∧ v.next.value.1 = none

theorem Follows.startsOver (h : t.Follows settings) : StartsOver (ofSettings settings) t where
  text text queries := by rw [h.value_openText]
  line text := line_openText text t
  file {files path text} hfile := by
    have hsame : (t.openText text).value =
        (t.attach (Source.ofBytes (Utf8.encode text)).value).value := by
      simp only [Tokenizer.openText, Source.ofText, Logged.value_bind]
    rw [value_openFile, value_tryOpen_ok hfile, hsame]
    exact ⟨rfl, rfl⟩
  missing hfile := by
    rw [value_openFile, value_tryOpen_error hfile]
    refine ⟨_, rfl, rfl, rfl, rfl, fun v hv => ?_⟩
    have hdrained := (drained_close t).readsOn hv
    exact ⟨hdrained, congrArg Prod.fst hdrained.next⟩

end Tokenizer

/-! ## Collectors -/

namespace Collector

variable {settings : Settings} {c d : Collector}

inductive Query where
  | next
  | line
  | isDone
  deriving DecidableEq, Repr

/-- A call is answered with the semi-expression behind it. -/
inductive Answer where
  | semi (found : Bool) (semi : SemiExpression)
  | line (line : Nat)
  | isDone (done : Bool)
  deriving DecidableEq, Repr

def ask : Query → Collector → Logged (Answer × Collector)
  | .next, c => do
    let (found, c) ← c.next
    return (.semi found c.semi, c)
  | .line, c => pure (.line c.line, c)
  | .isDone, c => pure (.isDone c.isDone, c)

inductive Operation where
  | openText (text : Text)
  | tryOpen (files : FileTree) (path : String)
  | openFile (files : FileTree) (path : String)
  | close
  | next
  | takeSemi
  | edit (change : SemiExpression → SemiExpression)
  | setSettings (settings : GroupSettings)

def after (c : Collector) : Operation → Collector
  | .openText text => (c.openText text).value
  | .tryOpen files path => (c.tryOpen files path).value.2
  | .openFile files path => (c.openFile files path).value.2
  | .close => c.close.value
  | .next => c.next.value.2
  | .takeSemi => c.takeSemi.2
  | .edit change => { c with semi := change c.semi }
  | .setSettings settings => { c with settings }

def Operation.adjust (settings : Settings) : Operation → Settings
  | .setSettings semi => { settings with semi }
  | _ => settings

structure Follows (settings : Settings) (c : Collector) : Prop where
  tokenizer : c.tokenizer.Follows { settings.scanner with returnNewlines := true }
  settings : c.settings = settings.semi

theorem tokenizer_ofSettings (settings : Settings) : (ofSettings settings).tokenizer =
    .ofSettings { settings.scanner with returnNewlines := true } := rfl

theorem follows_ofSettings (settings : Settings) : (ofSettings settings).Follows settings :=
  ⟨⟨rfl, rfl⟩, rfl⟩

/-! ### What a call does to the tokenizer -/

theorem later_takeUnit {s t : Tokenizer} (h : s.Later t) (settings : GroupSettings)
    (first : Option Token) : s.Later (takeUnit settings first t).value.2 := by
  have hnext := h.next
  rw [takeUnit_eq]
  simp only [Logged.value_bind]
  split
  · rename_i u hu
    rwa [hu] at hnext
  · rename_i token u hu
    have hlt := Tokenizer.size_next_lt hu
    rw [hu] at hnext
    split
    · exact later_takeUnit hnext settings first
    · split
      · split
        · exact hnext
        · exact later_takeUnit hnext settings (first.or (some token))
      · split
        · exact hnext
        · exact later_takeUnit hnext settings first
termination_by t.source.size

theorem later_collectUnit {s t : Tokenizer} (h : s.Later t) (settings : GroupSettings) :
    s.Later (collectUnit settings t).value.2 :=
  later_takeUnit h settings none

theorem later_mergeClauses {s t : Tokenizer} (h : s.Later t) (settings : GroupSettings)
    (semi : SemiExpression) (line : Nat) :
    s.Later (mergeClauses settings semi line t).value.2 := by
  rw [mergeClauses]
  split
  · exact later_collectUnit (later_collectUnit h settings) settings
  · exact h

theorem later_next (c : Collector) : c.tokenizer.Later c.next.value.2.tokenizer :=
  later_mergeClauses (later_collectUnit .now c.settings) c.settings _ c.line

theorem Follows.next (h : c.Follows settings) : c.next.value.2.Follows settings where
  tokenizer := h.tokenizer.later (later_next c)
  settings := h.settings

theorem Follows.after (h : c.Follows settings) (operation : Operation) :
    (c.after operation).Follows (Operation.adjust settings operation) := by
  cases operation with
  | openText text =>
    rw [Collector.after, value_openText]
    exact ⟨h.tokenizer.openText text, h.settings⟩
  | tryOpen files path => exact ⟨h.tokenizer.after (.tryOpen files path), h.settings⟩
  | openFile files path => exact ⟨h.tokenizer.after (.openFile files path), h.settings⟩
  | close => exact ⟨h.tokenizer.after .close, h.settings⟩
  | next => exact h.next
  | takeSemi => exact ⟨h.tokenizer, h.settings⟩
  | edit change => exact ⟨h.tokenizer, h.settings⟩
  | setSettings semi => exact ⟨h.tokenizer, rfl⟩

theorem Follows.foldl_after (h : c.Follows settings) (operations : List Operation) :
    (operations.foldl Collector.after c).Follows (operations.foldl Operation.adjust settings) := by
  induction operations generalizing c settings with
  | nil => exact h
  | cons operation operations ih => exact ih (h.after operation)

/-! ## Collectors that open something -/

/-- Where nothing is left to read, a call empties the semi-expression and changes nothing else. -/
theorem value_next_of_drained (h : c.tokenizer.Drained) :
    c.next.value = (false, { c with semi := ∅ }) := by
  have htake : (takeUnit c.settings none c.tokenizer).value = ([], c.tokenizer) := by
    rw [takeUnit_eq, Logged.value_bind, h.next]
    rfl
  have hcollect : (collectUnit c.settings c.tokenizer).value = (∅, c.tokenizer) := by
    rw [collectUnit, Logged.value_bind, htake]
    rfl
  rw [Collector.next, Logged.value_bind, hcollect]
  rfl

theorem call_of_drained (h : c.tokenizer.Drained) (n : Nat) :
    call n c = (false, { c with semi := ∅ }) := by
  induction n generalizing c with
  | zero => exact value_next_of_drained h
  | succ n ih =>
    rw [call, value_next_of_drained h]
    exact ih (c := { c with semi := ∅ }) h

theorem answersOf_semi (semi : SemiExpression) (queries : List Query) (c : Collector) :
    answersOf ask queries { c with semi } = answersOf ask queries c := by
  induction queries with
  | nil => rfl
  | cons query queries ih =>
    cases query with
    | next => rfl
    | line =>
      simp only [answersOf, ask, pure_bind, ih]
      rfl
    | isDone =>
      simp only [answersOf, ask, pure_bind, ih]
      rfl

/-- `c` answers as `fresh` does once they have opened the same, and keeps nothing but its settings
and the semi-expression collected last in an opening that fails. -/
structure StartsOver (fresh c : Collector) : Prop where
  text (text : Text) (queries : List Query) :
    answersOf ask queries (c.openText text).value =
      answersOf ask queries (fresh.openText text).value
  line (text : Text) : (c.openText text).value.line = 1
  file {files : FileTree} {path : String} {text : Text}
    (h : files.scanned path.toList = .ok (Utf8.encode text)) :
    (c.tryOpen files path).value = (.ok (), (c.openText text).value) ∧
      (c.openFile files path).value = (true, (c.openText text).value)
  missing {files : FileTree} {path : String} {cause : Fault}
    (h : files.scanned path.toList = .error cause) :
    ∃ d, (c.tryOpen files path).value = (.error (.cannotOpen path cause), d) ∧
      (c.openFile files path).value = (false, d) ∧
      d.settings = c.settings ∧ d.tokenizer.operators = c.tokenizer.operators ∧
      d.tokenizer.returnNewlines = c.tokenizer.returnNewlines ∧ d.tokenizer.Drained ∧
      ∀ n, call n d = (false, { d with semi := ∅ })

theorem Follows.startsOver (h : c.Follows settings) : StartsOver (ofSettings settings) c where
  text text queries := by
    have hsame : (c.openText text).value =
        { ((ofSettings settings).openText text).value with semi := c.semi } := by
      rw [value_openText, value_openText, h.tokenizer.value_openText, h.settings,
        tokenizer_ofSettings]
      generalize Tokenizer.openText _ _ = opened
      rfl
    rw [hsame, answersOf_semi]
  line text := by
    rw [value_openText]
    exact Tokenizer.line_openText text c.tokenizer
  file hfile := by
    obtain ⟨htry, hopen⟩ := h.tokenizer.startsOver.file hfile
    rw [value_openText, tryOpen, openFile, Logged.value_bind, Logged.value_bind, htry, hopen]
    exact ⟨rfl, rfl⟩
  missing hfile := by
    obtain ⟨u, htry, hopen, hoperators, hmarkers, hdrained⟩ := h.tokenizer.startsOver.missing hfile
    have hu := (hdrained u .now).1
    rw [tryOpen, openFile, Logged.value_bind, Logged.value_bind, htry, hopen]
    exact ⟨{ c with tokenizer := u }, rfl, rfl, rfl, hoperators, hmarkers, hu, call_of_drained hu⟩

end Collector

/-- Whatever operations a tokenizer or a collector has behind it, it starts over when something is
opened: it goes on as a new one with the settings that they have left it.  An opening that fails
leaves it empty, and is one more of these operations for the next opening. -/
theorem reopened_startsOver :
    (∀ (settings : ScanSettings) (operations : List Tokenizer.Operation),
      Tokenizer.StartsOver
        (Tokenizer.ofSettings (operations.foldl Tokenizer.Operation.adjust settings))
        (operations.foldl Tokenizer.after (Tokenizer.ofSettings settings))) ∧
    ∀ (settings : Settings) (operations : List Collector.Operation),
      Collector.StartsOver
        (Collector.ofSettings (operations.foldl Collector.Operation.adjust settings))
        (operations.foldl Collector.after (Collector.ofSettings settings)) := by
  constructor
  · intro settings operations
    have hfollows := (Tokenizer.follows_ofSettings settings).foldl_after operations
    exact hfollows.startsOver
  · intro settings operations
    have hfollows := (Collector.follows_ofSettings settings).foldl_after operations
    exact hfollows.startsOver

/-- A tokenizer whose input broke off, and a collector in the middle of its input with an edited
semi-expression. -/
theorem reopened_startsOver_broken :
    let pipe : Fault := ⟨.brokenPipe, "pipe closed"⟩
    let broken : Stream := ⟨[], [.data [0x61, 0x3a], .failure pipe]⟩
    let calls : List Tokenizer.Operation := [.attach (Source.ofStream broken).value, .next, .next]
    let t := calls.foldl Tokenizer.after (.ofSettings .default)
    let edits : List Collector.Operation := [.openText ['a', ';', '\n', 'b'], .next,
      .edit fun semi => semi.push ⟨['f', 'o', 'r'], .word⟩]
    let c := edits.foldl Collector.after (.ofSettings .default)
    t.source.failure = some pipe ∧ c.tokenizer.source.lookahead = ['\n'] ∧
      c.semi.tokens.length = 3 ∧
      Tokenizer.StartsOver (.ofSettings .default) t ∧
      Collector.StartsOver (.ofSettings .default) c := by
  intro pipe broken calls t edits c
  have hfailure : t.source.failure = some pipe := by decide +kernel
  have hlookahead : c.tokenizer.source.lookahead = ['\n'] := by decide +kernel
  have hedited : c.semi.tokens.length = 3 := by decide +kernel
  exact ⟨hfailure, hlookahead, hedited, reopened_startsOver.1 .default calls,
    reopened_startsOver.2 .default edits⟩

end SemiLex
