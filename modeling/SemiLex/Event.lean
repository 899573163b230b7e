import SemiLex.Fault
import SemiLex.Text.Utf8

/-!
# Logged events

Everything the scanning layers report on the side.  `Logged` is a value together with the events
reported while it was computed; the events never decide a value.
-/

namespace SemiLex

inductive Level where
  | trace
  | debug
  | warn
  deriving DecidableEq, Repr

inductive Event where
  | sourceOpened (path : String)
  | sourceClosed (line : Nat)
  | sourceNotOpened (error : ScanError)
  | tokenizerNotOpened (error : ScanError)
  | malformed (form : Utf8.Malformation) (lead : UInt8)
  | readFailed (cause : Fault) (line : Nat)
  | tokenScanned (token : Text) (line : Nat)
  | clausesMerged (line : Nat)
  | semiCollected (rendering : Text) (line : Nat)
  deriving DecidableEq, Repr

namespace Event

def level : Event → Level
  | tokenScanned .. => .trace
  | sourceOpened _ | sourceClosed _ | clausesMerged _ | semiCollected .. => .debug
  | sourceNotOpened _ | tokenizerNotOpened _ | malformed .. | readFailed .. => .warn

def message : Event → String
  | sourceOpened _ => "opened source"
  | sourceClosed _ => "closed source"
  | sourceNotOpened _ => "failed to open source"
  | tokenizerNotOpened _ => "tokenizer could not open source"
  | malformed form _ => form.message
  | readFailed .. => "treating read failure as end of input"
  | tokenScanned .. => "token"
  | clausesMerged _ => "merging for-loop clauses"
  | semiCollected .. => "semi-expression"

end Event

/-- A value and the events reported on the way to it, in order. -/
structure Logged (α : Type) where
  value : α
  log : List Event

namespace Logged

variable {α β : Type}

/-- Puts a log behind another one.  A log that nothing follows is kept as it is, so that the last
step of a long computation does not copy what came before. -/
def joinLogs (first second : List Event) : List Event :=
  if second.isEmpty then first else first ++ second

theorem joinLogs_eq_append (first second : List Event) :
    joinLogs first second = first ++ second := by
  cases second <;> simp [joinLogs]

instance : Monad Logged where
  pure a := ⟨a, []⟩
  bind x f :=
    let y := f x.value
    ⟨y.value, joinLogs x.log y.log⟩

def report (event : Event) : Logged Unit :=
  ⟨(), [event]⟩

/-- The same computation, whose value comes with the equation that defines it.  A recursion that
continues with the value finds there why it ends. -/
def attach (x : Logged α) : Logged { a : α // a = x.value } :=
  ⟨⟨x.value, rfl⟩, x.log⟩

@[simp] theorem value_pure (a : α) : (pure a : Logged α).value = a := rfl

@[simp] theorem log_pure (a : α) : (pure a : Logged α).log = [] := rfl

@[simp] theorem value_bind (x : Logged α) (f : α → Logged β) :
    (x >>= f).value = (f x.value).value := rfl

@[simp] theorem log_bind (x : Logged α) (f : α → Logged β) :
    (x >>= f).log = x.log ++ (f x.value).log :=
  joinLogs_eq_append _ _

@[simp] theorem value_map (f : α → β) (x : Logged α) : (f <$> x).value = f x.value := rfl

@[simp] theorem log_map (f : α → β) (x : Logged α) : (f <$> x).log = x.log := rfl

@[simp] theorem value_report (event : Event) : (report event).value = () := rfl

@[simp] theorem log_report (event : Event) : (report event).log = [event] := rfl

@[ext] theorem ext {x y : Logged α} (value : x.value = y.value) (log : x.log = y.log) :
    x = y := by
  cases x
  cases y
  cases value
  cases log
  rfl

instance : LawfulMonad Logged :=
  .mk' _
    (by intros; apply ext <;> simp)
    (by intros; apply ext <;> simp)
    (by intros; apply ext <;> simp)

theorem attach_bind_congr {x : Logged α} {f : { a : α // a = x.value } → Logged β}
    {g : α → Logged β} (h : ∀ (a : α) (ha : a = x.value), f ⟨a, ha⟩ = g a) :
    x.attach >>= f = x >>= g := by
  have hx : f x.attach.value = g x.value := h x.value rfl
  apply ext
  · rw [value_bind, value_bind, hx]
  · rw [log_bind, log_bind, hx]
    rfl

end Logged

end SemiLex
