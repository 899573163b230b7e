import SemiLex.Document.Lexeme

/-!
# Values that are passed over

The value of a field that nobody asks for has to be well formed, but it is not built.  One lexeme
after the other is checked against the containers that are open.
-/

namespace SemiLex

inductive Container where
  | sequence
  | object
  deriving DecidableEq, Repr

/-- What the next lexeme has to be. -/
inductive Place where
  | value
  /-- The first item of a container, or its end. -/
  | opened
  /-- A comma, or the end of a container. -/
  | following
  | key
  | colon
  deriving DecidableEq, Repr

/-- A place, and the containers around it from the inside out. -/
structure Passing where
  place : Place
  containers : List Container
  deriving DecidableEq, Repr

namespace Passing

def start : Passing :=
  ⟨.value, []⟩

def isDone (p : Passing) : Bool :=
  p.place = .following && p.containers.isEmpty

def passValue (containers : List Container) : DocumentLexeme → Except DocumentFault Passing
  | .literal value => value.map fun _ => ⟨.following, containers⟩
  | .number _ passed => passed.map fun _ => ⟨.following, containers⟩
  | .string _ passed => passed.map fun _ => ⟨.following, containers⟩
  | .openBracket => .ok ⟨.opened, .sequence :: containers⟩
  | .openBrace => .ok ⟨.opened, .object :: containers⟩
  | _ => .error .notAValue

def passKey (containers : List Container) : DocumentLexeme → Except DocumentFault Passing
  | .string _ passed => passed.map fun _ => ⟨.colon, containers⟩
  | _ => .error .keyNotAString

def step (p : Passing) (lexeme : DocumentLexeme) : Except DocumentFault Passing :=
  match p.place, p.containers, lexeme with
  | .value, containers, _ => passValue containers lexeme
  | .key, containers, _ => passKey containers lexeme
  | .colon, containers, .colon => .ok ⟨.value, containers⟩
  | .colon, _, _ => .error .colonMissing
  | .opened, .sequence :: outer, .closeBracket => .ok ⟨.following, outer⟩
  | .opened, .sequence :: outer, _ => passValue (.sequence :: outer) lexeme
  | .opened, .object :: outer, .closeBrace => .ok ⟨.following, outer⟩
  | .opened, .object :: outer, _ => passKey (.object :: outer) lexeme
  | .following, .sequence :: outer, .closeBracket => .ok ⟨.following, outer⟩
  | .following, .sequence :: outer, .comma => .ok ⟨.value, .sequence :: outer⟩
  | .following, .sequence :: _, _ => .error .sequenceCommaMissing
  | .following, .object :: outer, .closeBrace => .ok ⟨.following, outer⟩
  | .following, .object :: outer, .comma => .ok ⟨.key, .object :: outer⟩
  | .following, .object :: _, _ => .error .objectCommaMissing
  | .opened, [], _ | .following, [], _ => .error .trailingCharacters

/-- The fault of a document that ends here. -/
def fault (p : Passing) : DocumentFault :=
  match p.place, p.containers with
  | .value, _ => .noValue
  | .key, _ | .colon, _ => .unclosedObject
  | _, .sequence :: _ => .unclosedSequence
  | _, _ => .unclosedObject

def run (p : Passing) : List DocumentLexeme → Except DocumentFault (List DocumentLexeme)
  | [] => .error p.fault
  | lexeme :: rest =>
    match p.step lexeme with
    | .error fault => .error fault
    | .ok q => if q.isDone then .ok rest else run q rest

theorem length_run_lt {p : Passing} {lexemes rest : List DocumentLexeme}
    (h : p.run lexemes = .ok rest) : rest.length < lexemes.length := by
  induction lexemes generalizing p with
  | nil => cases h
  | cons lexeme lexemes ih =>
    rw [run] at h
    split at h
    · cases h
    · split at h
      · cases h
        exact Nat.lt_succ_self _
      · exact Nat.lt_succ_of_lt (ih h)

end Passing

end SemiLex
