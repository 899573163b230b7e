import SemiLex.Document.Passing

/-!
# Records of a document

A record is written as an object, or as a sequence of its fields in order.  Fields may be missing.
A field that the record does not have is passed over, one that it has must not be given twice.
-/

namespace SemiLex

/-! ## Values -/

def DocumentLexeme.found : DocumentLexeme → Except DocumentFault Found
  | literal value => value.map fun b => b.elim .null .boolean
  | number value _ => value.map .number
  | string value _ => value.map .string
  | openBracket => .ok .sequence
  | openBrace => .ok .object
  | _ => .error .notAValue

namespace Document

/-- The fault of a value that is not of the wanted type.  A damaged value is faulted for its
damage. -/
def mistyped (wanted : Wanted) : List DocumentLexeme → DocumentFault
  | [] => .noValue
  | lexeme :: _ => match lexeme.found with
    | .ok found => .wrongType found wanted
    | .error fault => fault

def readBoolean : List DocumentLexeme → Except DocumentFault (Bool × List DocumentLexeme)
  | .literal (.ok (some b)) :: rest => .ok (b, rest)
  | lexemes => .error (mistyped .boolean lexemes)

def itemText : DocumentLexeme → Except DocumentFault Text
  | .string value _ => value
  | lexeme => .error (mistyped .string [lexeme])

/-- The strings after the first one of a sequence. -/
def readMoreTexts : List DocumentLexeme → Except DocumentFault (List Text × List DocumentLexeme)
  | [] => .error .unclosedSequence
  | .closeBracket :: rest => .ok ([], rest)
  | [.comma] => .error .noValue
  | .comma :: .closeBracket :: _ => .error .trailingComma
  | .comma :: lexeme :: rest => do
    let text ← itemText lexeme
    let (texts, rest) ← readMoreTexts rest
    return (text :: texts, rest)
  | _ :: _ => .error .sequenceCommaMissing

def readTexts : List DocumentLexeme → Except DocumentFault (List Text × List DocumentLexeme)
  | [.openBracket] => .error .unclosedSequence
  | .openBracket :: .closeBracket :: rest => .ok ([], rest)
  | .openBracket :: lexeme :: rest => do
    let text ← itemText lexeme
    let (texts, rest) ← readMoreTexts rest
    return (text :: texts, rest)
  | lexemes => .error (mistyped .sequence lexemes)

def afterColon : List DocumentLexeme → Except DocumentFault (List DocumentLexeme)
  | [] => .error .unclosedObject
  | .colon :: rest => .ok rest
  | _ :: _ => .error .colonMissing

theorem length_readBoolean_lt {lexemes rest : List DocumentLexeme} {b : Bool}
    (h : readBoolean lexemes = .ok (b, rest)) : rest.length < lexemes.length := by
  unfold readBoolean at h
  split at h
  · cases h
    exact Nat.lt_succ_self _
  · cases h

theorem length_readMoreTexts_lt {lexemes rest : List DocumentLexeme} {texts : List Text}
    (h : readMoreTexts lexemes = .ok (texts, rest)) : rest.length < lexemes.length := by
  fun_induction readMoreTexts lexemes generalizing texts with
  | case1 => cases h
  | case2 rest' =>
    cases h
    exact Nat.lt_succ_self _
  | case3 => cases h
  | case4 => cases h
  | case5 lexeme more _ ih =>
    simp only [bind, Except.bind] at h
    split at h
    · cases h
    · split at h
      · cases h
      · rename_i r hr
        obtain ⟨_, _⟩ := r
        cases h
        have := ih hr
        simp only [List.length_cons] at this ⊢
        omega
  | case6 => cases h

theorem length_readTexts_lt {lexemes rest : List DocumentLexeme} {texts : List Text}
    (h : readTexts lexemes = .ok (texts, rest)) : rest.length < lexemes.length := by
  unfold readTexts at h
  split at h
  · cases h
  · cases h
    simp only [List.length_cons]
    omega
  · simp only [bind, Except.bind] at h
    split at h
    · cases h
    · split at h
      · cases h
      · rename_i r hr
        obtain ⟨_, _⟩ := r
        cases h
        have := length_readMoreTexts_lt hr
        simp only [List.length_cons] at this ⊢
        omega
  · cases h

theorem length_afterColon_lt {lexemes rest : List DocumentLexeme}
    (h : afterColon lexemes = .ok rest) : rest.length < lexemes.length := by
  unfold afterColon at h
  split at h <;> cases h
  exact Nat.lt_succ_self _

end Document

/-! ## Records -/

structure Field (σ : Type) where
  key : Text
  /-- Reads the value of the field.  The result puts it into a record. -/
  read : List DocumentLexeme → Except DocumentFault ((σ → σ) × List DocumentLexeme)
  length_read_lt : ∀ {lexemes put rest}, read lexemes = .ok (put, rest) →
    rest.length < lexemes.length

/-- The fields of a type, in order, and the value that has none of them set. -/
structure Record (σ : Type) where
  wanted : Wanted
  fields : List (Field σ)
  default : σ

namespace Record

open Document

variable {σ : Type}

def field? (r : Record σ) (key : Text) : Option (Field σ) :=
  r.fields.find? fun field => field.key == key

/-- Reads what follows a key.  The keys in front of it are `seen`. -/
def readMember (r : Record σ) (seen : List Text) (key : Text) (lexemes : List DocumentLexeme) :
    Except DocumentFault ((σ → σ) × List DocumentLexeme) :=
  match r.field? key with
  | some field =>
    if key ∈ seen then .error (.duplicateField key)
    else afterColon lexemes >>= field.read
  | none => do
    let lexemes ← afterColon lexemes
    let rest ← Passing.start.run lexemes
    return (id, rest)

theorem length_readMember_lt {r : Record σ} {seen : List Text} {key : Text}
    {lexemes rest : List DocumentLexeme} {put : σ → σ}
    (h : r.readMember seen key lexemes = .ok (put, rest)) : rest.length < lexemes.length := by
  rw [readMember] at h
  split at h
  · rename_i field _
    split at h
    · cases h
    · simp only [bind, Except.bind] at h
      split at h
      · cases h
      · rename_i after hafter
        exact Nat.lt_trans (field.length_read_lt h) (length_afterColon_lt hafter)
  · simp only [bind, Except.bind] at h
    split at h
    · cases h
    · rename_i after hafter
      split at h
      · cases h
      · rename_i passed hpassed
        cases h
        exact Nat.lt_trans (Passing.length_run_lt hpassed) (length_afterColon_lt hafter)

def readMembers (r : Record σ) (seen : List Text) (value : σ) (lexemes : List DocumentLexeme) :
    Except DocumentFault (σ × List DocumentLexeme) :=
  match lexemes with
  | [] => .error .noValue
  | .closeBrace :: _ => .error .trailingComma
  | .string key _ :: lexemes =>
    match key with
    | .error fault => .error fault
    | .ok key =>
      match _h : r.readMember seen key lexemes with
      | .error fault => .error fault
      | .ok (_, []) => .error .unclosedObject
      | .ok (put, .closeBrace :: rest) => .ok (put value, rest)
      | .ok (put, .comma :: rest) => readMembers r (key :: seen) (put value) rest
      | .ok (_, _ :: _) => .error .objectCommaMissing
  | _ :: _ => .error .keyNotAString
termination_by lexemes.length
decreasing_by
  have := length_readMember_lt _h
  simp only [List.length_cons] at this ⊢
  omega

/-- Where the next item of a sequence starts: past the comma that separates it from the one
before. -/
def itemAt (isFirst : Bool) (lexemes : List DocumentLexeme) :
    Except DocumentFault (List DocumentLexeme) :=
  if isFirst then .ok lexemes
  else match lexemes with
    | [.comma] => .error .noValue
    | .comma :: .closeBracket :: _ => .error .trailingComma
    | .comma :: rest => .ok rest
    | _ => .error .sequenceCommaMissing

def readItems (value : σ) (isFirst : Bool) :
    List (Field σ) → List DocumentLexeme → Except DocumentFault (σ × List DocumentLexeme)
  | _, [] => .error .unclosedSequence
  | _, .closeBracket :: rest => .ok (value, rest)
  | [], .comma :: .closeBracket :: _ => .error .trailingComma
  | [], _ => .error .trailingCharacters
  | field :: fields, lexemes => do
    let lexemes ← itemAt isFirst lexemes
    let (put, rest) ← field.read lexemes
    readItems (put value) false fields rest

def read (r : Record σ) :
    List DocumentLexeme → Except DocumentFault (σ × List DocumentLexeme)
  | [.openBrace] => .error .unclosedObject
  | .openBrace :: .closeBrace :: rest => .ok (r.default, rest)
  | .openBrace :: lexemes => r.readMembers [] r.default lexemes
  | .openBracket :: lexemes => readItems r.default true r.fields lexemes
  | lexemes => .error (mistyped r.wanted lexemes)

/-- Reads a document that is one record and nothing else. -/
def readAll (r : Record σ) (text : Text) : Except DocumentFault σ := do
  match ← r.read (DocumentLexeme.all text) with
  | (value, []) => return value
  | (_, _ :: _) => throw .trailingCharacters

theorem length_readMembers_lt {r : Record σ} {seen : List Text} {value result : σ}
    {lexemes rest : List DocumentLexeme}
    (h : r.readMembers seen value lexemes = .ok (result, rest)) :
    rest.length < lexemes.length := by
  fun_induction readMembers r seen value lexemes with
  | case1 => cases h
  | case2 => cases h
  | case3 => cases h
  | case4 => cases h
  | case5 => cases h
  | case6 seen value passed key more put rest' hmember =>
    have := length_readMember_lt hmember
    cases h
    simp only [List.length_cons] at this ⊢
    omega
  | case7 seen value passed key more put rest' hmember ih =>
    have := length_readMember_lt hmember
    have := ih h
    simp only [List.length_cons] at *
    omega
  | case8 => cases h
  | case9 => cases h

theorem length_itemAt_le {isFirst : Bool} {lexemes rest : List DocumentLexeme}
    (h : itemAt isFirst lexemes = .ok rest) : rest.length ≤ lexemes.length := by
  unfold itemAt at h
  split at h
  · cases h
    exact Nat.le_refl _
  · split at h <;> cases h
    exact Nat.le_succ _

theorem length_readItems_lt {value result : σ} {isFirst : Bool} {fields : List (Field σ)}
    {lexemes rest : List DocumentLexeme}
    (h : readItems value isFirst fields lexemes = .ok (result, rest)) :
    rest.length < lexemes.length := by
  induction fields generalizing value isFirst lexemes with
  | nil =>
    unfold readItems at h
    split at h
    · cases h
    · cases h
      exact Nat.lt_succ_self _
    · cases h
    · cases h
    · contradiction
  | cons field fields ih =>
    unfold readItems at h
    split at h
    · cases h
    · cases h
      exact Nat.lt_succ_self _
    · contradiction
    · contradiction
    · rename_i hfields _ _
      cases hfields
      simp only [bind, Except.bind] at h
      split at h
      · cases h
      · rename_i item hitem
        have hle := length_itemAt_le hitem
        split at h
        · cases h
        · rename_i r hr
          have hlt := field.length_read_lt hr
          exact Nat.lt_trans (ih h) (Nat.lt_of_lt_of_le hlt hle)

theorem length_read_lt {r : Record σ} {value : σ} {lexemes rest : List DocumentLexeme}
    (h : r.read lexemes = .ok (value, rest)) : rest.length < lexemes.length := by
  unfold read at h
  split at h
  · cases h
  · cases h
    simp only [List.length_cons]
    omega
  · exact Nat.lt_succ_of_lt (length_readMembers_lt h)
  · exact Nat.lt_succ_of_lt (length_readItems_lt h)
  · cases h

end Record

end SemiLex
