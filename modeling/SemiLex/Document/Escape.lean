import SemiLex.Document.Fault

/-!
# Strings of a document

`unescape` reads a string whose value is wanted, `pass` one that is only passed over.  Passing over
does not ask whether surrogates come in pairs.
-/

namespace SemiLex.Escape

def escapeLetter? : Char → Option Char
  | '"' => some '"'
  | '\\' => some '\\'
  | '/' => some '/'
  | 'b' => some '\x08'
  | 'f' => some '\x0c'
  | 'n' => some '\n'
  | 'r' => some '\r'
  | 't' => some '\t'
  | _ => none

def hexDigit? (c : Char) : Option Nat :=
  if c.isDigit then some (c.toNat - '0'.toNat)
  else if 'a' ≤ c ∧ c ≤ 'f' then some (c.toNat - 'a'.toNat + 10)
  else if 'A' ≤ c ∧ c ≤ 'F' then some (c.toNat - 'A'.toNat + 10)
  else none

def hexValue? : Text → Option Nat :=
  List.foldl (fun n c => do
    let n ← n
    let d ← hexDigit? c
    return n * 16 + d) (some 0)

/-- The number spelt by the four hexadecimal digits that have to stand at the start of a text.
Fewer than four bytes are the end of the text. -/
def fourDigits (text : Text) : Except DocumentFault Nat :=
  let digits := text.take 4
  if Text.byteLength digits < 4 then .error .unclosedString
  else if digits.length < 4 then .error .invalidEscape
  else match hexValue? digits with
    | some n => .ok n
    | none => .error .invalidEscape

def isLeadingSurrogate (n : Nat) : Bool :=
  0xd800 ≤ n && n ≤ 0xdbff

def isTrailingSurrogate (n : Nat) : Bool :=
  0xdc00 ≤ n && n ≤ 0xdfff

/-- The character of an escape by number, and what follows it.  A leading surrogate has to be
followed by an escaped trailing one. -/
def numbered (text : Text) : Except DocumentFault (Char × Text) := do
  let n ← fourDigits text
  let text := text.drop 4
  if isTrailingSurrogate n then throw .loneSurrogate
  else if isLeadingSurrogate n then
    match text with
    | [] | ['\\'] => throw .unclosedString
    | '\\' :: 'u' :: text =>
      let m ← fourDigits text
      if isTrailingSurrogate m then
        return (Char.ofNat (0x10000 + (n - 0xd800) * 0x400 + (m - 0xdc00)), text.drop 4)
      else throw .loneSurrogate
    | _ => throw .surrogateCutOff
  else return (Char.ofNat n, text)

/-- The character of the escape whose backslash was read, and what follows it. -/
def escaped : Text → Except DocumentFault (Char × Text)
  | [] => .error .unclosedString
  | c :: text =>
    if c = 'u' then numbered text
    else match escapeLetter? c with
      | some d => .ok (d, text)
      | none => .error .invalidEscape

theorem length_numbered_le {text rest : Text} {c : Char} (h : numbered text = .ok (c, rest)) :
    rest.length ≤ text.length := by
  simp only [numbered, bind, Except.bind] at h
  split at h
  · cases h
  · split at h
    · cases h
    · split at h
      · split at h
        · cases h
        · cases h
        · rename_i after hdrop
          split at h
          · cases h
          · split at h
            · simp only [pure, Except.pure, Except.ok.injEq, Prod.mk.injEq] at h
              obtain ⟨-, rfl⟩ := h
              have := congrArg List.length hdrop
              simp only [List.length_drop, List.length_cons] at this ⊢
              omega
            · cases h
        · cases h
      · simp only [pure, Except.pure, Except.ok.injEq, Prod.mk.injEq] at h
        obtain ⟨-, rfl⟩ := h
        simp only [List.length_drop]
        omega

theorem length_escaped_lt {text rest : Text} {c : Char} (h : escaped text = .ok (c, rest)) :
    rest.length < text.length := by
  cases text with
  | nil => cases h
  | cons d text =>
    simp only [escaped] at h
    split at h
    · have := length_numbered_le h
      simp only [List.length_cons]
      omega
    · split at h <;> cases h
      exact Nat.lt_succ_self _

/-- The value of the string whose opening quote was read, and what follows it. -/
def unescape (text : Text) : Except DocumentFault (Text × Text) :=
  match text with
  | [] => .error .unclosedString
  | c :: text =>
    if c = '"' then .ok ([], text)
    else if c = '\\' then
      match _h : escaped text with
      | .error fault => .error fault
      | .ok (d, rest) => do
        let (value, rest) ← unescape rest
        return (d :: value, rest)
    else if c < ' ' then .error .controlCharacter
    else do
      let (value, rest) ← unescape text
      return (c :: value, rest)
termination_by text.length
decreasing_by
  · have := length_escaped_lt _h
    simp only [List.length_cons]
    omega
  · exact Nat.lt_succ_self _

def pass : Text → Except DocumentFault Text
  | [] => .error .unclosedString
  | '"' :: text => .ok text
  | ['\\'] => .error .unclosedString
  | '\\' :: 'u' :: text => do
    let _ ← fourDigits text
    pass text
  | '\\' :: c :: text => if (escapeLetter? c).isSome then pass text else .error .invalidEscape
  | c :: text => if c < ' ' then .error .controlCharacter else pass text

theorem length_pass_le {text rest : Text} (h : pass text = .ok rest) :
    rest.length ≤ text.length := by
  fun_induction pass text with
  | case1 => cases h
  | case2 text =>
    cases h
    exact Nat.le_succ _
  | case3 => cases h
  | case4 text ih =>
    simp only [bind, Except.bind] at h
    split at h
    · cases h
    · have := ih h
      simp only [List.length_cons]
      omega
  | case5 c text hc hletter ih =>
    have := ih h
    simp only [List.length_cons]
    omega
  | case6 => cases h
  | case7 => cases h
  | case8 c text _ _ _ _ hc ih =>
    have := ih h
    simp only [List.length_cons]
    omega

end SemiLex.Escape
