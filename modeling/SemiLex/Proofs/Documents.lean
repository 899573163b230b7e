import Mathlib.Data.List.Perm.Subperm
import SemiLex.Settings.Fields
import SemiLex.Settings.Printer

/-!
# Documents that are written

Whatever is written is read again, and the reading ends where the writing did.  A string comes back
character by character, and an object member by member, in any order of its keys.
-/

namespace SemiLex

variable {text rest : Text} {c d : Char}

/-! ## Strings -/

namespace Escape

theorem unescape_of_escaped (h : escaped text = .ok (d, rest)) :
    unescape ('\\' :: text) = (do
      let (value, rest) ← unescape rest
      return (d :: value, rest)) := by
  rw [unescape, if_neg (by decide), if_pos rfl]
  split
  · rename_i hfault
    rw [h] at hfault
    cases hfault
  · rename_i hfound
    rw [h] at hfound
    cases hfound
    rfl

theorem unescape_quote (text : Text) : unescape ('"' :: text) = .ok ([], text) := by
  rw [unescape, if_pos rfl]

theorem unescape_plain (hquote : c ≠ '"') (hbackslash : c ≠ '\\') (hcontrol : ¬ c < ' ')
    (text : Text) : unescape (c :: text) = (do
      let (value, rest) ← unescape text
      return (c :: value, rest)) := by
  rw [unescape, if_neg hquote, if_neg hbackslash, if_neg hcontrol]

theorem fourDigits_control (h : c < ' ') (text : Text) :
    fourDigits ('0' :: '0' :: Nat.digitChar (c.toNat / 16) :: Nat.digitChar (c.toNat % 16) ::
      text) = .ok c.toNat := by
  have hall : ∀ n < 32,
      Text.byteLength ['0', '0', Nat.digitChar (n / 16), Nat.digitChar (n % 16)] = 4 ∧
        hexValue? ['0', '0', Nat.digitChar (n / 16), Nat.digitChar (n % 16)] = some n := by
    decide
  obtain ⟨hbytes, hvalue⟩ := hall c.toNat h
  simp only [fourDigits, List.take_succ_cons, List.take_zero, hbytes, hvalue, List.length_cons,
    List.length_nil, Nat.reduceAdd, Nat.lt_irrefl, if_false]

theorem escaped_control (h : c < ' ') (text : Text) :
    escaped ('u' :: '0' :: '0' :: Nat.digitChar (c.toNat / 16) :: Nat.digitChar (c.toNat % 16) ::
      text) = .ok (c, text) := by
  have hlt : c.toNat < 32 := h
  have htrailing : isTrailingSurrogate c.toNat = false := by
    rw [isTrailingSurrogate, decide_eq_false (by omega), Bool.false_and]
  have hleading : isLeadingSurrogate c.toNat = false := by
    rw [isLeadingSurrogate, decide_eq_false (by omega), Bool.false_and]
  rw [escaped, if_pos rfl, numbered, fourDigits_control h]
  simp only [bind, Except.bind, htrailing, hleading, Bool.false_eq_true, if_false,
    List.drop_succ_cons, List.drop_zero, Char.ofNat_toNat]
  rfl

theorem pass_plain (hquote : c ≠ '"') (hbackslash : c ≠ '\\') (hcontrol : ¬ c < ' ')
    (text : Text) : pass (c :: text) = pass text := by
  rw [pass, if_neg hcontrol]
  all_goals simp [hquote, hbackslash]

theorem pass_digit {n : Nat} (h : n < 16) (text : Text) :
    pass (Nat.digitChar n :: text) = pass text := by
  have hall : ∀ n < 16,
      Nat.digitChar n ≠ '"' ∧ Nat.digitChar n ≠ '\\' ∧ ¬ Nat.digitChar n < ' ' := by
    decide
  obtain ⟨hquote, hbackslash, hcontrol⟩ := hall n h
  exact pass_plain hquote hbackslash hcontrol text

theorem pass_letter (hletter : escapeLetter? d = some c) (hnumber : d ≠ 'u') (text : Text) :
    pass ('\\' :: d :: text) = pass text := by
  rw [pass, hletter]
  all_goals simp [hnumber]

/-- What stands for a character behind a backslash. -/
def StandsFor (code : Text) (c : Char) : Prop :=
  ∀ text, escaped (code ++ text) = .ok (c, text) ∧ pass ('\\' :: code ++ text) = pass text

theorem standsFor_letter (hletter : escapeLetter? d = some c) (hnumber : d ≠ 'u') :
    StandsFor [d] c := by
  refine fun text => ⟨?_, pass_letter hletter hnumber text⟩
  rw [List.singleton_append, escaped, if_neg hnumber, hletter]

theorem standsFor_control (h : c < ' ') :
    StandsFor ['u', '0', '0', Nat.digitChar (c.toNat / 16), Nat.digitChar (c.toNat % 16)] c := by
  refine fun text => ⟨escaped_control h text, ?_⟩
  have hlt : c.toNat < 32 := h
  simp only [List.cons_append, List.nil_append]
  rw [pass, fourDigits_control h]
  -- The digits are passed over once more, one by one.
  calc pass ('0' :: '0' :: Nat.digitChar (c.toNat / 16) :: Nat.digitChar (c.toNat % 16) :: text)
      = pass ('0' :: Nat.digitChar (c.toNat / 16) :: Nat.digitChar (c.toNat % 16) :: text) :=
        pass_digit (Nat.zero_lt_succ 15) _
    _ = pass (Nat.digitChar (c.toNat / 16) :: Nat.digitChar (c.toNat % 16) :: text) :=
        pass_digit (Nat.zero_lt_succ 15) _
    _ = pass (Nat.digitChar (c.toNat % 16) :: text) := pass_digit (by omega) _
    _ = pass text := pass_digit (by omega) _

theorem escape_eq (c : Char) :
    (Printer.escape c = [c] ∧ c ≠ '"' ∧ c ≠ '\\' ∧ ¬ c < ' ') ∨
      ∃ code, Printer.escape c = '\\' :: code ∧ StandsFor code c := by
  unfold Printer.escape
  split
  · rename_i hquoted
    rcases hquoted with rfl | rfl
    · exact Or.inr ⟨['"'], rfl, standsFor_letter rfl (by decide)⟩
    · exact Or.inr ⟨['\\'], rfl, standsFor_letter rfl (by decide)⟩
  rename_i hplain
  split
  · rename_i h
    exact Or.inr ⟨['b'], rfl, h ▸ standsFor_letter rfl (by decide)⟩
  split
  · rename_i h
    exact Or.inr ⟨['f'], rfl, h ▸ standsFor_letter rfl (by decide)⟩
  split
  · rename_i h
    exact Or.inr ⟨['n'], rfl, h ▸ standsFor_letter rfl (by decide)⟩
  split
  · rename_i h
    exact Or.inr ⟨['r'], rfl, h ▸ standsFor_letter rfl (by decide)⟩
  split
  · rename_i h
    exact Or.inr ⟨['t'], rfl, h ▸ standsFor_letter rfl (by decide)⟩
  split
  · rename_i hcontrol
    exact Or.inr ⟨_, rfl, standsFor_control hcontrol⟩
  · rename_i hcontrol
    exact Or.inl ⟨rfl, fun h => hplain (Or.inl h), fun h => hplain (Or.inr h), hcontrol⟩

theorem unescape_escape (c : Char) (text : Text) :
    unescape (Printer.escape c ++ text) = (do
      let (value, rest) ← unescape text
      return (c :: value, rest)) := by
  rcases escape_eq c with ⟨hplain, hquote, hbackslash, hcontrol⟩ | ⟨code, hcode, hescaped⟩
  · rw [hplain]
    exact unescape_plain hquote hbackslash hcontrol text
  · rw [hcode]
    exact unescape_of_escaped (hescaped text).1

theorem pass_escape (c : Char) (text : Text) : pass (Printer.escape c ++ text) = pass text := by
  rcases escape_eq c with ⟨hplain, hquote, hbackslash, hcontrol⟩ | ⟨code, hcode, hescaped⟩
  · rw [hplain]
    exact pass_plain hquote hbackslash hcontrol text
  · rw [hcode, (hescaped text).2]

theorem unescape_string (text rest : Text) :
    unescape (text.flatMap Printer.escape ++ '"' :: rest) = .ok (text, rest) := by
  induction text with
  | nil => exact unescape_quote rest
  | cons c text ih =>
    rw [List.flatMap_cons, List.append_assoc, unescape_escape, ih]
    rfl

theorem pass_string (text rest : Text) :
    pass (text.flatMap Printer.escape ++ '"' :: rest) = .ok rest := by
  induction text with
  | nil => rw [List.flatMap_nil, List.nil_append, pass]
  | cons c text ih => rw [List.flatMap_cons, List.append_assoc, pass_escape, ih]

end Escape

/-! ## Lexemes -/

namespace DocumentLexeme

variable {lexeme : DocumentLexeme}

theorem all_nil : all [] = [] := by
  rw [all, List.dropWhile_nil]

theorem all_cons (hblank : isBlank c = false) (h : first c text = (lexeme, some rest)) :
    all (c :: text) = lexeme :: all rest := by
  have hdrop : (c :: text).dropWhile isBlank = c :: text := by
    rw [List.dropWhile_cons, hblank]
    rfl
  rw [all]
  split
  · rename_i hnil
    rw [hdrop] at hnil
    cases hnil
  · rename_i hcons
    rw [hdrop] at hcons
    cases hcons
    split
    · rename_i hfirst
      rw [h] at hfirst
      cases hfirst
    · rename_i hfirst
      rw [h] at hfirst
      cases hfirst
      rfl

theorem all_string (text rest : Text) :
    all (Printer.string text ++ rest) = string (.ok text) (.ok ()) :: all rest := by
  have hfirst : first '"' (text.flatMap Printer.escape ++ '"' :: rest) =
      (string (.ok text) (.ok ()), some rest) := by
    show stringOf _ = _
    rw [stringOf, Escape.unescape_string, Escape.pass_string]
    rfl
  have htext : Printer.string text ++ rest =
      '"' :: (text.flatMap Printer.escape ++ '"' :: rest) := by
    simp [Printer.string]
  rw [htext, all_cons (by decide) hfirst]

theorem all_boolean (b : Bool) (rest : Text) :
    all (Printer.boolean b ++ rest) = literal (.ok (some b)) :: all rest := by
  cases b with
  | false => exact all_cons (c := 'f') (by decide) rfl
  | true => exact all_cons (c := 't') (by decide) rfl

end DocumentLexeme

/-! ## Sequences and objects -/

theorem intercalate_cons (separator item : Text) (items : List Text) :
    List.intercalate separator (item :: items) =
      item ++ items.flatMap fun item => separator ++ item := by
  induction items generalizing item with
  | nil => simp
  | cons next items ih =>
    rw [List.intercalate_cons_cons, ih, List.flatMap_cons, List.append_assoc, List.append_assoc]

namespace Document

open DocumentLexeme

theorem readBoolean_boolean (b : Bool) (rest : Text) :
    readBoolean (all (Printer.boolean b ++ rest)) = .ok (b, all rest) := by
  rw [all_boolean]
  rfl

theorem readMoreTexts_strings (texts : List Text) (rest : Text) :
    readMoreTexts (all ((texts.flatMap fun text => ',' :: Printer.string text) ++ ']' :: rest)) =
      .ok (texts, all rest) := by
  induction texts with
  | nil =>
    rw [List.flatMap_nil, List.nil_append, all_cons (by decide) rfl, readMoreTexts]
  | cons text texts ih =>
    rw [List.flatMap_cons, List.cons_append, List.cons_append, List.append_assoc,
      all_cons (by decide) rfl, all_string, readMoreTexts, ih]
    · rfl
    · nofun

theorem readTexts_sequence (texts : List Text) (rest : Text) :
    readTexts (all (Printer.sequence (texts.map Printer.string) ++ rest)) =
      .ok (texts, all rest) := by
  cases texts with
  | nil =>
    have htext : Printer.sequence [] ++ rest = '[' :: ']' :: rest := rfl
    rw [List.map_nil, htext, all_cons (by decide) rfl, all_cons (by decide) rfl, readTexts]
  | cons text texts =>
    have htext : Printer.sequence ((text :: texts).map Printer.string) ++ rest =
        '[' :: (Printer.string text ++
          ((texts.flatMap fun text => ',' :: Printer.string text) ++ ']' :: rest)) := by
      rw [Printer.sequence, List.map_cons, intercalate_cons, List.flatMap_map]
      simp
    rw [htext, all_cons (by decide) rfl, all_string, readTexts, readMoreTexts_strings]
    · rfl
    · nofun

end Document

namespace Record

open Document DocumentLexeme

variable {σ : Type} {r : Record σ} {members : List (Text × Text)} {seen : List Text}

def memberText (member : Text × Text) : Text :=
  Printer.string member.1 ++ ':' :: member.2

/-- Where `only` builds the record from the keys that have been read, this member adds its own. -/
def Adds (r : Record σ) (only : List Text → σ) (member : Text × Text) : Prop :=
  ∃ field put, r.field? member.1 = some field ∧
    (∀ rest, field.read (all (member.2 ++ rest)) = .ok (put, all rest)) ∧
    ∀ keys, put (only keys) = only (member.1 :: keys)

theorem readMembers_of_closeBrace {put : σ → σ} {key : Text} {passed : Except DocumentFault Unit}
    {lexemes rest : List DocumentLexeme}
    (h : r.readMember seen key lexemes = .ok (put, .closeBrace :: rest)) (value : σ) :
    r.readMembers seen value (.string (.ok key) passed :: lexemes) = .ok (put value, rest) := by
  rw [readMembers]
  split
  all_goals
    rename_i hmember
    rw [h] at hmember
    cases hmember
  · rfl
  · contradiction

theorem readMembers_of_comma {put : σ → σ} {key : Text} {passed : Except DocumentFault Unit}
    {lexemes rest : List DocumentLexeme}
    (h : r.readMember seen key lexemes = .ok (put, .comma :: rest)) (value : σ) :
    r.readMembers seen value (.string (.ok key) passed :: lexemes) =
      r.readMembers (key :: seen) (put value) rest := by
  rw [readMembers]
  split
  all_goals
    rename_i hmember
    rw [h] at hmember
    cases hmember
  · rfl
  · contradiction

theorem all_memberText (member : Text × Text) (rest : Text) :
    all (memberText member ++ rest) =
      .string (.ok member.1) (.ok ()) :: .colon :: all (member.2 ++ rest) := by
  rw [memberText, List.append_assoc, all_string, List.cons_append, all_cons (by decide) rfl]

theorem readMember_of_adds {only : List Text → σ} {member : Text × Text}
    (h : r.Adds only member) (hseen : member.1 ∉ seen) :
    ∃ put, (∀ rest, r.readMember seen member.1 (.colon :: all (member.2 ++ rest)) =
        .ok (put, all rest)) ∧ ∀ keys, put (only keys) = only (member.1 :: keys) := by
  obtain ⟨field, put, hfield, hread, hput⟩ := h
  refine ⟨put, fun rest => ?_, hput⟩
  rw [readMember, hfield]
  simp only [if_neg hseen]
  exact hread rest

theorem readMembers_texts {only : List Text → σ} {member : Text × Text}
    (hmembers : ∀ m ∈ member :: members, r.Adds only m)
    (hkeys : ((member :: members).map Prod.fst).Nodup)
    (hseen : ∀ m ∈ member :: members, m.1 ∉ seen) (rest : Text) :
    r.readMembers seen (only seen) (all (memberText member ++
        (members.flatMap (fun m => ',' :: memberText m) ++ '\x7d' :: rest))) =
      .ok (only (((member :: members).map Prod.fst).reverse ++ seen), all rest) := by
  induction members generalizing member seen with
  | nil =>
    obtain ⟨put, hread, hput⟩ :=
      readMember_of_adds (hmembers member List.mem_cons_self) (hseen member List.mem_cons_self)
    have hlast := hread ('\x7d' :: rest)
    rw [all_cons (c := '\x7d') (by decide) rfl] at hlast
    rw [List.flatMap_nil, List.nil_append, all_memberText, readMembers_of_closeBrace hlast, hput]
    rfl
  | cons next members ih =>
    obtain ⟨hmember, hmembers⟩ := List.forall_mem_cons.mp hmembers
    obtain ⟨hfresh, hseen⟩ := List.forall_mem_cons.mp hseen
    rw [List.map_cons, List.nodup_cons] at hkeys
    obtain ⟨put, hread, hput⟩ := readMember_of_adds hmember hfresh
    have hnext := hread (',' :: (memberText next ++
      (members.flatMap (fun m => ',' :: memberText m) ++ '\x7d' :: rest)))
    rw [all_cons (c := ',') (by decide) rfl] at hnext
    have htext : (next :: members).flatMap (fun m => ',' :: memberText m) ++ '\x7d' :: rest =
        ',' :: (memberText next ++
          (members.flatMap (fun m => ',' :: memberText m) ++ '\x7d' :: rest)) := by
      simp
    rw [htext, all_memberText, readMembers_of_comma hnext, hput, ih hmembers hkeys.2]
    · simp
    · intro m hm
      rw [List.mem_cons, not_or]
      refine ⟨?_, hseen m hm⟩
      rintro heq
      exact hkeys.1 (heq ▸ List.mem_map_of_mem hm)

theorem read_object {only : List Text → σ} (hdefault : only [] = r.default)
    (hmembers : ∀ m ∈ members, r.Adds only m) (hkeys : (members.map Prod.fst).Nodup)
    (rest : Text) :
    r.read (all (Printer.object members ++ rest)) =
      .ok (only (members.map Prod.fst).reverse, all rest) := by
  cases members with
  | nil =>
    have htext : Printer.object [] ++ rest = '\x7b' :: '\x7d' :: rest := rfl
    rw [htext, all_cons (by decide) rfl, all_cons (by decide) rfl, read, ← hdefault]
    rfl
  | cons member members =>
    have htext : Printer.object (member :: members) ++ rest = '\x7b' :: (memberText member ++
        (members.flatMap (fun m => ',' :: memberText m) ++ '\x7d' :: rest)) := by
      rw [Printer.object, List.map_cons, intercalate_cons, List.flatMap_map]
      simp [memberText]
    have hread := readMembers_texts hmembers hkeys (fun _ _ => List.not_mem_nil) rest
    rw [List.append_nil, hdefault] at hread
    rw [htext, all_cons (by decide) rfl, ← hread, all_memberText, read]
    · nofun
    · nofun

/-- Of the members of a record some are written, in any order.  Those are read. -/
theorem read_chosen {only : List Text → σ} {chosen : List (Text × Text)}
    (hdefault : only [] = r.default) (hreverse : ∀ keys, only keys.reverse = only keys)
    (hmembers : ∀ m ∈ members, r.Adds only m) (hkeys : (members.map Prod.fst).Nodup)
    (h : chosen.Subperm members) (rest : Text) :
    r.read (all (Printer.object chosen ++ rest)) =
      .ok (only (chosen.map Prod.fst), all rest) := by
  have hchosen : (chosen.map Prod.fst).Nodup := by
    obtain ⟨found, hperm, hsublist⟩ := h
    exact (hperm.map Prod.fst).nodup_iff.mp (hkeys.sublist (hsublist.map Prod.fst))
  rw [read_object hdefault (fun m hm => hmembers m (h.subset hm)) hchosen, hreverse]

end Record

end SemiLex
