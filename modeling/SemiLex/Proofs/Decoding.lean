import Mathlib.Data.List.Basic
import Mathlib.Data.List.TakeWhile
import SemiLex.Text.Utf8

/-!
# Decoding what was encoded

The encoding of a character is a lead byte and the continuation bytes that the lead byte asks
for, and together they spell the character.  So decoding the encoding of a text gives the text
back, whatever bytes follow it.
-/

namespace SemiLex.Utf8

/-! ## Bytes -/

theorem isContinuation_ofNat {n : Nat} (h : n < 64) :
    isContinuation (UInt8.ofNat (n + 0x80)) = true := by
  revert n
  decide

theorem continuationBits_ofNat {n : Nat} (h : n < 64) :
    (UInt8.ofNat (n + 0x80) &&& 0x3f).toNat = n := by
  revert n
  decide

theorem lead_ofNat_one {n : Nat} (h : n < 0x80) :
    width (UInt8.ofNat n) = 1 ∧ leadBits (UInt8.ofNat n) = n := by
  revert n
  decide

theorem lead_ofNat_two {n : Nat} (hlow : 2 ≤ n) (h : n < 32) :
    width (UInt8.ofNat (n + 0xc0)) = 2 ∧ leadBits (UInt8.ofNat (n + 0xc0)) = n := by
  revert n
  decide

theorem lead_ofNat_three {n : Nat} (h : n < 16) :
    width (UInt8.ofNat (n + 0xe0)) = 3 ∧ leadBits (UInt8.ofNat (n + 0xe0)) = n := by
  revert n
  decide

theorem lead_ofNat_four {n : Nat} (h : n < 5) :
    width (UInt8.ofNat (n + 0xf0)) = 4 ∧ leadBits (UInt8.ofNat (n + 0xf0)) = n := by
  revert n
  decide

/-! ## One character -/

/-- A byte sequence of the form that a character is encoded in. -/
structure Spells (c : Char) (lead : UInt8) (tail : List UInt8) : Prop where
  width_ne_zero : width lead ≠ 0
  length_tail : tail.length = trailing lead
  isContinuation : ∀ b ∈ tail, isContinuation b = true
  codePoint : codePoint lead tail = c.toNat

theorem codePoint_map_ofNat (lead : UInt8) {digits : List Nat} (h : ∀ d ∈ digits, d < 64) :
    codePoint lead (digits.map fun d => UInt8.ofNat (d + 0x80)) =
      digits.foldl (fun n d => n * 64 + d) (leadBits lead) := by
  rw [codePoint, List.foldl_map]
  refine List.foldl_ext _ _ _ fun n d hd => ?_
  rw [continuationBits_ofNat (h d hd)]

theorem spells_of_digits {c : Char} {lead : UInt8} (digits : List Nat)
    (hwidth : width lead = digits.length + 1) (hdigits : ∀ d ∈ digits, d < 64)
    (hvalue : digits.foldl (fun n d => n * 64 + d) (leadBits lead) = c.toNat) :
    Spells c lead (digits.map fun d => UInt8.ofNat (d + 0x80)) where
  width_ne_zero := by
    rw [hwidth]
    exact Nat.succ_ne_zero _
  length_tail := by rw [trailing, hwidth, List.length_map, Nat.add_sub_cancel]
  isContinuation := by
    intro b hb
    obtain ⟨d, hd, rfl⟩ := List.mem_map.mp hb
    exact isContinuation_ofNat (hdigits d hd)
  codePoint := by rw [codePoint_map_ofNat lead hdigits, hvalue]

theorem toNat_lt (c : Char) : c.toNat < 0x110000 := by
  rcases c.valid with h | ⟨-, h⟩
  · exact Nat.lt_trans h (by decide)
  · exact h

/-- The encoding of a character spells it.  There is one case for each width. -/
theorem exists_spells (c : Char) :
    ∃ lead tail, String.utf8EncodeChar c = lead :: tail ∧ Spells c lead tail := by
  have hmax := toNat_lt c
  have hv : c.val.toNat = c.toNat := rfl
  rw [String.utf8EncodeChar]
  simp only [hv]
  split
  · obtain ⟨hwidth, hbits⟩ := lead_ofNat_one (n := c.toNat) (by omega)
    exact ⟨_, _, rfl, spells_of_digits [] hwidth (List.forall_mem_nil _) hbits⟩
  · split
    · have hlead : c.toNat / 64 % 0x20 = c.toNat / 64 := Nat.mod_eq_of_lt (by omega)
      obtain ⟨hwidth, hbits⟩ := lead_ofNat_two (n := c.toNat / 64) (by omega) (by omega)
      rw [hlead]
      refine ⟨_, _, rfl, spells_of_digits [c.toNat % 64] hwidth ?_ ?_⟩
      · simp only [List.forall_mem_cons]
        exact ⟨by omega, List.forall_mem_nil _⟩
      · simp only [List.foldl_cons, List.foldl_nil, hbits]
        omega
    · split
      · have hlead : c.toNat / 4096 % 0x10 = c.toNat / 4096 := Nat.mod_eq_of_lt (by omega)
        obtain ⟨hwidth, hbits⟩ := lead_ofNat_three (n := c.toNat / 4096) (by omega)
        rw [hlead]
        refine ⟨_, _, rfl,
          spells_of_digits [c.toNat / 64 % 64, c.toNat % 64] hwidth ?_ ?_⟩
        · simp only [List.forall_mem_cons]
          exact ⟨by omega, by omega, List.forall_mem_nil _⟩
        · simp only [List.foldl_cons, List.foldl_nil, hbits]
          omega
      · have hlead : c.toNat / 262144 % 0x08 = c.toNat / 262144 := Nat.mod_eq_of_lt (by omega)
        obtain ⟨hwidth, hbits⟩ := lead_ofNat_four (n := c.toNat / 262144) (by omega)
        rw [hlead]
        refine ⟨_, _, rfl, spells_of_digits
          [c.toNat / 4096 % 64, c.toNat / 64 % 64, c.toNat % 64] hwidth ?_ ?_⟩
        · simp only [List.forall_mem_cons]
          exact ⟨by omega, by omega, by omega, List.forall_mem_nil _⟩
        · simp only [List.foldl_cons, List.foldl_nil, hbits]
          omega

theorem interpret_of_spells {c : Char} {lead : UInt8} {tail : List UInt8}
    (hencode : String.utf8EncodeChar c = lead :: tail) (h : Spells c lead tail) :
    interpret lead tail = .ok c := by
  have hc : character? lead tail = some c := by
    rw [character?]
    simp only [h.codePoint, Char.ofNat_toNat, hencode, if_true]
  rw [interpret, if_neg h.width_ne_zero, if_neg (by rw [h.length_tail]; exact Nat.lt_irrefl _), hc]

theorem tailOf_append_of_length {lead : UInt8} {tail : List UInt8}
    (hlength : tail.length = trailing lead) (h : ∀ b ∈ tail, isContinuation b = true)
    (bytes : List UInt8) : tailOf lead (tail ++ bytes) = tail := by
  rw [tailOf, ← hlength, List.take_left, List.takeWhile_eq_self_iff]
  exact h

theorem tailOf_append {c : Char} {lead : UInt8} {tail : List UInt8} (h : Spells c lead tail)
    (bytes : List UInt8) : tailOf lead (tail ++ bytes) = tail :=
  tailOf_append_of_length h.length_tail h.isContinuation bytes

/-! ## Texts -/

@[simp] theorem decode_nil : decode [] = [] := by
  rw [decode]

theorem decode_cons (lead : UInt8) (bytes : List UInt8) :
    decode (lead :: bytes) =
      (interpret lead (tailOf lead bytes)).toOption.getD replacement ::
        decode (bytes.drop (tailOf lead bytes).length) := by
  rw [decode]

theorem decode_eq_nil_iff {bytes : List UInt8} : decode bytes = [] ↔ bytes = [] := by
  cases bytes with
  | nil => simp
  | cons lead bytes => simp [decode_cons]

@[simp] theorem encode_nil : encode [] = [] := rfl

@[simp] theorem encode_cons (c : Char) (text : Text) :
    encode (c :: text) = String.utf8EncodeChar c ++ encode text := rfl

theorem decode_encode_append (text : Text) (bytes : List UInt8) :
    decode (encode text ++ bytes) = text ++ decode bytes := by
  induction text with
  | nil => rfl
  | cons c text ih =>
    obtain ⟨lead, tail, hencode, hspells⟩ := exists_spells c
    rw [encode_cons, hencode, List.append_assoc, List.cons_append, decode_cons,
      tailOf_append hspells, interpret_of_spells hencode hspells, List.drop_left, ih]
    rfl

theorem decode_encode (text : Text) : decode (encode text) = text := by
  simpa using decode_encode_append text []

end SemiLex.Utf8
