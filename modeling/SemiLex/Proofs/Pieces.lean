import SemiLex.Proofs.Lexing

/-!
# Decoding piece by piece

Decoding cuts a byte string into pieces and reads one character from each: the one that the piece
encodes, or the replacement character if the piece is malformed.  A byte below 0x80 is always a
piece of its own, so malformed bytes swallow no ASCII character behind them.  A sequence that only
looks like an encoding, because it is overlong or spells no character, reads as replacement
characters, and what stands around it reads as it would alone.  So malformed bytes change nothing of
what is read behind the next byte that continues no sequence.
-/

namespace SemiLex

namespace Utf8

variable {bytes before after piece tail : List UInt8} {pieces : List (List UInt8)}
  {lead : UInt8} {c : Char} {text : Text} {digits : List Nat} {n : Nat}

/-! ## One piece -/

/-- What a piece of a byte string reads as. -/
inductive Reads (piece : List UInt8) : Char → Prop
  | character {c : Char} (h : String.utf8EncodeChar c = piece) : Reads piece c
  | malformed (h : ∀ text, encode text ≠ piece) : Reads piece replacement

theorem spells_of_encode (h : String.utf8EncodeChar c = lead :: tail) : Spells c lead tail := by
  obtain ⟨lead', tail', hencode, hspells⟩ := exists_spells c
  obtain ⟨rfl, rfl⟩ := List.cons.inj (h.symm.trans hencode)
  exact hspells

theorem interpret_eq_ok_iff :
    interpret lead tail = .ok c ↔ String.utf8EncodeChar c = lead :: tail := by
  constructor
  · intro h
    unfold interpret at h
    split at h
    · cases h
    · split at h
      · cases h
      · split at h
        · rename_i found hfound
          cases h
          exact eq_encode_of_character? hfound
        · cases h
  · intro h
    exact interpret_of_spells h (spells_of_encode h)

theorem encodeChar_injective {d : Char}
    (h : String.utf8EncodeChar c = String.utf8EncodeChar d) : c = d := by
  obtain ⟨lead, tail, hencode, -⟩ := exists_spells d
  have hc : interpret lead tail = .ok c := interpret_eq_ok_iff.mpr (h.trans hencode)
  rw [interpret_eq_ok_iff.mpr hencode] at hc
  exact (Except.ok.inj hc).symm

theorem range_of_isContinuation {b : UInt8} (h : isContinuation b = true) :
    0x80 ≤ b ∧ b < 0xc0 := by
  have hall : ∀ n < 256, isContinuation (.ofNat n) = true →
      0x80 ≤ UInt8.ofNat n ∧ UInt8.ofNat n < 0xc0 := by
    decide +kernel
  have hb := hall b.toNat b.toNat_lt
  rw [UInt8.ofNat_toNat] at hb
  exact hb h

theorem width_of_isContinuation {b : UInt8} (h : isContinuation b = true) : width b = 0 := by
  obtain ⟨hle, hlt⟩ := range_of_isContinuation h
  unfold width
  rw [if_neg (UInt8.not_lt.mpr hle), if_pos (UInt8.lt_trans hlt (by decide))]

/-- A lead byte with continuation bytes behind it encodes one character or nothing. -/
theorem eq_singleton_of_encode (htail : ∀ b ∈ tail, isContinuation b = true)
    (h : encode text = lead :: tail) : ∃ c, String.utf8EncodeChar c = lead :: tail := by
  cases text with
  | nil => cases h
  | cons c text =>
    cases text with
    | nil => exact ⟨c, by simpa using h⟩
    | cons d text =>
      obtain ⟨lead', tail', hencode, -⟩ := exists_spells c
      obtain ⟨second, tail'', hencode', hspells⟩ := exists_spells d
      rw [encode_cons, encode_cons, hencode, hencode'] at h
      have hmem : second ∈ tail := by
        rw [← (List.cons.inj h).2]
        simp
      exact absurd (width_of_isContinuation (htail second hmem)) hspells.width_ne_zero

theorem isContinuation_of_mem_tailOf {b : UInt8} (h : b ∈ tailOf lead bytes) :
    isContinuation b = true :=
  List.mem_takeWhile_imp h

theorem reads_piece (lead : UInt8) (bytes : List UInt8) :
    Reads (lead :: tailOf lead bytes)
      ((interpret lead (tailOf lead bytes)).toOption.getD replacement) := by
  cases h : interpret lead (tailOf lead bytes) with
  | ok c => exact .character (interpret_eq_ok_iff.mp h)
  | error form =>
    refine .malformed fun text htext => ?_
    obtain ⟨c, hc⟩ := eq_singleton_of_encode (fun b => isContinuation_of_mem_tailOf) htext
    rw [interpret_eq_ok_iff.mpr hc] at h
    cases h

theorem piece_eq_singleton {b : UInt8} (hmem : b ∈ lead :: tailOf lead bytes) (hb : b < 0x80) :
    lead :: tailOf lead bytes = [b] := by
  rcases List.mem_cons.mp hmem with rfl | htail
  · have htrailing : trailing b = 0 := by
      unfold trailing width
      rw [if_pos hb]
    rw [tailOf, htrailing, List.take_zero, List.takeWhile_nil]
  · have hle := (range_of_isContinuation (isContinuation_of_mem_tailOf htail)).1
    exact absurd hb (UInt8.not_lt.mpr hle)

/-! ## All pieces -/

theorem isPrefix_tailOf (lead : UInt8) (bytes : List UInt8) : tailOf lead bytes <+: bytes :=
  (List.takeWhile_prefix _).trans (List.take_prefix _ _)

theorem tailOf_append_drop (lead : UInt8) (bytes : List UInt8) :
    tailOf lead bytes ++ bytes.drop (tailOf lead bytes).length = bytes :=
  List.prefix_iff_eq_append.mp (isPrefix_tailOf lead bytes)

theorem exists_pieces (bytes : List UInt8) :
    ∃ pieces : List (List UInt8), pieces.flatten = bytes ∧
      List.Forall₂ Reads pieces (decode bytes) ∧
      ∀ piece ∈ pieces, piece ≠ [] ∧ ∀ b ∈ piece, b < 0x80 → piece = [b] := by
  fun_induction decode bytes with
  | case1 => exact ⟨[], rfl, .nil, List.forall_mem_nil _⟩
  | case2 lead bytes tail ih =>
    obtain ⟨pieces, hflatten, hreads, hpieces⟩ := ih
    refine ⟨(lead :: tail) :: pieces, ?_, .cons (reads_piece lead bytes) hreads, ?_⟩
    · rw [List.flatten_cons, hflatten, List.cons_append, tailOf_append_drop]
    · exact List.forall_mem_cons.mpr
        ⟨⟨List.cons_ne_nil _ _, fun b => piece_eq_singleton⟩, hpieces⟩

theorem encode_of_reads (h : List.Forall₂ Reads pieces text) (hreplacement : replacement ∉ text) :
    encode text = pieces.flatten := by
  induction h with
  | nil => rfl
  | @cons piece c pieces text hread _ ih =>
    rw [List.mem_cons, not_or] at hreplacement
    have hpiece : String.utf8EncodeChar c = piece := by
      cases hread with
      | character h => exact h
      | malformed => exact absurd rfl hreplacement.1
    rw [encode_cons, hpiece, ih hreplacement.2, List.flatten_cons]

theorem Reads.eq_newline_iff (h : Reads piece c) : c = '\n' ↔ piece = [0x0a] := by
  have hnewline : String.utf8EncodeChar '\n' = [0x0a] := by decide
  cases h with
  | character h =>
    constructor
    · rintro rfl
      rw [← h, hnewline]
    · rintro rfl
      exact encodeChar_injective (h.trans hnewline.symm)
  | malformed h =>
    constructor
    · intro heq
      exact absurd heq (by decide)
    · rintro rfl
      exact absurd hnewline (h ['\n'])

theorem count_newline_of_reads (h : List.Forall₂ Reads pieces text)
    (hascii : ∀ piece ∈ pieces, ∀ b ∈ piece, b < 0x80 → piece = [b]) :
    text.count '\n' = pieces.flatten.count 0x0a := by
  induction h with
  | nil => rfl
  | @cons piece c pieces text hread _ ih =>
    obtain ⟨hpiece, hpieces⟩ := List.forall_mem_cons.mp hascii
    rw [List.flatten_cons, List.count_append, ← ih hpieces]
    by_cases hc : c = '\n'
    · rw [hc, hread.eq_newline_iff.mp hc, List.count_cons_self, List.count_singleton_self,
        Nat.add_comm]
    · have hnot : (0x0a : UInt8) ∉ piece := by
        intro hmem
        exact hc (hread.eq_newline_iff.mpr (hpiece _ hmem (by decide)))
      rw [List.count_cons_of_ne hc, List.count_eq_zero_of_not_mem hnot, Nat.zero_add]

/-! ## Byte strings put together -/

theorem takeWhile_take_append {p : UInt8 → Bool} (n : Nat) (h : ∀ b ∈ after.head?, p b = false) :
    ((before ++ after).take n).takeWhile p = (before.take n).takeWhile p := by
  have hafter : ((after.take (n - before.length)).takeWhile p) = [] := by
    cases after with
    | nil => rw [List.take_nil, List.takeWhile_nil]
    | cons b after =>
      cases n - before.length with
      | zero => rfl
      | succ k => rw [List.take_succ_cons, List.takeWhile_cons_of_neg (by simp [h b rfl])]
  rw [List.take_append, List.takeWhile_append, hafter, List.append_nil]
  split
  · rename_i hall
    exact (List.takeWhile_prefix p).eq_of_length hall |>.symm
  · rfl

theorem decode_append (before : List UInt8)
    (h : ∀ b ∈ after.head?, isContinuation b = false) :
    decode (before ++ after) = decode before ++ decode after := by
  fun_induction decode before with
  | case1 => rfl
  | case2 lead bytes tail ih =>
    have htail : tailOf lead (bytes ++ after) = tail := takeWhile_take_append _ h
    have hle : tail.length ≤ bytes.length := (isPrefix_tailOf lead bytes).length_le
    rw [List.cons_append, decode_cons, htail, List.drop_append_of_le_length hle, ih]
    rfl

theorem head?_decode_ne_byteOrderMark (h : ¬ [0xef, 0xbb, 0xbf] <+: bytes) :
    (decode bytes).head? ≠ some byteOrderMark := by
  cases bytes with
  | nil =>
    rw [decode_nil]
    exact nofun
  | cons lead bytes =>
    rw [decode_cons, List.head?_cons, ne_eq, Option.some.injEq]
    intro hmark
    have hread := reads_piece lead bytes
    rw [hmark] at hread
    generalize hread' : byteOrderMark = c at hread
    cases hread with
    | character hencode =>
      have hpiece : [0xef, 0xbb, 0xbf] = lead :: tailOf lead bytes := by
        rw [← hencode, ← hread']
        decide
      rw [hpiece] at h
      exact h (List.cons_prefix_cons.mpr ⟨rfl, isPrefix_tailOf lead bytes⟩)
    | malformed => exact absurd hread' (by decide)

/-! ## Sequences that only look like encodings -/

/-- A lead byte and continuation bytes in the pattern of an encoding, with the number that their
bits make up.  It need not be the number of a character, nor need so many bytes. -/
inductive Pattern : List UInt8 → Nat → Prop
  | one {a : Nat} (ha : a < 0x80) : Pattern [.ofNat a] a
  | two {a x : Nat} (ha : a < 0x20) (hx : x < 64) :
    Pattern [.ofNat (a + 0xc0), .ofNat (x + 0x80)] (a * 64 + x)
  | three {a x y : Nat} (ha : a < 0x10) (hx : x < 64) (hy : y < 64) :
    Pattern [.ofNat (a + 0xe0), .ofNat (x + 0x80), .ofNat (y + 0x80)] ((a * 64 + x) * 64 + y)
  | four {a x y z : Nat} (ha : a < 0x08) (hx : x < 64) (hy : y < 64) (hz : z < 64) :
    Pattern [.ofNat (a + 0xf0), .ofNat (x + 0x80), .ofNat (y + 0x80), .ofNat (z + 0x80)]
      (((a * 64 + x) * 64 + y) * 64 + z)

/-- No character has this number, or its encoding takes fewer than `length` bytes. -/
def Misspelled (n length : Nat) : Prop :=
  ¬ n.isValidChar ∨ (Char.ofNat n).utf8Size < length

theorem decode_cons_of_width_eq_zero (h : width lead = 0) (bytes : List UInt8) :
    decode (lead :: bytes) = replacement :: decode bytes := by
  have htail : tailOf lead bytes = [] := by
    rw [tailOf, trailing, h]
    rfl
  rw [decode_cons, htail, interpret, if_pos h]
  rfl

theorem decode_append_of_width_eq_zero (h : ∀ b ∈ bytes, width b = 0) (after : List UInt8) :
    decode (bytes ++ after) = List.replicate bytes.length replacement ++ decode after := by
  induction bytes with
  | nil => rfl
  | cons b bytes ih =>
    obtain ⟨hb, hbytes⟩ := List.forall_mem_cons.mp h
    rw [List.cons_append, decode_cons_of_width_eq_zero hb, ih hbytes]
    rfl

/-- A lead byte and its digits to the base 64 that misspell a number are one malformed piece. -/
theorem decode_misspelled (digits : List Nat) (hwidth : width lead = digits.length + 1)
    (hdigits : ∀ d ∈ digits, d < 64)
    (h : Misspelled (digits.foldl (fun n d => n * 64 + d) (leadBits lead)) (digits.length + 1))
    (after : List UInt8) :
    decode (lead :: digits.map (fun d => .ofNat (d + 0x80)) ++ after) =
      replacement :: decode after := by
  set tail : List UInt8 := digits.map (fun d => .ofNat (d + 0x80)) with htail
  have hlength : tail.length = trailing lead := by
    rw [htail, List.length_map, trailing, hwidth, Nat.add_sub_cancel]
  have hcontinuation : ∀ b ∈ tail, isContinuation b = true := by
    intro b hb
    obtain ⟨d, hd, rfl⟩ := List.mem_map.mp hb
    exact isContinuation_ofNat (hdigits d hd)
  have hjudged : ∀ c, interpret lead tail ≠ .ok c := by
    intro c hc
    have hencode := interpret_eq_ok_iff.mp hc
    have hvalue : digits.foldl (fun n d => n * 64 + d) (leadBits lead) = c.toNat := by
      rw [← codePoint_map_ofNat lead hdigits]
      exact (spells_of_encode hencode).codePoint
    rw [hvalue] at h
    rcases h with hinvalid | hshort
    · exact hinvalid c.valid
    · have hsize := String.length_utf8EncodeChar c
      rw [hencode, List.length_cons, htail, List.length_map] at hsize
      rw [Char.ofNat_toNat] at hshort
      omega
  rw [List.cons_append, decode_cons, tailOf_append_of_length hlength hcontinuation,
    List.drop_left]
  cases hresult : interpret lead tail with
  | ok c => exact absurd hresult (hjudged c)
  | error form => rfl

theorem Pattern.isContinuation_head? (h : Pattern piece n) (after : List UInt8) :
    ∀ b ∈ (piece ++ after).head?, isContinuation b = false := by
  have hlow : ∀ a < 0x80, isContinuation (.ofNat a) = false := by decide
  have htwo : ∀ a < 0x20, isContinuation (.ofNat (a + 0xc0)) = false := by decide
  have hthree : ∀ a < 0x10, isContinuation (.ofNat (a + 0xe0)) = false := by decide
  have hfour : ∀ a < 0x08, isContinuation (.ofNat (a + 0xf0)) = false := by decide
  cases h with
  | one ha =>
    rintro b ⟨⟩
    exact hlow _ ha
  | two ha =>
    rintro b ⟨⟩
    exact htwo _ ha
  | three ha =>
    rintro b ⟨⟩
    exact hthree _ ha
  | four ha =>
    rintro b ⟨⟩
    exact hfour _ ha

/-- A misspelled number is one malformed piece, or as many of them as there are bytes if its lead
byte starts no sequence. -/
theorem Pattern.decode_append (h : Pattern piece n) (hmisspelled : Misspelled n piece.length)
    (after : List UInt8) :
    ∃ k, 0 < k ∧ decode (piece ++ after) = List.replicate k replacement ++ decode after := by
  have hstray {x : Nat} (hx : x < 64) : width (.ofNat (x + 0x80)) = 0 :=
    width_of_isContinuation (isContinuation_ofNat hx)
  cases h with
  | one ha =>
    obtain ⟨hwidth, hbits⟩ := lead_ofNat_one ha
    exact ⟨1, Nat.one_pos, decode_misspelled [] hwidth (List.forall_mem_nil _)
      (by rwa [List.foldl_nil, hbits]) after⟩
  | @two a x ha hx =>
    by_cases hlow : 2 ≤ a
    · obtain ⟨hwidth, hbits⟩ := lead_ofNat_two hlow ha
      exact ⟨1, Nat.one_pos, decode_misspelled [x] hwidth (List.forall_mem_singleton.mpr hx)
        (by rwa [List.foldl_cons, List.foldl_nil, hbits]) after⟩
    · -- The lead bytes 0xc0 and 0xc1 could only be overlong, and start no sequence.
      have hlead : ∀ a < 2, width (.ofNat (a + 0xc0)) = 0 := by decide
      refine ⟨2, Nat.two_pos, decode_append_of_width_eq_zero ?_ after⟩
      simp only [List.forall_mem_cons]
      exact ⟨hlead a (Nat.lt_of_not_le hlow), hstray hx, List.forall_mem_nil _⟩
  | @three a x y ha hx hy =>
    obtain ⟨hwidth, hbits⟩ := lead_ofNat_three ha
    refine ⟨1, Nat.one_pos, decode_misspelled [x, y] hwidth ?_ ?_ after⟩
    · simp only [List.forall_mem_cons]
      exact ⟨hx, hy, List.forall_mem_nil _⟩
    · rwa [List.foldl_cons, List.foldl_cons, List.foldl_nil, hbits]
  | @four a x y z ha hx hy hz =>
    by_cases hlow : a < 5
    · obtain ⟨hwidth, hbits⟩ := lead_ofNat_four hlow
      refine ⟨1, Nat.one_pos, decode_misspelled [x, y, z] hwidth ?_ ?_ after⟩
      · simp only [List.forall_mem_cons]
        exact ⟨hx, hy, hz, List.forall_mem_nil _⟩
      · rwa [List.foldl_cons, List.foldl_cons, List.foldl_cons, List.foldl_nil, hbits]
    · -- From 0xf5 on, every number is too large, and no sequence starts.
      have hlead : ∀ a < 8, ¬ a < 5 → width (.ofNat (a + 0xf0)) = 0 := by decide
      refine ⟨4, by decide, decode_append_of_width_eq_zero ?_ after⟩
      simp only [List.forall_mem_cons]
      exact ⟨hlead a ha hlow, hstray hx, hstray hy, hstray hz, List.forall_mem_nil _⟩

end Utf8

namespace Source

variable {s : Source} {text : Text} {last : Nat}

theorem Holds.rest (h : s.Holds text last) :
    ∃ t, s.rest.value = (text, t) ∧ t.Holds [] last := by
  obtain ⟨run, rest, t, hrun, rfl, hruns, ht⟩ := h.takeWhile fun _ => true
  have hnil : rest = [] := by
    rw [← List.head?_eq_none_iff]
    by_contra hhead
    obtain ⟨c, hc⟩ := Option.ne_none_iff_exists'.mp hhead
    cases hruns.2 c hc
  subst hnil
  rw [List.append_nil]
  exact ⟨t, hrun, ht⟩

theorem count_newline_withoutMark (text : Text) :
    (withoutMark text).count '\n' = text.count '\n' := by
  cases text with
  | nil => rfl
  | cons c text =>
    rw [withoutMark]
    split
    · rename_i hmark
      rw [hmark, List.count_cons_of_ne (by decide)]
    · rfl

/-- Every byte string is read piece by piece, and a byte order mark in front is then skipped.  The
pieces make up the bytes; a well-formed one reads as its character and any other as a replacement
character; and an ASCII byte is a piece of its own, so that the lines are those of the bytes.  Bytes
that read as no replacement character are the encoding of what they read as.  A sequence that is
overlong, or spells a surrogate or a number above those of all characters, reads as nothing but
replacement characters, wherever it stands.  A text is handed out as it is. -/
theorem rest_ofBytes_pieces (bytes : List UInt8) :
    let text := Utf8.decode bytes
    let (characters, source) := (ofBytes bytes >>= rest).value
    (characters = withoutMark text ∧ source.next.value.1 = none) ∧
      (∃ pieces : List (List UInt8), pieces.flatten = bytes ∧
        List.Forall₂ Utf8.Reads pieces text ∧
        ∀ piece ∈ pieces, piece ≠ [] ∧ ∀ b ∈ piece, b < 0x80 → piece = [b]) ∧
      source.line = 1 + bytes.count 0x0a ∧
      (Utf8.replacement ∉ text → Utf8.encode text = bytes) ∧
      (∀ before piece after n, bytes = before ++ (piece ++ after) → Utf8.Pattern piece n →
        Utf8.Misspelled n piece.length →
        ∃ k, 0 < k ∧ text =
          Utf8.decode before ++ (List.replicate k Utf8.replacement ++ Utf8.decode after)) ∧
      ∀ written, (ofText written >>= rest).value.1 = withoutMark written := by
  intro text
  obtain ⟨pieces, hflatten, hreads, hpieces⟩ := Utf8.exists_pieces bytes
  have hholds := holds_ofStream (Stream.steady_ofBytes bytes) rfl
  rw [Stream.bytes_ofBytes] at hholds
  obtain ⟨source, hrest, hsource⟩ := hholds.rest
  have hrun : (ofBytes bytes >>= rest).value = (withoutMark text, source) := hrest
  have hlines : (withoutMark text).count '\n' = bytes.count 0x0a := by
    rw [count_newline_withoutMark, ← hflatten]
    exact Utf8.count_newline_of_reads hreads fun piece hpiece => (hpieces piece hpiece).2
  rw [hrun]
  refine ⟨⟨rfl, hsource.next.1⟩, ⟨pieces, hflatten, hreads, hpieces⟩, ?_, ?_, ?_, ?_⟩
  · have hline := hsource.line
    rw [List.count_nil, Nat.add_zero] at hline
    rw [hline, hlines]
  · intro hreplacement
    rw [Utf8.encode_of_reads hreads hreplacement, hflatten]
  · intro before piece after n hbytes hpattern hmisspelled
    obtain ⟨k, hk, hdecode⟩ := hpattern.decode_append hmisspelled after
    refine ⟨k, hk, ?_⟩
    calc Utf8.decode bytes
        = Utf8.decode (before ++ (piece ++ after)) := by rw [hbytes]
      _ = Utf8.decode before ++ Utf8.decode (piece ++ after) :=
          Utf8.decode_append before (hpattern.isContinuation_head? after)
      _ = Utf8.decode before ++ (List.replicate k Utf8.replacement ++ Utf8.decode after) := by
          rw [hdecode]
  · intro written
    obtain ⟨source, hrest, -⟩ := (holds_ofText written).rest
    rw [Logged.value_bind, hrest]

/-- A slash in three bytes is no slash, and an accented letter behind a byte order mark is
itself. -/
theorem rest_ofBytes_overlong_slash :
    Utf8.Pattern [0xe0, 0x80, 0xaf] 0x2f ∧ Utf8.Misspelled 0x2f 3 ∧
      (∃ k, 0 < k ∧ Utf8.decode [0x61, 0xe0, 0x80, 0xaf, 0x0a] =
        Utf8.decode [0x61] ++ (List.replicate k Utf8.replacement ++ Utf8.decode [0x0a])) ∧
      Utf8.replacement ∉ Utf8.decode [0xef, 0xbb, 0xbf, 0xc3, 0xa9] ∧
      Utf8.encode (Utf8.decode [0xef, 0xbb, 0xbf, 0xc3, 0xa9]) =
        [0xef, 0xbb, 0xbf, 0xc3, 0xa9] := by
  have hpattern : Utf8.Pattern [0xe0, 0x80, 0xaf] 0x2f :=
    .three (a := 0) (x := 0) (y := 0x2f) (by decide) (by decide) (by decide)
  have hmisspelled : Utf8.Misspelled 0x2f 3 := Or.inr (by decide)
  have hletter : Utf8.replacement ∉ Utf8.decode [0xef, 0xbb, 0xbf, 0xc3, 0xa9] := by
    decide +kernel
  obtain ⟨-, -, -, -, hoverlong, -⟩ := rest_ofBytes_pieces [0x61, 0xe0, 0x80, 0xaf, 0x0a]
  obtain ⟨-, -, -, hencode, -⟩ := rest_ofBytes_pieces [0xef, 0xbb, 0xbf, 0xc3, 0xa9]
  exact ⟨hpattern, hmisspelled, hoverlong [0x61] [0xe0, 0x80, 0xaf] [0x0a] 0x2f rfl hpattern
    hmisspelled, hletter, hencode hletter⟩

/-- Two byte strings put together are read as they are one by one.  The first one may be malformed,
or cut off in the middle of a sequence.  The second one must not start with a byte that could go on
with such a sequence, nor with a byte order mark, which would be skipped only when it is alone. -/
theorem rest_ofStream_append {stream : Stream} {before after : List UInt8}
    (hsteady : stream.Steady) (hbytes : stream.bytes = before ++ after)
    (hafter : ∀ b ∈ after.head?, Utf8.isContinuation b = false)
    (hmark : ¬ [0xef, 0xbb, 0xbf] <+: after) :
    (ofStream stream >>= rest).value.1 =
      (ofBytes before >>= rest).value.1 ++ (ofBytes after >>= rest).value.1 := by
  have hread {stream : Stream} (hsteady : stream.Steady) :
      (ofStream stream >>= rest).value.1 = withoutMark (Utf8.decode stream.bytes) := by
    obtain ⟨source, hrest, -⟩ := (holds_ofStream hsteady rfl).rest
    rw [Logged.value_bind, hrest]
  have hcharacters (bytes : List UInt8) :
      (ofBytes bytes >>= rest).value.1 = withoutMark (Utf8.decode bytes) := by
    have hbytes := hread (Stream.steady_ofBytes bytes)
    rwa [Stream.bytes_ofBytes] at hbytes
  have hhead := Utf8.head?_decode_ne_byteOrderMark hmark
  calc (ofStream stream >>= rest).value.1
      = withoutMark (Utf8.decode (before ++ after)) := by rw [hread hsteady, hbytes]
    _ = withoutMark (Utf8.decode before ++ Utf8.decode after) := by
        rw [Utf8.decode_append before hafter]
    _ = withoutMark (Utf8.decode before) ++ withoutMark (Utf8.decode after) := by
        rw [withoutMark_append _ hhead, withoutMark_eq_self hhead]
    _ = (ofBytes before >>= rest).value.1 ++ (ofBytes after >>= rest).value.1 := by
        rw [hcharacters, hcharacters]

/-- A byte order mark that is cut off in front of a letter in two bytes, which arrive apart. -/
theorem rest_ofStream_cut_mark :
    let stream : Stream := ⟨[], [.data [0xef, 0xbb, 0xc3], .data [0xa9, 0x0a]]⟩
    stream.Steady ∧ stream.bytes = [0xef, 0xbb] ++ [0xc3, 0xa9, 0x0a] ∧
      (∀ b ∈ [0xc3, 0xa9, 0x0a].head?, Utf8.isContinuation b = false) ∧
      ¬ [0xef, 0xbb, 0xbf] <+: [(0xc3 : UInt8), 0xa9, 0x0a] ∧
      (ofStream stream >>= rest).value.1 = [Utf8.replacement] ++ ['é', '\n'] := by
  intro stream
  have hsteady : stream.Steady := by simp [stream, Stream.Steady, Read.Steady]
  have hbytes : stream.bytes = [0xef, 0xbb] ++ [0xc3, 0xa9, 0x0a] := by decide +kernel
  have hafter : ∀ b ∈ [0xc3, 0xa9, 0x0a].head?, Utf8.isContinuation b = false := by
    rintro b ⟨⟩
    decide
  have hmark : ¬ [0xef, 0xbb, 0xbf] <+: [(0xc3 : UInt8), 0xa9, 0x0a] := by decide
  refine ⟨hsteady, hbytes, hafter, hmark, ?_⟩
  rw [rest_ofStream_append hsteady hbytes hafter hmark]
  decide +kernel

end Source

end SemiLex
