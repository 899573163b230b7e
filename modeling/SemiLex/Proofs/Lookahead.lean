import SemiLex.Proofs.Reading

/-!
# Looking ahead

A source hands out the characters of its stream in order, whatever is looked at in between.  Looks
at any distance, questions for the end and for the failure take nothing away and change nothing
that is handed out later.  This is so even if reads deliver nothing in the middle: they make pauses
in which there is no next character, but the characters around them are the same.
-/

namespace SemiLex

/-! ## The characters of a stream -/

/-- All characters of a stream, without a byte order mark in front.  Behind a pause it is one
character like others. -/
def Stream.characters (s : Stream) : Text :=
  Source.withoutMark (Utf8.decode s.segment) ++ Read.beyond s.reads

theorem Stream.characters_of_steady {s : Stream} (h : s.Steady) :
    s.characters = Source.withoutMark (Utf8.decode s.bytes) := by
  obtain ⟨hsegment, hbeyond⟩ := segment_of_steady h
  rw [characters, hsegment, hbeyond, List.append_nil]

/-! ## Pauses

A look into a pause uses up the read that makes it. -/

theorem Stream.size_of_ofReads_lt {reads : List Read} {t : Stream} (h : ofReads reads = .ok t)
    (hnil : t.buffer = []) (hbeyond : Read.beyond reads ≠ []) : t.size < Read.total reads := by
  fun_induction ofReads reads with
  | case1 => exact absurd rfl hbeyond
  | case2 bytes reads hle =>
    cases h
    have hbytes : bytes = [] := hnil
    simp [size, Read.total, Read.size, hbytes]
  | case3 bytes reads hle =>
    cases h
    exact absurd hnil (Read.ne_nil_of_capacity_lt hle).2.1
  | case4 cause reads hkind ih =>
    rw [Read.beyond, if_pos hkind] at hbeyond
    exact Nat.lt_of_lt_of_le (ih h hbeyond) (Nat.le_add_left _ _)
  | case5 => cases h

theorem Stream.size_fill_lt {s t : Stream} (h : s.fill = .ok t) (hnil : t.buffer = [])
    (hbeyond : Read.beyond s.reads ≠ []) : t.size < s.size := by
  rw [fill] at h
  split at h
  · exact Nat.lt_of_lt_of_le (size_of_ofReads_lt h hnil hbeyond) (Nat.le_add_left _ _)
  · rename_i hne
    cases h
    exact absurd hnil hne

namespace Source

variable {s start : Source} {text taken : Text} {last : Nat}

/-! ## What a source owes -/

/-- The characters that are left, with pauses or without. -/
def owed (s : Source) : Text :=
  s.lookahead ++ s.undecoded

theorem owed_peek (n : Nat) (s : Source) : (s.peek n).value.2.owed = s.owed := by
  rw [peek]
  split
  · rfl
  · rcases hread : (s.readChars (n + 1 - s.lookahead.length)).value with ⟨text, t⟩
    obtain ⟨hundecoded, -, hsame⟩ := undecoded_readChars _ hread
    simp only [Logged.value_bind, Logged.value_pure, hread]
    rw [owed, owed, hundecoded, ← hsame.lookahead, ← List.append_assoc]
    rfl

theorem owed_atEnd (s : Source) : s.atEnd.value.2.owed = s.owed := by
  rw [atEnd]
  split
  · simp only [Logged.value_bind, Logged.value_pure]
    rcases hpeek : s.peekByte.value with ⟨_ | b, t⟩
    · obtain ⟨hsegment, hundecoded, -, hsame⟩ := peekByte_none hpeek
      rw [owed, owed, hundecoded, hsame.lookahead, undecoded, hsegment, Utf8.decode_nil,
        List.nil_append]
    · obtain ⟨bytes, hsegment, hready, -, hbeyond, hsame⟩ := peekByte_some hpeek
      rw [owed, owed, undecoded, undecoded, hsame.lookahead, hready, hbeyond, hsegment]
  · rfl

theorem owed_advance (s : Source) : s.owed = s.lookahead.head?.toList ++ s.advance.owed := by
  rw [advance]
  split
  · rename_i hnil
    rw [hnil]
    rfl
  · rename_i c lookahead hcons
    rw [owed, hcons]
    rfl

theorem owed_next (s : Source) : s.owed = s.next.value.1.toList ++ s.next.value.2.owed := by
  have hfound : (s.peek 0).value.2.lookahead.head? = (s.peek 0).value.1 := by
    rw [List.head?_eq_getElem?, lookahead_peek]
  rw [← owed_peek 0 s, owed_advance, hfound]
  rfl

theorem peek_zero_of_nil (h : s.lookahead = []) :
    (s.peek 0).value.1 = (Utf8.decode s.segment).head? := by
  rw [peek, h]
  rcases hread : s.readChar.value with ⟨_ | c, t⟩
  · obtain ⟨hhead, -, hsame⟩ := undecoded_readChar hread
    simp [readChars, hread, ← hhead, hsame.lookahead, h]
  · obtain ⟨hhead, -, hsame⟩ := undecoded_readChar hread
    simp [readChars, hread, ← hhead, hsame.lookahead, h]

theorem owed_ofStream (stream : Stream) : (ofStream stream).value.owed = stream.characters := by
  have hhead := peek_zero_of_nil (s := { stream := some stream }) rfl
  have howed := owed_peek 0 { stream := some stream }
  have hfound := lookahead_peek 0 ({ stream := some stream } : Source)
  simp only [ofStream, Logged.value_bind, Logged.value_pure]
  rw [← List.head?_eq_getElem?] at hfound
  split
  · rename_i hmark
    rw [hmark] at hfound
    obtain ⟨lookahead, hlookahead⟩ := List.head?_eq_some_iff.mp hfound
    obtain ⟨text, htext⟩ := List.head?_eq_some_iff.mp (hhead.symm.trans hmark)
    have hsegment : Utf8.decode stream.segment = Utf8.byteOrderMark :: text := htext
    have hfresh : ({ stream := some stream } : Source).owed
        = Utf8.byteOrderMark :: (text ++ Read.beyond stream.reads) :=
      congrArg (· ++ Read.beyond stream.reads) hsegment
    rw [hfresh, owed, hlookahead] at howed
    rw [Stream.characters, hsegment, withoutMark, if_pos rfl, hlookahead]
    exact List.tail_eq_of_cons_eq howed
  · rename_i hother
    rw [howed, Stream.characters, withoutMark_eq_self (by rwa [hhead] at hother)]
    rfl

/-! ## Progress -/

theorem size_peekByte_lt {t : Source} (h : s.peekByte.value = (none, t))
    (hbeyond : s.beyond ≠ []) : t.size < s.size := by
  rw [peekByte] at h
  split at h
  · rename_i hstream
    simp [beyond, hstream] at hbeyond
  · rename_i stream hstream
    have hreads : Read.beyond stream.reads ≠ [] := by simpa [beyond, hstream] using hbeyond
    split at h
    · rename_i filled hfill
      simp only [Logged.value_pure, Prod.mk.injEq] at h
      obtain ⟨hb, rfl⟩ := h
      have hlt := Stream.size_fill_lt hfill (List.head?_eq_none_iff.mp hb) hreads
      simp only [size, hstream, Option.elim_some]
      omega
    · rename_i cause hfill
      exact absurd (Stream.segment_of_fill_error hfill).2 hreads

/-- A pause is left behind by the look that meets it. -/
theorem size_atEnd_lt (hnext : s.next.value.1 = none) (howed : s.owed ≠ []) :
    s.atEnd.value.2.size < s.size := by
  have hnil : s.lookahead = [] := by
    cases hlookahead : s.lookahead with
    | nil => rfl
    | cons c lookahead => simp [next, peek, hlookahead] at hnext
  have hdecode : Utf8.decode s.segment = [] :=
    List.head?_eq_none_iff.mp ((peek_zero_of_nil hnil).symm.trans hnext)
  rw [owed, hnil, undecoded, hdecode] at howed
  rw [atEnd, if_pos hnil]
  simp only [Logged.value_bind, Logged.value_pure]
  rcases hpeek : s.peekByte.value with ⟨_ | b, t⟩
  · exact size_peekByte_lt hpeek howed
  · obtain ⟨bytes, hsegment, -⟩ := peekByte_some hpeek
    rw [Utf8.decode_eq_nil_iff, hsegment] at hdecode
    cases hdecode

/-! ## Interleavings -/

/-- `s` is what a source becomes in any sequence of looks, questions and characters handed out,
and `taken` are the characters that were handed out in it. -/
inductive Interleaved (start : Source) : Text → Source → Prop
  | start : Interleaved start [] start
  | next {taken : Text} {s : Source} (h : Interleaved start taken s) :
    Interleaved start (taken ++ s.next.value.1.toList) s.next.value.2
  | peek {taken : Text} {s : Source} (h : Interleaved start taken s) (n : Nat) :
    Interleaved start taken (s.peek n).value.2
  | atEnd {taken : Text} {s : Source} (h : Interleaved start taken s) :
    Interleaved start taken s.atEnd.value.2
  | takeFailure {taken : Text} {s : Source} (h : Interleaved start taken s) :
    Interleaved start taken s.takeFailure.2

theorem Interleaved.trans {t : Source} {more : Text} (hs : Interleaved start taken s)
    (ht : Interleaved s more t) : Interleaved start (taken ++ more) t := by
  induction ht with
  | start =>
    rw [List.append_nil]
    exact hs
  | next _ ih =>
    rw [← List.append_assoc]
    exact ih.next
  | peek _ n ih => exact ih.peek n
  | atEnd _ ih => exact ih.atEnd
  | takeFailure _ ih => exact ih.takeFailure

theorem Interleaved.owed (h : Interleaved start taken s) : taken ++ s.owed = start.owed := by
  induction h with
  | start => rfl
  | @next taken s _ ih => rw [← ih, owed_next s, List.append_assoc]
  | @peek taken s _ n ih => rw [owed_peek, ih]
  | @atEnd taken s _ ih => rw [owed_atEnd, ih]
  | takeFailure _ ih => exact ih

theorem exists_interleaved_owed (s : Source) : ∃ t, Interleaved s s.owed t := by
  by_cases howed : s.owed = []
  · exact ⟨s, howed ▸ .start⟩
  · cases hnext : s.next.value.1 with
    | some c =>
      have hlt : s.next.value.2.size < s.size := size_next_lt (Prod.ext hnext rfl)
      obtain ⟨t, ht⟩ := exists_interleaved_owed s.next.value.2
      rw [owed_next]
      exact ⟨t, Interleaved.start.next.trans ht⟩
    | none =>
      -- in a pause, the question for the end goes on to the next read
      have hlt := size_atEnd_lt hnext howed
      obtain ⟨t, ht⟩ := exists_interleaved_owed s.atEnd.value.2
      rw [owed_atEnd] at ht
      exact ⟨t, Interleaved.start.atEnd.trans ht⟩
termination_by s.size

theorem Interleaved.holds {all : Text} (h : Interleaved start taken s)
    (hstart : start.Holds all last) : ∃ rest, all = taken ++ rest ∧ s.Holds rest last := by
  induction h with
  | start => exact ⟨all, rfl, hstart⟩
  | @next taken s _ ih =>
    obtain ⟨rest, hall, hs⟩ := ih
    obtain ⟨hc, hnext⟩ := hs.next
    refine ⟨rest.tail, ?_, hnext⟩
    rw [hc, hall, List.append_assoc]
    cases rest with
    | nil => rfl
    | cons c rest => rfl
  | peek _ n ih =>
    obtain ⟨rest, hall, hs⟩ := ih
    exact ⟨rest, hall, (hs.peek n).2⟩
  | atEnd _ ih =>
    obtain ⟨rest, hall, hs⟩ := ih
    exact ⟨rest, hall, hs.atEnd.2⟩
  | takeFailure _ ih =>
    obtain ⟨rest, hall, hs⟩ := ih
    exact ⟨rest, hall, hs.takeFailure⟩

theorem Holds.take (h : s.Holds text last) (n : Nat) : (s.take n).value.1 = text.take n := by
  induction n generalizing s text with
  | zero => rfl
  | succ n ih =>
    obtain ⟨hhead, hnext⟩ := h.next
    simp only [Source.take, Logged.value_bind]
    split
    · rename_i t ht
      rw [ht] at hhead
      rw [List.head?_eq_none_iff.mp hhead.symm]
      rfl
    · rename_i c t ht
      rw [ht] at hhead hnext
      obtain ⟨rest, rfl⟩ := List.head?_eq_some_iff.mp hhead.symm
      simp only [Logged.value_bind, Logged.value_pure, ih hnext, List.tail_cons,
        List.take_succ_cons]

/-- Every answer of a source in front of place `i` of a sequence of characters. -/
structure AnswersAt (all : Text) (i : Nat) (s : Source) : Prop where
  next : s.next.value.1 = all[i]?
  exhausted : s.next.value.1 = none ↔ i = all.length
  peek : ∀ n, (s.peek n).value.1 = all[i + n]?
  atEnd : s.atEnd.value.1 = true ↔ i = all.length
  line : s.line = 1 + (all.take i).count '\n'

theorem Holds.answersAt {rest : Text}
    (h : s.Holds rest (1 + (taken ++ rest).count '\n')) :
    AnswersAt (taken ++ rest) taken.length s where
  next := by
    rw [h.next.1, List.getElem?_append_right (Nat.le_refl _), Nat.sub_self, List.head?_eq_getElem?]
  exhausted := by
    rw [h.next.1, List.head?_eq_none_iff, List.length_append, Nat.left_eq_add,
      List.length_eq_zero_iff]
  peek n := by
    rw [(h.peek n).1, List.getElem?_append_right (Nat.le_add_right _ _), Nat.add_sub_cancel_left]
  atEnd := by
    rw [h.atEnd.1, List.isEmpty_iff, List.length_append, Nat.left_eq_add, List.length_eq_zero_iff]
  line := by
    have hline := h.line
    rw [List.count_append] at hline
    rw [List.take_left]
    omega

/-- Looking ahead is transparent.  Whatever is looked at and asked for in between, a source hands
out one sequence of characters, which its stream alone decides, and all that it has not handed out
can still be had.  Over a steady stream these are the characters that its bytes decode to, past a
byte order mark in front, and those that it hands out when nothing is looked at.  Wherever a source
has got to in them, every answer is as the sequence has it there. -/
theorem interleaved_transparent (stream : Stream) :
    let source := (ofStream stream).value
    let all := stream.characters
    (∀ taken s, Interleaved source taken s →
        ∃ rest t, all = taken ++ rest ∧ Interleaved s rest t) ∧
      (stream.Steady → all = withoutMark (Utf8.decode stream.bytes) ∧
        (∀ n, (source.take n).value.1 = all.take n) ∧
        ∀ taken s, Interleaved source taken s → AnswersAt all taken.length s) := by
  intro source all
  refine ⟨fun taken s hs => ?_, fun hsteady => ?_⟩
  · obtain ⟨t, ht⟩ := exists_interleaved_owed s
    exact ⟨s.owed, t, by rw [hs.owed, owed_ofStream], ht⟩
  · have hall : all = withoutMark (Utf8.decode stream.bytes) :=
      Stream.characters_of_steady hsteady
    have hsource := holds_ofStream hsteady rfl
    rw [← hall] at hsource
    refine ⟨hall, hsource.take, fun taken s hs => ?_⟩
    obtain ⟨rest, htaken, hrest⟩ := hs.holds hsource
    rw [htaken] at hrest ⊢
    exact hrest.answersAt

/-- A look beyond the end meets the failure while characters still wait.  The mark and the last
character are each spread over two reads. -/
theorem interleaved_after_failed_look :
    let stream : Stream := ⟨[], [.data [0xef, 0xbb], .failure ⟨.interrupted, "signal"⟩,
      .data [0xbf, 0x61, 0x0a, 0xe2], .data [0x82, 0xac], .failure ⟨.brokenPipe, "pipe closed"⟩,
      .data [0x7a]]⟩
    let source := (ofStream stream).value
    let s := (source.peek 5).value.2.next.value.2.atEnd.value.2.takeFailure.2.next.value.2
    stream.Steady ∧ Interleaved source ['a', '\n'] s ∧
      (∃ rest t, stream.characters = ['a', '\n'] ++ rest ∧ Interleaved s rest t) ∧
      stream.characters = ['a', '\n', '€'] ∧ AnswersAt stream.characters 2 s := by
  intro stream source s
  have hsteady : stream.Steady := by simp [stream, Stream.Steady, Read.Steady]
  have hs : Interleaved source ['a', '\n'] s := by
    have htaken : [] ++ (source.peek 5).value.2.next.value.1.toList
        ++ (source.peek 5).value.2.next.value.2.atEnd.value.2.takeFailure.2.next.value.1.toList
        = ['a', '\n'] := by decide +kernel
    rw [← htaken]
    exact (Interleaved.start.peek 5).next.atEnd.takeFailure.next
  obtain ⟨htakes, hanswers⟩ := interleaved_transparent stream
  exact ⟨hsteady, hs, htakes _ s hs, by decide +kernel, (hanswers hsteady).2.2 _ s hs⟩

end Source

end SemiLex
