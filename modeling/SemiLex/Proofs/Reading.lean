import SemiLex.Proofs.Decoding
import SemiLex.Proofs.Moments

/-!
# What a source holds

A source holds the characters that wait in its queue and those that its stream still decodes to.
Every operation is described by what it does to these: looking ahead changes nothing, consuming
takes characters from the front.  The line at the end of the input never changes, so that the
line of a source follows from the characters it still holds.

Reads that deliver nothing make pauses in a stream.  What is decoded is first described with them,
from one pause to the next, and then for the steady streams, which have none.
-/

namespace SemiLex

/-! ## Streams -/

namespace Read

/-- The bytes delivered before the first failure that is not tried again. -/
def delivered : List Read → List UInt8
  | [] => []
  | .data bytes :: reads => bytes ++ delivered reads
  | .failure cause :: reads => if cause.kind = .interrupted then delivered reads else []

/-- No read delivers nothing, unless it is the last one. -/
def Steady : List Read → Prop
  | [] => True
  | .data bytes :: reads => (bytes = [] → reads = []) ∧ Steady reads
  | .failure cause :: reads => cause.kind = .interrupted → Steady reads

/-! A read that delivers nothing is a pause.  There is no next byte in it, and it cuts off a
sequence that has begun. -/

/-- The bytes up to the next pause, or to a failure that is not tried again. -/
def segment : List Read → List UInt8
  | [] => []
  | .data bytes :: reads => if bytes = [] then [] else bytes ++ segment reads
  | .failure cause :: reads => if cause.kind = .interrupted then segment reads else []

/-- The characters behind the next pause. -/
def beyond : List Read → Text
  | [] => []
  | .data bytes :: reads =>
    if bytes = [] then Utf8.decode (segment reads) ++ beyond reads else beyond reads
  | .failure cause :: reads => if cause.kind = .interrupted then beyond reads else []

theorem segment_of_steady {reads : List Read} (h : Steady reads) :
    segment reads = delivered reads ∧ beyond reads = [] := by
  induction reads with
  | nil => exact ⟨rfl, rfl⟩
  | cons read reads ih =>
    cases read with
    | data bytes =>
      obtain ⟨hsegment, hbeyond⟩ := ih h.2
      rw [segment, beyond, delivered, hsegment, hbeyond]
      by_cases hnil : bytes = []
      · rw [if_pos hnil, if_pos hnil, h.1 hnil, hnil]
        exact ⟨rfl, (List.append_nil _).trans Utf8.decode_nil⟩
      · rw [if_neg hnil, if_neg hnil]
        exact ⟨rfl, rfl⟩
    | failure cause =>
      rw [segment, beyond, delivered]
      by_cases hkind : cause.kind = .interrupted
      · rw [if_pos hkind, if_pos hkind, if_pos hkind]
        exact ih (h hkind)
      · rw [if_neg hkind, if_neg hkind, if_neg hkind]
        exact ⟨rfl, rfl⟩

theorem ne_nil_of_capacity_lt {bytes : List UInt8} (h : ¬ bytes.length ≤ capacity) :
    bytes ≠ [] ∧ bytes.take capacity ≠ [] ∧ bytes.drop capacity ≠ [] := by
  have hbytes : bytes ≠ [] := by
    rintro rfl
    exact h (Nat.zero_le _)
  refine ⟨hbytes, ?_, ?_⟩
  · rw [ne_eq, List.take_eq_nil_iff, not_or]
    exact ⟨by decide, hbytes⟩
  · rwa [ne_eq, List.drop_eq_nil_iff]

end Read

namespace Stream

def bytes (s : Stream) : List UInt8 :=
  s.buffer ++ Read.delivered s.reads

def Steady (s : Stream) : Prop :=
  Read.Steady s.reads

def segment (s : Stream) : List UInt8 :=
  s.buffer ++ Read.segment s.reads

def undecoded (s : Stream) : Text :=
  Utf8.decode s.segment ++ Read.beyond s.reads

theorem segment_of_steady {s : Stream} (h : s.Steady) :
    s.segment = s.bytes ∧ Read.beyond s.reads = [] := by
  obtain ⟨hsegment, hbeyond⟩ := Read.segment_of_steady h
  rw [segment, hsegment]
  exact ⟨rfl, hbeyond⟩

theorem segment_of_nil {s : Stream} (h : s.buffer = []) : s.segment = Read.segment s.reads := by
  rw [segment, h, List.nil_append]

theorem steady_of_ofReads {reads : List Read} {s : Stream} (h : ofReads reads = .ok s)
    (hsteady : Read.Steady reads) : s.Steady := by
  fun_induction ofReads reads with
  | case1 =>
    cases h
    trivial
  | case2 bytes reads hle =>
    cases h
    exact hsteady.2
  | case3 bytes reads hle =>
    cases h
    obtain ⟨-, -, hdrop⟩ := Read.ne_nil_of_capacity_lt hle
    exact ⟨fun hnil => absurd hnil hdrop, hsteady.2⟩
  | case4 cause reads hkind ih => exact ih h (hsteady hkind)
  | case5 => cases h

theorem steady_of_fill {s t : Stream} (h : s.fill = .ok t) (hsteady : s.Steady) : t.Steady := by
  rw [fill] at h
  split at h
  · exact steady_of_ofReads h hsteady
  · cases h
    exact hsteady

/-- What a filled buffer begins with: the rest of the segment, or, in a pause, all that is left. -/
theorem segment_of_ofReads {reads : List Read} {t : Stream} (h : ofReads reads = .ok t) :
    (t.buffer ≠ [] → t.segment = Read.segment reads ∧ Read.beyond t.reads = Read.beyond reads) ∧
      (t.buffer = [] → Read.segment reads = [] ∧ t.undecoded = Read.beyond reads) := by
  fun_induction ofReads reads with
  | case1 =>
    cases h
    exact ⟨fun hne => absurd rfl hne, fun _ => ⟨rfl, by simp [undecoded, segment, Read.segment]⟩⟩
  | case2 bytes reads hle =>
    cases h
    refine ⟨fun hne => ?_, fun hnil => ?_⟩
    · have hbytes : bytes ≠ [] := hne
      rw [Read.segment, Read.beyond, if_neg hbytes, if_neg hbytes]
      exact ⟨rfl, rfl⟩
    · have hbytes : bytes = [] := hnil
      rw [Read.segment, Read.beyond, if_pos hbytes, if_pos hbytes, hbytes]
      exact ⟨rfl, rfl⟩
  | case3 bytes reads hle =>
    cases h
    obtain ⟨hbytes, htake, hdrop⟩ := Read.ne_nil_of_capacity_lt hle
    refine ⟨fun _ => ⟨?_, ?_⟩, fun hnil => absurd hnil htake⟩
    · rw [segment, Read.segment, if_neg hdrop, ← List.append_assoc, List.take_append_drop,
        Read.segment, if_neg hbytes]
    · rw [Read.beyond, if_neg hdrop, Read.beyond, if_neg hbytes]
  | case4 cause reads hkind ih =>
    rw [Read.segment, if_pos hkind, Read.beyond, if_pos hkind]
    exact ih h
  | case5 => cases h

theorem segment_of_ofReads_error {reads : List Read} {cause : Fault}
    (h : ofReads reads = .error cause) : Read.segment reads = [] ∧ Read.beyond reads = [] := by
  fun_induction ofReads reads with
  | case1 => cases h
  | case2 => cases h
  | case3 => cases h
  | case4 cause reads hkind ih =>
    rw [Read.segment, if_pos hkind, Read.beyond, if_pos hkind]
    exact ih h
  | case5 cause reads hkind =>
    rw [Read.segment, if_neg hkind, Read.beyond, if_neg hkind]
    exact ⟨rfl, rfl⟩

theorem segment_of_fill {s t : Stream} (h : s.fill = .ok t) :
    (t.buffer ≠ [] → t.segment = s.segment ∧ Read.beyond t.reads = Read.beyond s.reads) ∧
      (t.buffer = [] → s.segment = [] ∧ t.undecoded = Read.beyond s.reads) := by
  rw [fill] at h
  split at h
  · rename_i hnil
    rw [segment_of_nil hnil]
    exact segment_of_ofReads h
  · rename_i hne
    cases h
    exact ⟨fun _ => ⟨rfl, rfl⟩, fun hnil => absurd hnil hne⟩

theorem segment_of_fill_error {s : Stream} {cause : Fault} (h : s.fill = .error cause) :
    s.segment = [] ∧ Read.beyond s.reads = [] := by
  rw [fill] at h
  split at h
  · rename_i hnil
    rw [segment_of_nil hnil]
    exact segment_of_ofReads_error h
  · cases h

theorem bytes_ofBytes (bytes : List UInt8) : (ofBytes bytes).bytes = bytes := by
  simp [ofBytes, Stream.bytes, Read.delivered]

theorem steady_ofBytes (bytes : List UInt8) : (ofBytes bytes).Steady :=
  ⟨fun _ => rfl, trivial⟩

end Stream

namespace Source

variable {s t : Source} {text : Text} {last : Nat}

/-! ## Bytes of a source -/

def bytes (s : Source) : List UInt8 :=
  s.stream.elim [] Stream.bytes

def Steady (s : Source) : Prop :=
  s.stream.elim True Stream.Steady

/-- A source that has read from its stream, up to these bytes, and is otherwise as before. -/
structure ReadTo (s t : Source) (bytes : List UInt8) : Prop where
  bytes : t.bytes = bytes
  lookahead : t.lookahead = s.lookahead
  line : t.line = s.line
  steady : t.Steady

theorem Later.steady (h : Later s t) (hs : s.Steady) : t.Steady := by
  induction h with
  | now => exact hs
  | @peekByte t _ ih =>
    rw [Source.peekByte]
    split
    · exact ih
    · rename_i stream hstream
      have hsteady : stream.Steady := by simpa [Steady, hstream] using ih
      split
      · rename_i filled hfill
        exact Stream.steady_of_fill hfill hsteady
      · trivial
  | @dropByte t _ ih =>
    cases hstream : t.stream with
    | none => simp [Steady, Source.dropByte, hstream]
    | some stream =>
      simpa [Steady, Source.dropByte, hstream, Stream.Steady, Stream.tail] using ih
  | queue _ hstream _ ih =>
    rw [Steady, hstream]
    exact ih

def segment (s : Source) : List UInt8 :=
  s.stream.elim [] Stream.segment

/-- The characters behind the next pause. -/
def beyond (s : Source) : Text :=
  s.stream.elim [] fun stream => Read.beyond stream.reads

/-- The characters that are still to be decoded. -/
def undecoded (s : Source) : Text :=
  Utf8.decode s.segment ++ s.beyond

theorem segment_of_steady (h : s.Steady) : s.segment = s.bytes ∧ s.beyond = [] := by
  cases hstream : s.stream with
  | none => simp [segment, beyond, bytes, hstream]
  | some stream =>
    have hsteady : stream.Steady := by simpa [Steady, hstream] using h
    simpa [segment, beyond, bytes, hstream] using Stream.segment_of_steady hsteady

theorem undecoded_of_steady (h : s.Steady) : s.undecoded = Utf8.decode s.bytes := by
  obtain ⟨hsegment, hbeyond⟩ := segment_of_steady h
  rw [undecoded, hsegment, hbeyond, List.append_nil]

/-- Nothing but the stream and the failure has changed. -/
structure SameQueue (s t : Source) : Prop where
  lookahead : t.lookahead = s.lookahead
  line : t.line = s.line

theorem SameQueue.trans {u : Source} (hst : SameQueue s t) (htu : SameQueue t u) :
    SameQueue s u where
  lookahead := htu.lookahead.trans hst.lookahead
  line := htu.line.trans hst.line

theorem sameQueue_dropByte (s : Source) : SameQueue s s.dropByte :=
  ⟨rfl, rfl⟩

theorem beyond_dropByte (s : Source) : s.dropByte.beyond = s.beyond := by
  cases hstream : s.stream with
  | none => simp only [beyond, dropByte, hstream, Option.map_none]
  | some stream =>
    simp only [beyond, dropByte, hstream, Option.map_some, Option.elim_some]
    rfl

theorem peekByte_some {b : UInt8} (h : s.peekByte.value = (some b, t)) :
    ∃ bytes, s.segment = b :: bytes ∧ t.segment = b :: bytes ∧ t.dropByte.segment = bytes ∧
      t.beyond = s.beyond ∧ SameQueue s t := by
  rw [peekByte] at h
  split at h
  · cases h
  · rename_i stream hstream
    split at h
    · rename_i filled hfill
      simp only [Logged.value_pure, Prod.mk.injEq] at h
      obtain ⟨hb, rfl⟩ := h
      obtain ⟨buffer, hbuffer⟩ := List.head?_eq_some_iff.mp hb
      obtain ⟨hsegment, hbeyond⟩ := (Stream.segment_of_fill hfill).1 (by simp [hbuffer])
      have hfilled : filled.segment = b :: (buffer ++ Read.segment filled.reads) := by
        rw [Stream.segment, hbuffer, List.cons_append]
      refine ⟨_, ?_, hfilled, ?_, ?_, rfl, rfl⟩
      · simp only [segment, hstream, Option.elim_some, ← hsegment, hfilled]
      · simp [segment, dropByte, Stream.segment, Stream.tail, hbuffer]
      · simp only [beyond, hstream, Option.elim_some, hbeyond]
    · cases h

/-- A look finds no byte in a pause, and then the next segment begins. -/
theorem peekByte_none (h : s.peekByte.value = (none, t)) :
    s.segment = [] ∧ t.undecoded = s.beyond ∧ t.dropByte = t ∧ SameQueue s t := by
  rw [peekByte] at h
  split at h
  · rename_i hstream
    cases h
    have hsegment : s.segment = [] := by rw [segment, hstream, Option.elim_none]
    refine ⟨hsegment, ?_, ?_, rfl, rfl⟩
    · rw [undecoded, hsegment, Utf8.decode_nil, List.nil_append]
    · rw [dropByte, hstream, Option.map_none, ← hstream]
  · rename_i stream hstream
    split at h
    · rename_i filled hfill
      simp only [Logged.value_pure, Prod.mk.injEq] at h
      obtain ⟨hb, rfl⟩ := h
      have hbuffer := List.head?_eq_none_iff.mp hb
      obtain ⟨hsegment, hundecoded⟩ := (Stream.segment_of_fill hfill).2 hbuffer
      refine ⟨?_, ?_, ?_, rfl, rfl⟩
      · rw [segment, hstream, Option.elim_some, hsegment]
      · rw [beyond, hstream, Option.elim_some, ← hundecoded]
        rfl
      · have htail : filled.tail = filled := by
          rw [Stream.tail, hbuffer, List.tail_nil, ← hbuffer]
        rw [dropByte, Option.map_some, htail]
    · rename_i cause hfill
      cases h
      obtain ⟨hsegment, hbeyond⟩ := Stream.segment_of_fill_error hfill
      refine ⟨?_, ?_, rfl, rfl, rfl⟩
      · rw [segment, hstream, Option.elim_some, hsegment]
      · rw [beyond, hstream, Option.elim_some, hbeyond]
        simp [undecoded, segment, beyond]

/-! ## Characters of a source -/

/-- Continuation bytes are looked for in the segment only.  If it ends behind them, the look has
gone on to the next one. -/
theorem undecoded_readContinuation (n : Nat) {tail : List UInt8}
    (h : (s.readContinuation n).value = (tail, t)) :
    tail = (s.segment.take n).takeWhile Utf8.isContinuation ∧
      t.undecoded = Utf8.decode (s.segment.drop tail.length) ++ s.beyond ∧
      SameQueue s t := by
  induction n generalizing s tail with
  | zero =>
    cases h
    exact ⟨rfl, rfl, rfl, rfl⟩
  | succ n ih =>
    simp only [readContinuation, Logged.value_bind] at h
    split at h
    · rename_i u hu
      obtain ⟨hsegment, hundecoded, -, hsame⟩ := peekByte_none hu
      cases h
      rw [hsegment]
      exact ⟨rfl, by simpa using hundecoded, hsame⟩
    · rename_i b u hu
      obtain ⟨bytes, hsegment, hready, hdrop, hbeyond, hsame⟩ := peekByte_some hu
      rw [hsegment]
      split at h
      · rename_i hb
        simp only [Logged.value_bind, Logged.value_pure, Prod.mk.injEq] at h
        obtain ⟨rfl, rfl⟩ := h
        obtain ⟨htail, hundecoded, hqueue⟩ := ih (s := u.dropByte) rfl
        rw [hdrop] at htail hundecoded
        refine ⟨?_, ?_, (hsame.trans (sameQueue_dropByte u)).trans hqueue⟩
        · rw [List.take_succ_cons, List.takeWhile_cons_of_pos hb, htail]
        · rw [beyond_dropByte, hbeyond] at hundecoded
          exact hundecoded
      · rename_i hb
        cases h
        refine ⟨?_, ?_, hsame⟩
        · rw [List.take_succ_cons, List.takeWhile_cons_of_neg hb]
        · rw [undecoded, hready, hbeyond]
          rfl

theorem undecoded_readChar {c : Option Char} (h : s.readChar.value = (c, t)) :
    c = (Utf8.decode s.segment).head? ∧ s.undecoded = c.toList ++ t.undecoded ∧
      SameQueue s t := by
  simp only [readChar, readByte, Logged.value_bind, Logged.value_pure] at h
  rcases hpeek : s.peekByte.value with ⟨_ | lead, u⟩
  · rw [hpeek] at h
    cases h
    obtain ⟨hsegment, hundecoded, hdrop, hsame⟩ := peekByte_none hpeek
    rw [hdrop, undecoded, hsegment, Utf8.decode_nil]
    exact ⟨rfl, hundecoded.symm, hsame⟩
  · rw [hpeek] at h
    obtain ⟨bytes, hsegment, -, hdrop, hbeyond, hsame⟩ := peekByte_some hpeek
    obtain ⟨htail, hundecoded, hqueue⟩ :=
      undecoded_readContinuation (s := u.dropByte) (Utf8.trailing lead) rfl
    rw [hdrop, beyond_dropByte, hbeyond] at hundecoded
    rw [hdrop] at htail
    have hkept := (hsame.trans (sameQueue_dropByte u)).trans hqueue
    rw [undecoded, hsegment, Utf8.decode_cons, Utf8.tailOf, ← htail]
    simp only [Logged.value_bind] at h
    split at h <;> rename_i hresult <;> cases h <;> rw [hresult]
    · exact ⟨rfl, congrArg (_ :: ·) hundecoded.symm, hkept⟩
    · exact ⟨rfl, congrArg (_ :: ·) hundecoded.symm, hkept⟩

theorem undecoded_readChars (n : Nat) (h : (s.readChars n).value = (text, t)) :
    s.undecoded = text ++ t.undecoded ∧ (s.Steady → text = s.undecoded.take n) ∧
      SameQueue s t := by
  induction n generalizing s text with
  | zero =>
    cases h
    exact ⟨rfl, fun _ => rfl, rfl, rfl⟩
  | succ n ih =>
    simp only [readChars, Logged.value_bind] at h
    have hlater := later_readChar s
    split at h
    · rename_i u hu
      obtain ⟨hhead, hundecoded, hsame⟩ := undecoded_readChar hu
      cases h
      refine ⟨hundecoded, fun hsteady => ?_, hsame⟩
      -- without pauses, nothing is behind an empty segment
      rw [undecoded, List.head?_eq_none_iff.mp hhead.symm, (segment_of_steady hsteady).2]
      rfl
    · rename_i c u hu
      rw [hu] at hlater
      obtain ⟨-, hundecoded, hsame⟩ := undecoded_readChar hu
      simp only [Logged.value_bind, Logged.value_pure, Prod.mk.injEq] at h
      obtain ⟨rfl, rfl⟩ := h
      obtain ⟨hrest, htake, hqueue⟩ := ih (s := u) rfl
      refine ⟨?_, fun hsteady => ?_, hsame.trans hqueue⟩
      · rw [hundecoded, hrest]
        rfl
      · rw [hundecoded, htake (hlater.steady hsteady)]
        rfl

/-! ## Steady sources -/

theorem peekByte_spec {b : Option UInt8} (hs : s.Steady) (h : s.peekByte.value = (b, t)) :
    b = s.bytes.head? ∧ ReadTo s t s.bytes := by
  have ht : t.Steady := by
    have hlater : Later s s.peekByte.value.2 := Later.now.peekByte
    rw [h] at hlater
    exact hlater.steady hs
  obtain ⟨hsegment, hbeyond⟩ := segment_of_steady hs
  cases b with
  | none =>
    obtain ⟨hnil, hundecoded, -, hsame⟩ := peekByte_none h
    rw [hbeyond, undecoded_of_steady ht, Utf8.decode_eq_nil_iff] at hundecoded
    rw [← hsegment, hnil]
    exact ⟨rfl, hundecoded, hsame.lookahead, hsame.line, ht⟩
  | some b =>
    obtain ⟨bytes, hcons, hready, -, -, hsame⟩ := peekByte_some h
    rw [← hsegment, hcons]
    refine ⟨rfl, ?_, hsame.lookahead, hsame.line, ht⟩
    rw [← (segment_of_steady ht).1, hready]

theorem readChars_spec (n : Nat) (hs : s.Steady) (h : (s.readChars n).value = (text, t)) :
    ∃ bytes, ReadTo s t bytes ∧ text = (Utf8.decode s.bytes).take n ∧
      Utf8.decode bytes = (Utf8.decode s.bytes).drop n := by
  have ht : t.Steady := by
    have hlater := later_readChars n s
    rw [h] at hlater
    exact hlater.steady hs
  obtain ⟨hundecoded, htake, hsame⟩ := undecoded_readChars n h
  rw [undecoded_of_steady hs] at hundecoded htake
  rw [undecoded_of_steady ht] at hundecoded
  refine ⟨t.bytes, ⟨rfl, hsame.lookahead, hsame.line, ht⟩, htake hs, ?_⟩
  apply List.append_cancel_left
  calc text ++ Utf8.decode t.bytes
      = Utf8.decode s.bytes := hundecoded.symm
    _ = (Utf8.decode s.bytes).take n ++ (Utf8.decode s.bytes).drop n :=
        (List.take_append_drop n _).symm
    _ = text ++ (Utf8.decode s.bytes).drop n := by rw [← htake hs]

/-- The characters that are left: those in the queue, then those still to be decoded. -/
def pending (s : Source) : Text :=
  s.lookahead ++ Utf8.decode s.bytes

/-- The source is steady, it holds exactly this text, and its line will be `last` when the text
is consumed. -/
structure Holds (s : Source) (text : Text) (last : Nat) : Prop where
  steady : s.Steady
  pending : s.pending = text
  line : s.line + text.count '\n' = last

theorem Holds.peek (h : s.Holds text last) (n : Nat) :
    (s.peek n).value.1 = text[n]? ∧ (s.peek n).value.2.Holds text last := by
  rw [Source.peek]
  split
  · rename_i c hc
    refine ⟨?_, h⟩
    rw [← h.pending, Source.pending, List.getElem?_append_left
      (List.getElem?_eq_some_iff.mp hc).1]
    exact hc.symm
  · rename_i hnone
    obtain ⟨bytes, hread, htext, hrest⟩ :=
      readChars_spec (n + 1 - s.lookahead.length) h.steady rfl
    have hlength : s.lookahead.length ≤ n := List.getElem?_eq_none_iff.mp hnone
    have hpending := h.pending
    rw [Source.pending] at hpending
    simp only [Logged.value_bind, Logged.value_pure, hread.lookahead]
    refine ⟨?_, hread.steady, ?_, ?_⟩
    · rw [htext, ← hpending, List.getElem?_append_right hlength,
        List.getElem?_append_right hlength, List.getElem?_take, if_pos (by omega)]
    · have hbytes := hread.bytes
      simp only [Source.bytes] at hbytes
      simp only [Source.pending, Source.bytes]
      rw [hbytes, hrest, htext, List.append_assoc, List.take_append_drop]
      exact hpending
    · rw [← h.line]
      exact congrArg (· + text.count '\n') hread.line

theorem Holds.peek_zero (h : s.Holds text last) :
    (s.peek 0).value.1 = text.head? ∧ (s.peek 0).value.2.Holds text last := by
  rw [List.head?_eq_getElem?]
  exact h.peek 0

theorem Holds.advance {c : Char} (h : s.Holds (c :: text) last) (hc : s.lookahead.head? = some c) :
    s.advance.Holds text last := by
  obtain ⟨lookahead, hlookahead⟩ := List.head?_eq_some_iff.mp hc
  have hpending := h.pending
  have hline := h.line
  rw [Source.pending, hlookahead, List.cons_append, List.cons.injEq] at hpending
  rw [Source.advance, hlookahead]
  refine ⟨h.steady, hpending.2, ?_⟩
  rw [List.count_cons] at hline
  simp only [beq_iff_eq] at hline
  split at hline <;> rename_i hnewline <;> simp only [hnewline, if_true, if_false] <;> omega

theorem Holds.advance_peek {c : Char} (h : s.Holds (c :: text) last) :
    (s.peek 0).value.2.advance.Holds text last := by
  have hpeek := h.peek_zero
  refine hpeek.2.advance ?_
  rw [List.head?_eq_getElem?, lookahead_peek, hpeek.1]
  rfl

theorem Holds.advance_nil (h : s.Holds [] last) : s.advance.Holds [] last := by
  have hpending := h.pending
  rw [Source.pending, List.append_eq_nil_iff] at hpending
  rw [Source.advance, hpending.1]
  exact h

theorem Holds.next (h : s.Holds text last) :
    s.next.value.1 = text.head? ∧ s.next.value.2.Holds text.tail last := by
  refine ⟨h.peek_zero.1, ?_⟩
  cases text with
  | nil => exact h.peek_zero.2.advance_nil
  | cons c text => exact h.advance_peek

theorem Holds.atEnd (h : s.Holds text last) :
    s.atEnd.value.1 = text.isEmpty ∧ s.atEnd.value.2.Holds text last := by
  have hpending := h.pending
  rw [Source.atEnd]
  split
  · rename_i hnil
    obtain ⟨hhead, hread⟩ := peekByte_spec h.steady rfl
    rw [Source.pending, hnil, List.nil_append] at hpending
    simp only [Logged.value_bind, Logged.value_pure]
    refine ⟨?_, hread.steady, ?_, ?_⟩
    · rw [hhead, ← hpending, Bool.eq_iff_iff, Option.isNone_iff_eq_none, List.head?_eq_none_iff,
        List.isEmpty_iff, Utf8.decode_eq_nil_iff]
    · rw [Source.pending, hread.lookahead, hread.bytes, hnil, List.nil_append, hpending]
    · rw [hread.line, h.line]
  · rename_i hne
    refine ⟨?_, h⟩
    rw [← hpending, Source.pending]
    cases hlookahead : s.lookahead with
    | nil => exact absurd hlookahead hne
    | cons c lookahead => rfl

theorem Holds.takeFailure (h : s.Holds text last) : s.takeFailure.2.Holds text last :=
  ⟨h.steady, h.pending, h.line⟩

/-! ## Sources over a text -/

/-- The text without a leading byte order mark. -/
def withoutMark : Text → Text
  | [] => []
  | c :: text => if c = Utf8.byteOrderMark then text else c :: text

theorem withoutMark_eq_self (h : text.head? ≠ some Utf8.byteOrderMark) :
    withoutMark text = text := by
  cases text with
  | nil => rfl
  | cons c text => rw [withoutMark, if_neg fun hmark => h (congrArg some hmark)]

theorem withoutMark_append {rest : Text} (front : Text)
    (h : rest.head? ≠ some Utf8.byteOrderMark) :
    withoutMark (front ++ rest) = withoutMark front ++ rest := by
  cases front with
  | nil => exact withoutMark_eq_self h
  | cons c front =>
    rw [List.cons_append, withoutMark, withoutMark]
    split <;> rfl

theorem Holds.skipMark (h : s.Holds (Utf8.byteOrderMark :: text) last)
    (hmark : s.lookahead.head? = some Utf8.byteOrderMark) :
    ({ s with lookahead := s.lookahead.tail } : Source).Holds text last := by
  obtain ⟨lookahead, hlookahead⟩ := List.head?_eq_some_iff.mp hmark
  have hadvance := h.advance hmark
  rw [Source.advance, hlookahead] at hadvance
  rw [hlookahead]
  exact hadvance

theorem holds_ofStream {stream : Stream} (hsteady : stream.Steady)
    (hbytes : Utf8.decode stream.bytes = text) :
    (ofStream stream).value.Holds (withoutMark text) (1 + (withoutMark text).count '\n') := by
  have hfresh : ({ stream := some stream } : Source).Holds text (1 + text.count '\n') :=
    ⟨hsteady, hbytes, rfl⟩
  have hpeek := hfresh.peek_zero
  have hfound := lookahead_peek 0 ({ stream := some stream } : Source)
  rw [← List.head?_eq_getElem?, hpeek.1] at hfound
  simp only [ofStream, Logged.value_bind, Logged.value_pure, hpeek.1]
  cases text with
  | nil => exact hpeek.2
  | cons c text =>
    simp only [List.head?_cons, Option.some.injEq, withoutMark]
    split
    · rename_i hmark
      subst hmark
      have hskip := hpeek.2.skipMark hfound
      rwa [List.count_cons_of_ne (by decide)] at hskip
    · exact hpeek.2

theorem holds_ofText (text : Text) :
    (ofText text).value.Holds (withoutMark text) (1 + (withoutMark text).count '\n') := by
  refine holds_ofStream (Stream.steady_ofBytes _) ?_
  rw [Stream.bytes_ofBytes, Utf8.decode_encode]

end Source

end SemiLex
