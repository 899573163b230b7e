import SemiLex.Fault

/-!
# Byte streams

A stream is the buffer of bytes already delivered and the outcomes of the reads still to come.
The buffer is filled by one read, and only when it is empty.  A read that delivers nothing ends
the input for that one look; a later look goes on with the next read.
-/

namespace SemiLex

inductive Read where
  | data (bytes : List UInt8)
  | failure (cause : Fault)
  deriving DecidableEq, Repr

namespace Read

/-- How many bytes one read delivers at most. -/
def capacity : Nat := 8192

/-- Weight of a read in the measure that bounds every scan. -/
def size : Read → Nat
  | data bytes => bytes.length + 1
  | failure _ => 1

def total : List Read → Nat
  | [] => 0
  | read :: reads => read.size + total reads

end Read

structure Stream where
  buffer : List UInt8
  reads : List Read
  deriving DecidableEq, Repr

namespace Stream

/-- Bounds the bytes and reads that are left. -/
def size (s : Stream) : Nat :=
  s.buffer.length + Read.total s.reads

def ofBytes (bytes : List UInt8) : Stream :=
  ⟨[], [.data bytes]⟩

/-- The stream with the next read in its buffer.  Data beyond the capacity waits for another
read; an interrupted read is tried again. -/
def ofReads : List Read → Except Fault Stream
  | [] => .ok ⟨[], []⟩
  | .data bytes :: reads =>
    if bytes.length ≤ Read.capacity then .ok ⟨bytes, reads⟩
    else .ok ⟨bytes.take Read.capacity, .data (bytes.drop Read.capacity) :: reads⟩
  | .failure cause :: reads =>
    if cause.kind = .interrupted then ofReads reads else .error cause

/-- Reads once if the buffer is empty. -/
def fill (s : Stream) : Except Fault Stream :=
  if s.buffer = [] then ofReads s.reads else .ok s

def tail (s : Stream) : Stream :=
  { s with buffer := s.buffer.tail }

theorem size_of_ofReads {reads : List Read} {s : Stream} (h : ofReads reads = .ok s) :
    s.size ≤ Read.total reads := by
  fun_induction ofReads reads with
  | case1 =>
    cases h
    simp [size, Read.total]
  | case2 bytes reads hle =>
    cases h
    simp only [size, Read.total, Read.size]
    omega
  | case3 bytes reads hle =>
    cases h
    simp only [size, Read.total, Read.size, List.length_take, List.length_drop]
    omega
  | case4 cause reads hkind ih =>
    have := ih h
    simp only [Read.total]
    omega
  | case5 => cases h

theorem size_fill_le {s t : Stream} (h : s.fill = .ok t) : t.size ≤ s.size := by
  rw [fill] at h
  split at h
  · have := size_of_ofReads h
    simp only [size] at this ⊢
    omega
  · cases h
    exact Nat.le_refl _

theorem size_tail_lt {s : Stream} (h : s.buffer ≠ []) : s.tail.size < s.size := by
  have := List.length_pos_iff.mpr h
  simp only [size, tail, List.length_tail]
  omega

theorem size_tail_le (s : Stream) : s.tail.size ≤ s.size := by
  simp only [size, tail, List.length_tail]
  omega

end Stream

end SemiLex
