import SemiLex.Fault
import SemiLex.Text.Utf8

/-!
# Output with limited room

A destination takes bytes until its room is used up.  What does not fit any more is lost, and
the writer is told so.
-/

namespace SemiLex

structure Output where
  bytes : List UInt8
  fault : Option Fault
  deriving DecidableEq, Repr

namespace Output

def full : Fault := ⟨.writeZero, "failed to write whole buffer"⟩

/-- Writes a text to a destination with room for `room` bytes. -/
def write (room : Nat) (text : Text) : Output :=
  let bytes := Utf8.encode text
  if bytes.length ≤ room then ⟨bytes, none⟩ else ⟨bytes.take room, some full⟩

end Output

end SemiLex
