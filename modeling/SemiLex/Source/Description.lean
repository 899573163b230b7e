import SemiLex.Source
import SemiLex.Text.Quoted

/-!
# Descriptions of sources

What a source shows of itself for debugging: whether it is open, the characters it has looked at,
its line and its pending failure.
-/

namespace SemiLex

def Fault.describe (f : Fault) : String :=
  "Some(Read \x7b source: Custom \x7b kind: " ++ f.kind.name ++ ", error: " ++
    Text.quoted f.message.toList ++ " \x7d \x7d)"

def Source.describe (s : Source) : String :=
  "CharSource \x7b open: " ++ toString s.isOpen ++
    ", lookahead: [" ++ ", ".intercalate (s.lookahead.map Text.quotedLetter) ++
    "], line_count: " ++ toString s.line ++
    ", error: " ++ s.failure.elim "None" Fault.describe ++ " \x7d"

end SemiLex
