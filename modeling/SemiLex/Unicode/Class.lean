import SemiLex.Unicode.Alphanumeric
import SemiLex.Unicode.Unprintable

/-!
# Character classes

The three classes that scanning and quoting depend on.  ASCII is decided by comparison, the
rest by the tables.
-/

namespace SemiLex.Unicode

/-- The White_Space property: blanks of every width, line and page breaks. -/
def isBlank (c : Char) : Bool :=
  let n := c.toNat
  (0x09 ≤ n && n ≤ 0x0d) || n == 0x20 || n == 0x85 || n == 0xa0 || n == 0x1680 ||
    (0x2000 ≤ n && n ≤ 0x200a) || n == 0x2028 || n == 0x2029 || n == 0x202f || n == 0x205f ||
    n == 0x3000

/-- Letters and digits of every script: Alphabetic, or a number of category Nd, Nl or No. -/
def isAlphanumeric (c : Char) : Bool :=
  if c.toNat < 0x80 then c.isAlphanum else alphanumericRanges.contains c.toNat

/-- Whether a quoted text shows the character itself: not a control, format, separator,
private, unassigned, ignorable or combining character. -/
def isPrintable (c : Char) : Bool :=
  if c.toNat < 0x80 then 0x20 ≤ c.toNat && c.toNat != 0x7f
  else !unprintableRanges.contains c.toNat

end SemiLex.Unicode
