import SemiLex.Token

/-!
# Token sources

Where tokens could come from besides a tokenizer.  Nothing takes any from there yet.
-/

namespace SemiLex

/-- What is asked for one token after the other.  A source that does not say otherwise has none, and
is as it was. -/
class TokenSource (σ : Type) where
  get (source : σ) : Option Token × σ := (none, source)

structure NoTokens where
  deriving DecidableEq, Repr, Inhabited

instance : TokenSource NoTokens where

end SemiLex
