import Mathlib

/-!
# Words of sixteen bits

The groups of an address and the code units of a text: numbers below the bound denote them.
-/

namespace Nexora.Std

/-- There is a word of sixteen bits. -/
instance wordsNonzero : NeZero 0x10000 := ⟨by decide⟩

end Nexora.Std
