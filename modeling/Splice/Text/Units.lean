/-!
# UTF-16 code units

The code units of a character and of a text: one unit below `U+10000`, a surrogate pair from there
on. Hash codes of texts are taken over these units.
-/

namespace Splice.Text

/-- The UTF-16 code units of a character: itself, or a leading and a trailing surrogate. -/
def unitsOfChar (c : Char) : List Nat :=
  if c.toNat < 0x10000 then [c.toNat]
  else [0xD800 + (c.toNat - 0x10000) / 0x400, 0xDC00 + (c.toNat - 0x10000) % 0x400]

/-- The UTF-16 code units of a text, in order. -/
def units (s : String) : List Nat :=
  s.toList.flatMap unitsOfChar

/-- Every unit fits sixteen bits. -/
theorem lt_of_mem_unitsOfChar {c : Char} {u : Nat} (h : u ∈ unitsOfChar c) : u < 0x10000 := by
  have hc : c.toNat < 0x110000 := by
    have := c.valid
    simp only [UInt32.isValidChar, Nat.isValidChar] at this
    change c.val.toNat < _
    omega
  simp only [unitsOfChar] at h
  split at h <;> simp at h <;> omega

end Splice.Text
