namespace Schemata

/-! The length of texts in units of 16 bits, of which characters beyond the first 65536
take two. -/

namespace Text

def charUnits (c : Char) : Nat := if c.toNat < 65536 then 1 else 2

def unitCount (text : String) : Nat :=
  text.toList.foldr (fun c count => charUnits c + count) 0

end Text

end Schemata
