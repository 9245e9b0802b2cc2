import Provision.Text.Utf8

/-!
# Texts of octets

Shells and the programs that they call know bytes, not characters. Their texts are texts of
octets: each character stands for the byte of its number.

> `toBytes_ofBytes`: no byte is lost in a text of octets.
-/

namespace Provision.Text.Octets

/-- The text of octets for bytes. -/
def ofBytes (bytes : List UInt8) : String := String.ofList (bytes.map Char.ofUInt8)

/-- The bytes of a text of octets. -/
def toBytes (s : String) : List UInt8 := s.toList.map Char.toUInt8

/-- The text of octets for a text. -/
def ofText (s : String) : String := ofBytes (Utf8.encode s)

/-- The text that octets spell, each malformed run read as U+FFFD. -/
def toText (s : String) : String := Utf8.lossy (toBytes s)

/-- Octets that are kept as a text are read back, whether or not they spell one. -/
theorem toBytes_ofBytes (bytes : List UInt8) : toBytes (ofBytes bytes) = bytes := by
  simp only [toBytes, ofBytes, String.toList_ofList, List.map_map]
  conv => rhs; rw [← List.map_id bytes]
  refine List.map_congr_left fun b _ => ?_
  show (Char.ofUInt8 b).toUInt8 = b
  exact UInt8.toNat_inj.1 (by simp [show Char.ofUInt8 b = ⟨b.toUInt32, _⟩ from rfl, Char.toUInt8])

end Provision.Text.Octets
