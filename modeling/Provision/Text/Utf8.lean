/-!
# UTF-8

Reading bytes as text, strictly (files, answers) and with replacement (the output
of commands). Bytes are read by a machine with one state between characters and one
for each character that is still incomplete; a byte that cannot go on closes the
incomplete character as malformed and is then read afresh, so each maximal ill-formed
run gives exactly one replacement character.
-/

namespace Provision.Text.Utf8

/-- A character whose first bytes have been read: its value so far, how many bytes are
missing, and the range of the next one. -/
structure Incomplete where
  value : Nat
  missing : Nat
  low : Nat := 0x80
  high : Nat := 0xBF

/-- What the first byte of a character says. -/
inductive Lead
  | whole (c : Char)
  | more (i : Incomplete)
  | malformed

/-- Classifies the first byte of a character. -/
def lead (b : Nat) : Lead :=
  if b < 0x80 then .whole (Char.ofNat b)
  else if b < 0xC2 then .malformed
  else if b < 0xE0 then .more ⟨b - 0xC0, 1, 0x80, 0xBF⟩
  else if b = 0xE0 then .more ⟨0, 2, 0xA0, 0xBF⟩
  else if b = 0xED then .more ⟨0xD, 2, 0x80, 0x9F⟩
  else if b < 0xF0 then .more ⟨b - 0xE0, 2, 0x80, 0xBF⟩
  else if b = 0xF0 then .more ⟨0, 3, 0x90, 0xBF⟩
  else if b < 0xF4 then .more ⟨b - 0xF0, 3, 0x80, 0xBF⟩
  else if b = 0xF4 then .more ⟨4, 3, 0x80, 0x8F⟩
  else .malformed

/-- Reads bytes, `none` standing for a malformed run. -/
def decodeFrom : Option Incomplete → List UInt8 → List (Option Char)
  | none, [] => []
  | some _, [] => [none]
  | state, b :: rest =>
    let fresh (_ : Unit) : List (Option Char) :=
      match lead b.toNat with
      | .whole c => some c :: decodeFrom none rest
      | .more i => decodeFrom (some i) rest
      | .malformed => none :: decodeFrom none rest
    match state with
    | none => fresh ()
    | some i =>
      if i.low ≤ b.toNat ∧ b.toNat ≤ i.high then
        let value := i.value * 64 + (b.toNat - 0x80)
        if i.missing = 1 then some (Char.ofNat value) :: decodeFrom none rest
        else decodeFrom (some ⟨value, i.missing - 1, 0x80, 0xBF⟩) rest
      else none :: fresh ()

/-- The characters of a byte sequence, `none` for each malformed run. -/
def decode (bytes : List UInt8) : List (Option Char) := decodeFrom none bytes

/-- The text of a byte sequence, each malformed run read as U+FFFD. -/
def lossy (bytes : List UInt8) : String :=
  String.ofList ((decode bytes).map (·.getD '\uFFFD'))

/-- The text of a byte sequence that is well formed throughout. -/
def strict? (bytes : List UInt8) : Option String :=
  ((decode bytes).mapM id).map String.ofList

/-- The bytes of a text. -/
def encode (s : String) : List UInt8 := s.toUTF8.toList

end Provision.Text.Utf8
