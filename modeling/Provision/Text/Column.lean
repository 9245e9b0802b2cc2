/-!
# Columns

Texts side by side: each but the last is filled up with spaces to the width of its column.

> `length_padded`: a text that fits its column takes exactly the width of it.
-/

namespace Provision.Text

/-- A text filled up with spaces to a width. -/
def padded (width : Nat) (s : String) : String :=
  s ++ String.ofList (List.replicate (width - s.length) ' ')

/-- A text that fits is padded to the width of its column. -/
theorem length_padded {width : Nat} {s : String} (h : s.length ≤ width) :
    (padded width s).length = width := by
  simp [padded, String.length_append]
  omega

/-- The greatest number of bytes of some texts, and at least a minimum. -/
def widest (least : Nat) (texts : List String) : Nat :=
  texts.foldl (fun w s => max w s.utf8ByteSize) least

/-- A text with the line break after it. -/
def line (s : String) : String := s ++ "\n"

/-- Lines one below the other. -/
def lines (l : List String) : String := String.join (l.map line)

end Provision.Text
