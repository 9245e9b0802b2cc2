import Provision.Number.Shortest
import Provision.Text.Quoted

/-!
# YAML values

Values without a type of their own: arguments of recipes and defaults of parameters.

> `beq_eq`: the comparison of values decides their equality;
> `Value.text`: a value as it is put into a command.

`Value.text` mirrors `yaml_value_to_string`.
-/

namespace Provision.Yaml

open Provision.Number (Binary64)

/-- A value. The tags of the core schema are resolved; tags of one's own are kept. -/
inductive Value
  | null
  | bool (b : Bool)
  | integer (n : Int)
  | float (x : Binary64)
  | string (s : String)
  | sequence (items : List Value)
  | mapping (entries : List (Value × Value))
  | tagged (name : String) (value : Value)
deriving Repr, Inhabited

namespace Value

/-! ## Equality -/

mutual

/-- Whether two values are equal, entry by entry. -/
def beq : Value → Value → Bool
  | .null, .null => true
  | .bool a, .bool b => a == b
  | .integer a, .integer b => a == b
  | .float a, .float b => a == b
  | .string a, .string b => a == b
  | .sequence a, .sequence b => beqItems a b
  | .mapping a, .mapping b => beqEntries a b
  | .tagged n a, .tagged m b => n == m && beq a b
  | _, _ => false

/-- Whether two lists of values are equal. -/
def beqItems : List Value → List Value → Bool
  | [], [] => true
  | a :: as, b :: bs => beq a b && beqItems as bs
  | _, _ => false

/-- Whether two lists of entries are equal. -/
def beqEntries : List (Value × Value) → List (Value × Value) → Bool
  | [], [] => true
  | (k, v) :: as, (k', v') :: bs => beq k k' && beq v v' && beqEntries as bs
  | _, _ => false

end

mutual

/-- Values that compare equal are equal. Along the first value, with its items and entries. -/
theorem eq_of_beq : ∀ {a b : Value}, beq a b = true → a = b
  | .null, b, h => by cases b <;> simp_all [beq]
  | .bool _, b, h => by cases b <;> simp_all [beq]
  | .integer _, b, h => by cases b <;> simp_all [beq]
  | .float _, b, h => by cases b <;> simp_all [beq]
  | .string _, b, h => by cases b <;> simp_all [beq]
  | .sequence a, b, h => by
    cases b <;> simp [beq] at h
    exact congrArg _ (eq_of_beqItems h)
  | .mapping a, b, h => by
    cases b <;> simp [beq] at h
    exact congrArg _ (eq_of_beqEntries h)
  | .tagged _ a, b, h => by
    cases b <;> simp [beq] at h
    rw [h.1, eq_of_beq h.2]

theorem eq_of_beqItems : ∀ {a b : List Value}, beqItems a b = true → a = b
  | [], b, h => by cases b <;> simp_all [beqItems]
  | a :: as, b, h => by
    cases b <;> simp [beqItems] at h
    rw [eq_of_beq h.1, eq_of_beqItems h.2]

theorem eq_of_beqEntries : ∀ {a b : List (Value × Value)}, beqEntries a b = true → a = b
  | [], b, h => by cases b <;> simp_all [beqEntries]
  | (k, v) :: as, b, h => by
    cases b with
    | nil => simp [beqEntries] at h
    | cons e bs =>
      obtain ⟨k', v'⟩ := e
      simp [beqEntries] at h
      rw [eq_of_beq h.1.1, eq_of_beq h.1.2, eq_of_beqEntries h.2]

end

mutual

/-- A value compares equal to itself. -/
theorem beq_refl : ∀ a : Value, beq a a = true
  | .null => rfl
  | .bool _ => by simp [beq]
  | .integer _ => by simp [beq]
  | .float _ => by simp [beq]
  | .string _ => by simp [beq]
  | .sequence a => by simp [beq, beqItems_refl a]
  | .mapping a => by simp [beq, beqEntries_refl a]
  | .tagged _ a => by simp [beq, beq_refl a]

theorem beqItems_refl : ∀ a : List Value, beqItems a a = true
  | [] => rfl
  | a :: as => by simp [beqItems, beq_refl a, beqItems_refl as]

theorem beqEntries_refl : ∀ a : List (Value × Value), beqEntries a a = true
  | [] => rfl
  | (k, v) :: as => by simp [beqEntries, beq_refl k, beq_refl v, beqEntries_refl as]

end

/-- Comparing decides equality. -/
theorem beq_eq {a b : Value} : beq a b = true ↔ a = b :=
  ⟨eq_of_beq, fun h => h ▸ beq_refl a⟩

instance : DecidableEq Value := fun _ _ => decidable_of_iff _ beq_eq

/-! ## Sameness of keys -/

mutual

/-- Whether two values are the same key: the order of a mapping does not matter, and
neither does the sign of zero. -/
def same : Value → Value → Bool
  | .null, .null => true
  | .bool a, .bool b => a == b
  | .integer a, .integer b => a == b
  | .float a, .float b => a.same b
  | .string a, .string b => a == b
  | .sequence a, .sequence b => sameItems a b
  | .mapping a, .mapping b => a.length == b.length && sameEntries a b
  | .tagged n a, .tagged m b => n == m && same a b
  | _, _ => false

/-- Whether two lists hold the same values in order. -/
def sameItems : List Value → List Value → Bool
  | [], [] => true
  | a :: as, b :: bs => same a b && sameItems as bs
  | _, _ => false

/-- Whether every entry of a list is in another one. -/
def sameEntries : List (Value × Value) → List (Value × Value) → Bool
  | [], _ => true
  | (k, v) :: rest, b => (b.any fun e => same k e.1 && same v e.2) && sameEntries rest b

end

/-- Whether no key occurs twice among the entries. -/
def distinctKeys : List (Value × Value) → Bool
  | [] => true
  | (k, _) :: rest => !(rest.any fun e => same k e.1) && distinctKeys rest

/-! ## Text -/

/-- Numbers are positional from five zeros after the point up to sixteen places before it. -/
def numberLayout : Number.Layout :=
  { positional := fun k => -5 < k && k ≤ 16, plusSign := false
    nan := ".nan", infinity := ".inf" }

/-- A truth value. -/
def boolText (b : Bool) : String := if b then "true" else "false"

mutual

/-- A value with the name of its kind. -/
def described : Value → String
  | .null => "Null"
  | .bool b => s!"Bool({boolText b})"
  | .integer n => s!"Number({n})"
  | .float x => s!"Number({numberLayout.text x})"
  | .string s => s!"String({Text.quoted s})"
  | .sequence items => "Sequence [" ++ ", ".intercalate (describedItems items) ++ "]"
  | .mapping entries => "Mapping \x7b" ++ ", ".intercalate (describedEntries entries) ++ "\x7d"
  | .tagged name v => "TaggedValue \x7b tag: !" ++ name ++ ", value: " ++ described v ++ " \x7d"

/-- The items of a sequence. -/
def describedItems : List Value → List String
  | [] => []
  | v :: rest => described v :: describedItems rest

/-- The entries of a mapping. Keys that are truth values, numbers or strings stand alone. -/
def describedEntries : List (Value × Value) → List String
  | [] => []
  | (k, v) :: rest =>
    let key := match k with
      | .bool b => boolText b
      | .integer n => toString n
      | .float x => numberLayout.text x
      | .string s => Text.quoted s
      | k => described k
    (key ++ ": " ++ described v) :: describedEntries rest

end

/-- A value as it is put into a command: a string as it is, null as nothing, and collections
with the names of their kinds. -/
def text : Value → String
  | .null => ""
  | .bool b => boolText b
  | .integer n => toString n
  | .float x => numberLayout.text x
  | .string s => s
  | v => described v

end Value

end Provision.Yaml
