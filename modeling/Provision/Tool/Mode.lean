import Provision.Tool

/-!
# Permissions

How permissions are written: as octal digits, as letters, and as changes.

> `Mode.letters_length`: permissions have nine letters.
-/

namespace Provision.Tool

namespace Mode

/-- The three letters of a group of permissions, a special bit being shown in the last one. -/
def triple (bits : Nat) (special : Bool) (letter : Char) : String :=
  let flag (bit : Nat) (c : Char) : Char := if bits &&& bit != 0 then c else '-'
  let last := if special then (if bits &&& 1 != 0 then letter else letter.toUpper)
    else flag 1 'x'
  String.ofList [flag 4 'r', flag 2 'w', last]

theorem triple_length (bits : Nat) (special : Bool) (letter : Char) :
    (triple bits special letter).length = 3 := by
  simp [triple]

/-- Permissions as letters. -/
def letters (mode : Nat) : String :=
  triple (mode / 64 % 8) (mode &&& 0o4000 != 0) 's' ++
    triple (mode / 8 % 8) (mode &&& 0o2000 != 0) 's' ++
    triple (mode % 8) (mode &&& 0o1000 != 0) 't'

/-- A mode is shown as nine letters. -/
theorem letters_length (mode : Nat) : (letters mode).length = 9 := by
  simp [letters, triple_length]

/-- Permissions as octal digits. -/
def octal (mode : Nat) : String := String.ofList (Nat.toDigits 8 mode)

/-- The permissions that octal digits spell. -/
def ofOctal? (s : String) : Option Nat :=
  if !s.isEmpty && s.toList.all (fun c => '0' ≤ c && c ≤ '7') then
    let n := s.toList.foldl (fun n c => 8 * n + (c.toNat - 48)) 0
    if n ≤ 0o7777 then some n else none
  else none

/-- One change: for whom, how, and what. -/
structure Change where
  /-- Those who are concerned; nobody means all, less what is masked. -/
  who : List Char
  sign : Char
  what : List Char

/-- The changes that a text spells. -/
def changes? (s : String) : Option (List Change) :=
  (s.splitOn ",").foldlM (fun done part => do
    let cs := part.toList
    let who := cs.takeWhile fun c => ['u', 'g', 'o', 'a'].contains c
    let more ← go (cs.length + 1) who (cs.drop who.length)
    if more.isEmpty then none else return done ++ more) []
where
  /-- Reads one change after another for the same people. -/
  go : Nat → List Char → List Char → Option (List Change)
  | 0, _, _ => none
  | _, _, [] => some []
  | fuel + 1, who, sign :: rest =>
    if !("+-=".contains sign) then none
    else
      let what := rest.takeWhile fun c => ['r', 'w', 'x', 'X', 's', 't', 'u', 'g', 'o'].contains c
      (go fuel who (rest.drop what.length)).map (⟨who, sign, what⟩ :: ·)

/-- The bits that one letter stands for, for everybody. -/
def bitsOf (mode : Nat) (isDirectory : Bool) (c : Char) : Nat :=
  let spread (n : Nat) : Nat := n * 0o111
  match c with
  | 'r' => 0o444
  | 'w' => 0o222
  | 'x' => 0o111
  | 'X' => if isDirectory || mode &&& 0o111 != 0 then 0o111 else 0
  | 's' => 0o6000
  | 't' => 0o1000
  | 'u' => spread (mode / 64 % 8)
  | 'g' => spread (mode / 8 % 8)
  | _ => spread (mode % 8)

/-- The permissions after a change. -/
def Change.apply (mask : Nat) (isDirectory : Bool) (mode : Nat) (c : Change) : Nat :=
  let range (w : Char) : Nat := match w with
    | 'u' => 0o4700
    | 'g' => 0o2070
    | 'o' => 0o1007
    | _ => 0o7777
  let concerned := if c.who.isEmpty then 0o7777 else c.who.foldl (fun n w => n ||| range w) 0
  let bits := (c.what.foldl (fun n l => n ||| bitsOf mode isDirectory l) 0) &&& concerned
  let bits := if c.who.isEmpty then bits - (bits &&& mask) else bits
  match c.sign with
  | '+' => mode ||| bits
  | '-' => mode - (mode &&& bits)
  | _ => (mode - (mode &&& concerned)) ||| bits

/-- What a text says about permissions: a function of those before. -/
def reader? (mask : Nat) (s : String) : Option (Bool → Nat → Nat) :=
  match ofOctal? s with
  | some n => some fun isDirectory old =>
      if isDirectory && s.length ≤ 4 then n ||| (old &&& 0o6000) else n
  | none => (changes? s).map fun cs => fun isDirectory old =>
      cs.foldl (Change.apply mask isDirectory) old

end Mode

end Provision.Tool
