import Provision.Tool

/-!
# Digests and encodings

Digests of files, by which they can be checked later, and ways to write octets as characters.
-/

namespace Provision.Digest

/-! ## Blocks -/

/-- The octets of a number, the most significant one first. -/
def octets (count n : Nat) : List Nat :=
  (List.range count).map fun i => n / Nat.pow 256 (count - 1 - i) % 256

/-- A message with a mark and its length in bits at its end, as a number of whole blocks. -/
def padded (bigEnd : Bool) (message : List Nat) : List Nat :=
  let zeros := (119 - message.length % 64) % 64
  let size := octets 8 (8 * message.length)
  message ++ 0x80 :: List.replicate zeros 0 ++ if bigEnd then size else size.reverse

/-- Lists of a number of elements each. -/
def chunks {α : Type} (size : Nat) : Nat → List α → List (List α)
  | 0, _ => []
  | fuel + 1, l => if l.isEmpty then [] else l.take size :: chunks size fuel (l.drop size)

/-- The words of 32 bits that octets spell. -/
def words (bigEnd : Bool) (block : List Nat) : Array UInt32 :=
  ((chunks 4 (block.length + 1) block).map fun c =>
    UInt32.ofNat ((if bigEnd then c else c.reverse).foldl (fun n b => 256 * n + b) 0)).toArray

/-- A word with its bits moved round to the left. -/
def rotateLeft (x : UInt32) (n : Nat) : UInt32 :=
  (x <<< UInt32.ofNat n) ||| (x >>> UInt32.ofNat (32 - n))

/-- A word with its bits moved round to the right. -/
def rotateRight (x : UInt32) (n : Nat) : UInt32 := rotateLeft x (32 - n)

/-- The digits of words in base 16. -/
def hex (bigEnd : Bool) (state : List UInt32) : String :=
  let digit (n : Nat) : Char := (Nat.toDigits 16 n).headD '0'
  String.ofList (state.flatMap fun w =>
    let bytes := octets 4 w.toNat
    (if bigEnd then bytes else bytes.reverse).flatMap fun b => [digit (b / 16), digit (b % 16)])

/-! ## Roots and sines -/

/-- The first primes. -/
def primes (count : Nat) : List Nat :=
  ((List.range' 2 400).filter fun n =>
    (List.range' 2 (n - 2)).all fun d => n < d * d || n % d != 0).take count

/-- The greatest natural number whose power is not above another number, by halving. -/
def root (exponent n : Nat) : Nat → Nat → Nat → Nat
  | 0, low, _ => low
  | fuel + 1, low, high =>
    if high ≤ low + 1 then low
    else
      let middle := (low + high) / 2
      if Nat.pow middle exponent ≤ n then root exponent n fuel middle high
      else root exponent n fuel low middle

/-- The first 32 bits after the point of the square root or the cube root of a number. -/
def rootBits (exponent n : Nat) : UInt32 :=
  UInt32.ofNat (root exponent (n * Nat.pow 2 (32 * exponent)) 50 0 (Nat.pow 2 40))

/-- The sine of a natural number, times `2 ^ 80`, by its power series. -/
def sine (n : Nat) : Int :=
  let unit : Int := Nat.pow 2 80
  let x : Int := n * unit
  let rec go : Nat → Nat → Int → Int → Int
    | 0, _, _, sum => sum
    | fuel + 1, k, term, sum =>
      let next := -(term * x / unit * x / unit) / ((2 * k) * (2 * k + 1) : Nat)
      go fuel (k + 1) next (sum + next)
  go 200 1 x x

/-! ## The digests -/

/-- The constants of the rounds of the digest of 128 bits. -/
def sineTable : Array UInt32 :=
  ((List.range' 1 64).map fun i =>
    UInt32.ofNat ((sine i).natAbs / Nat.pow 2 48)).toArray

/-- How far words are moved in the rounds of the digest of 128 bits. -/
def moves (i : Nat) : Nat :=
  (([[7, 12, 17, 22], [5, 9, 14, 20], [4, 11, 16, 23], [6, 10, 15, 21]].getD (i / 16) []).getD
    (i % 4) 0)

/-- The digest of 128 bits. -/
def md5 (message : List Nat) : String :=
  let table := sineTable
  let step (w : Array UInt32) (s : UInt32 × UInt32 × UInt32 × UInt32) (i : Nat) :
      UInt32 × UInt32 × UInt32 × UInt32 :=
    let (a, b, c, d) := s
    let (f, g) :=
      if i < 16 then ((b &&& c) ||| (~~~b &&& d), i)
      else if i < 32 then ((d &&& b) ||| (~~~d &&& c), (5 * i + 1) % 16)
      else if i < 48 then (b ^^^ c ^^^ d, (3 * i + 5) % 16)
      else (c ^^^ (b ||| ~~~d), 7 * i % 16)
    (d, b + rotateLeft (a + f + table.getD i 0 + w.getD g 0) (moves i), b, c)
  let message := padded false message
  let (a, b, c, d) := (chunks 64 (message.length + 1) message).foldl (fun s block =>
    let w := words false block
    let (a, b, c, d) := s
    let (e, f, g, h) := (List.range 64).foldl (step w) s
    (a + e, b + f, c + g, d + h)) (0x67452301, 0xefcdab89, 0x98badcfe, 0x10325476)
  hex false [a, b, c, d]

/-- The words of a block with those that are made from them. -/
def schedule (next : Array UInt32 → Nat → UInt32) (count : Nat) (w : Array UInt32) :
    Array UInt32 :=
  (List.range' 16 (count - 16)).foldl (fun w i => w.push (next w i)) w

/-- The digest of 160 bits. -/
def sha1 (message : List Nat) : String :=
  let step (w : Array UInt32) (s : UInt32 × UInt32 × UInt32 × UInt32 × UInt32) (i : Nat) :
      UInt32 × UInt32 × UInt32 × UInt32 × UInt32 :=
    let (a, b, c, d, e) := s
    let (f, k) : UInt32 × UInt32 :=
      if i < 20 then ((b &&& c) ||| (~~~b &&& d), 0x5a827999)
      else if i < 40 then (b ^^^ c ^^^ d, 0x6ed9eba1)
      else if i < 60 then ((b &&& c) ||| (b &&& d) ||| (c &&& d), 0x8f1bbcdc)
      else (b ^^^ c ^^^ d, 0xca62c1d6)
    (rotateLeft a 5 + f + e + k + w.getD i 0, a, rotateLeft b 30, c, d)
  let message := padded true message
  let (a, b, c, d, e) := (chunks 64 (message.length + 1) message).foldl (fun s block =>
    let w := schedule (fun w i => rotateLeft
      (w.getD (i - 3) 0 ^^^ w.getD (i - 8) 0 ^^^ w.getD (i - 14) 0 ^^^ w.getD (i - 16) 0) 1) 80
      (words true block)
    let (a, b, c, d, e) := s
    let (f, g, h, i, j) := (List.range 80).foldl (step w) s
    (a + f, b + g, c + h, d + i, e + j))
    (0x67452301, 0xefcdab89, 0x98badcfe, 0x10325476, 0xc3d2e1f0)
  hex true [a, b, c, d, e]

/-- The digest of 256 bits. -/
def sha256 (message : List Nat) : String :=
  let table := ((primes 64).map (rootBits 3)).toArray
  let start := (primes 8).map (rootBits 2)
  let step (w : Array UInt32) (s : List UInt32) (i : Nat) : List UInt32 :=
    match s with
    | [a, b, c, d, e, f, g, h] =>
      let s1 := rotateRight e 6 ^^^ rotateRight e 11 ^^^ rotateRight e 25
      let t1 := h + s1 + ((e &&& f) ^^^ (~~~e &&& g)) + table.getD i 0 + w.getD i 0
      let s0 := rotateRight a 2 ^^^ rotateRight a 13 ^^^ rotateRight a 22
      let t2 := s0 + ((a &&& b) ^^^ (a &&& c) ^^^ (b &&& c))
      [t1 + t2, a, b, c, d + t1, e, f, g]
    | s => s
  let message := padded true message
  let final := (chunks 64 (message.length + 1) message).foldl (fun s block =>
    let w := schedule (fun w i =>
      let x := w.getD (i - 15) 0
      let y := w.getD (i - 2) 0
      let s0 := rotateRight x 7 ^^^ rotateRight x 18 ^^^ (x >>> 3)
      let s1 := rotateRight y 17 ^^^ rotateRight y 19 ^^^ (y >>> 10)
      w.getD (i - 16) 0 + s0 + w.getD (i - 7) 0 + s1) 64 (words true block)
    List.zipWith (· + ·) s ((List.range 64).foldl (step w) s)) start
  hex true final

/-! ## Encodings -/

/-- The characters of the encoding in base 64. -/
def alphabet : List Char :=
  "ABCDEFGHIJKLMNOPQRSTUVWXYZabcdefghijklmnopqrstuvwxyz0123456789+/".toList

/-- Octets in base 64. -/
def base64 : List Nat → List Char
  | [] => []
  | [a] =>
    let c (n : Nat) : Char := alphabet.getD (n % 64) '='
    [c (a / 4), c (a * 16), '=', '=']
  | [a, b] =>
    let c (n : Nat) : Char := alphabet.getD (n % 64) '='
    [c (a / 4), c (a * 16 + b / 16), c (b * 4), '=']
  | a :: b :: d :: rest =>
    let c (n : Nat) : Char := alphabet.getD (n % 64) '='
    c (a / 4) :: c (a * 16 + b / 16) :: c (b * 4 + d / 64) :: c d :: base64 rest

/-- The octets that characters spell in base 64. -/
def ofBase64 : List Char → Option (List Nat)
  | [] => some []
  | a :: b :: c :: d :: rest => do
    let value (c : Char) : Option Nat := alphabet.findIdx? (· == c)
    let x ← value a
    let y ← value b
    if c == '=' && d == '=' && rest.isEmpty then return [x * 4 + y / 16]
    let z ← value c
    if d == '=' && rest.isEmpty then return [x * 4 + y / 16, (y * 16 + z / 4) % 256]
    let w ← value d
    let more ← ofBase64 rest
    return (x * 4 + y / 16) :: (y * 16 + z / 4) % 256 :: (z * 64 + w) % 256 :: more
  | _ => none

end Provision.Digest

namespace Provision.Tool

/-- Checks files by the digests in lists. -/
def checkDigests (digest : List Nat → String) (quiet silent : Bool) (paths : List String) :
    Tool Nat := do
  forEach (if paths.isEmpty then ["-"] else paths) fun path => do
    match ← input path with
    | .error e =>
      complain s!"{path}: {e.text}"
      return 1
    | .ok text =>
      let mut failed := 0
      let mut unread := 0
      let mut read := 0
      for line in linesOf text do
        let cs := line.toList
        let sum := String.ofList (cs.takeWhile (· != ' '))
        let name := String.ofList (cs.drop (sum.length + 2))
        if !sum.isEmpty && !name.isEmpty then
          read := read + 1
          match ← input name with
          | .ok t =>
            let wanted := String.ofList (sum.toList.map Char.toLower)
            let same := digest (t.toList.map Char.toNat) == wanted
            if !same then failed := failed + 1
            if !silent && !(quiet && same) then
              putLine (name ++ if same then ": OK" else ": FAILED")
          | .error e =>
            complain s!"{name}: {e.text}"
            unread := unread + 1
            if !silent then putLine s!"{name}: FAILED open or read"
      if read = 0 then
        complain s!"{path}: no properly formatted checksum lines found"
        return 1
      let files (n : Nat) : String := if n = 1 then "file" else "files"
      if 0 < unread then
        complain s!"WARNING: {unread} listed {files unread} could not be read"
      if 0 < failed && !silent then
        let sums := if failed = 1 then "checksum" else "checksums"
        complain s!"WARNING: {failed} computed {sums} did NOT match"
      return if failed + unread = 0 then 0 else 1

/-- Prints digests of files, or checks them. -/
def digestTool (digest : List Nat → String) (args : List String) : Tool Nat := do
  let (given, paths) ← options
    [⟨'b', "binary", .never⟩, ⟨'c', "check", .never⟩, ⟨'t', "text", .never⟩,
      ⟨'q', "quiet", .never⟩, ⟨'s', "status", .never⟩, ⟨'w', "warn", .never⟩,
      ⟨'i', "ignore-missing", .never⟩, ⟨'z', "zero", .never⟩] args
  if given.has 'c' then checkDigests digest (given.has 'q') (given.has 's') paths
  else forEach (if paths.isEmpty then ["-"] else paths) fun path => do
    match ← input path with
    | .ok text =>
      let mark := if given.has 'b' then " *" else "  "
      putLine (digest (text.toList.map Char.toNat) ++ mark ++ path)
      return 0
    | .error e =>
      complain s!"{path}: {e.text}"
      return 1

/-- Writes octets in base 64, or reads them. -/
def base64 (args : List String) : Tool Nat := do
  let (given, paths) ← options
    [⟨'d', "decode", .never⟩, ⟨'i', "ignore-garbage", .never⟩, ⟨'w', "wrap", .always⟩] args
  let path := paths.headD "-"
  match ← input path with
  | .error .isDirectory => fail 1 s!"read error: {OsError.isDirectory.text}"
  | .error e => fail 1 s!"{path}: {e.text}"
  | .ok text =>
    if given.has 'd' then
      let cs := text.toList.filter fun c => c != '\n' &&
        (!given.has 'i' || c == '=' || Digest.alphabet.contains c)
      match Digest.ofBase64 cs with
      | some bytes =>
        put (String.ofList (bytes.map Char.ofNat))
        return 0
      | none => fail 1 "invalid input"
    else
      let cs := Digest.base64 (text.toList.map Char.toNat)
      let width := ((given.value? 'w').bind nat?).getD 76
      if width = 0 then put (String.ofList cs)
      else put (ofLines ((Digest.chunks width (cs.length + 1) cs).map String.ofList))
      return 0

/-- Digits of a number in a base, filled with zeros. -/
def fixedDigits (base width n : Nat) : String :=
  let ds := Nat.toDigits base n
  String.ofList (List.replicate (width - ds.length) '0' ++ ds)

/-- Prints octets as numbers or as characters. -/
def od (args : List String) : Tool Nat := do
  let (given, paths) ← options
    [⟨'A', "address-radix", .always⟩, ⟨'t', "format", .always⟩, ⟨'N', "read-bytes", .always⟩,
      ⟨'j', "skip-bytes", .always⟩, ⟨'v', "output-duplicates", .never⟩, ⟨'c', "", .never⟩,
      ⟨'b', "", .never⟩, ⟨'x', "", .never⟩, ⟨'a', "", .never⟩, ⟨'w', "width", .perhaps⟩] args
  let mut text := ""
  for path in if paths.isEmpty then ["-"] else paths do
    match ← input path with
    | .ok t => text := text ++ t
    | .error e => fail 1 s!"{path}: {e.text}"
  let bytes := (text.toList.map Char.toNat).drop (((given.value? 'j').bind nat?).getD 0)
  let bytes := ((given.value? 'N').bind nat?).elim bytes bytes.take
  let kind := match given.value? 't' with
    | some t => t
    | none => if given.has 'c' then "c" else if given.has 'b' then "o1"
      else if given.has 'x' then "x2" else "o2"
  let width := ((given.value? 'w').bind nat?).getD 16
  let shown (b : Nat) : String :=
    match kind.toList.headD 'o' with
    | 'c' =>
      let special := [(0, "\\0"), (7, "\\a"), (8, "\\b"), (9, "\\t"), (10, "\\n"), (11, "\\v"),
        (12, "\\f"), (13, "\\r")]
      let s := match special.find? fun e => e.1 == b with
        | some e => e.2
        | none => if 32 ≤ b && b < 127 then String.singleton (Char.ofNat b) else fixedDigits 8 3 b
      padLeft 4 s
    | 'x' => " " ++ fixedDigits 16 2 b
    | 'd' | 'u' => padLeft 4 (toString b)
    | _ => " " ++ fixedDigits 8 3 b
  let pair (c : List Nat) : String :=
    let n := c.getD 0 0 + 256 * c.getD 1 0
    if kind.startsWith "x" then " " ++ fixedDigits 16 4 n
    else if kind.startsWith "d" || kind.startsWith "u" then padLeft 7 (toString n)
    else " " ++ fixedDigits 8 6 n
  let row (c : List Nat) : String :=
    if kind.endsWith "2" then String.join ((Digest.chunks 2 (c.length + 1) c).map pair)
    else String.join (c.map shown)
  let address (n : Nat) : String := match given.value? 'A' with
    | some "n" => ""
    | some "x" => fixedDigits 16 6 n
    | some "d" => fixedDigits 10 7 n
    | _ => fixedDigits 8 7 n
  let rows := Digest.chunks width (bytes.length + 1) bytes
  put (ofLines (rows.zipIdx.map fun (c, i) => address (i * width) ++ row c))
  if given.value? 'A' != some "n" then putLine (address bytes.length)
  return 0

end Provision.Tool
