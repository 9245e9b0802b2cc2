import Provision.Outcome
import Provision.Json
import Provision.Json.Token

/-!
# Outcomes as JSON

An outcome is an object of its kind and detail. It is read back from such an object, with
members of other names left out, or from an array of the two.

Mirrors the derived serialiser and deserialiser of `Outcome`.
-/

namespace Provision

open Json (Token)

/-- An outcome as JSON. -/
def Outcome.toJson (o : Outcome) : Json :=
  .object [("status", .string o.status.tag), ("detail", .string o.detail)]

/-- A report as JSON. -/
def StatusReport.toJson (r : StatusReport) : Json :=
  .object [("installed", .strings r.installed), ("missing", .strings r.missing),
    ("errors", .strings r.errors),
    ("outcomes", .object (r.outcomes.entries.map fun e => (e.1, e.2.toJson)))]

namespace Outcome

/-- Reads a kind: its name, or an object with its name as the only key and null below it. -/
def readStatus? : List Token → Option (Status × List Token)
  | .string (some s) :: rest => (Status.ofTag? s).map (·, rest)
  | .mark '\x7b' :: .string (some s) :: .mark ':' :: .word "null" :: .mark '\x7d' :: rest =>
    (Status.ofTag? s).map (·, rest)
  | _ => none

/-- What has been read of an outcome. -/
structure Draft where
  status : Option Status := none
  detail : Option String := none

/-- Reads the value of a member. No member of an outcome may be there twice. -/
def Draft.member? (d : Draft) (key : String) (ts : List Token) : Option (Draft × List Token) :=
  if key = "status" then
    if d.status.isSome then none
    else (readStatus? ts).map fun (s, rest) => ({ d with status := some s }, rest)
  else if key = "detail" then
    match d.detail, ts with
    | none, .string (some s) :: rest => some ({ d with detail := some s }, rest)
    | _, _ => none
  else (Token.skip? ts).map (d, ·)

/-- Reads the members of an object to its end, at most `fuel` of them. -/
def readMembers? : Nat → Draft → List Token → Option Outcome
  | fuel + 1, d, .string (some key) :: .mark ':' :: ts => do
    let (d, rest) ← d.member? key ts
    match rest with
    | [.mark '\x7d'] => return ⟨← d.status, ← d.detail⟩
    | .mark ',' :: rest => readMembers? fuel d rest
    | _ => none
  | _, _, _ => none

/-- Reads an outcome. -/
def readTokens? : List Token → Option Outcome
  | .mark '[' :: ts => do
    let (s, rest) ← readStatus? ts
    match rest with
    | [.mark ',', .string (some detail), .mark ']'] => return ⟨s, detail⟩
    | _ => none
  | .mark '\x7b' :: ts => readMembers? ts.length {} ts
  | _ => none

/-- The outcome that a JSON text holds. -/
def ofJson? (text : String) : Option Outcome := (Token.scan? text).bind readTokens?

end Outcome

end Provision
