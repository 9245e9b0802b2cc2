import Provision.Program
import Provision.Sandbox

/-!
# The command line program

The program over the files of the working directory. Commands run in a sandbox of these
files; what they change is written back when all is done.
-/

namespace Provision.WorkingDirectory

/-- The place of a name in the directory in which commands run. -/
def placeOf (name : String) : Place := Files.home ++ [Text.Octets.ofText name]

/-- The files of the working directory, with the directories in it taken as empty. -/
def read : IO Files := do
  let mut tree : Files := {}
  for e in ← (← IO.currentDir).readDir do
    let info ← e.path.metadata
    match info.type with
    | .dir => tree := tree.put (placeOf e.fileName) .folder
    | .file => tree := tree.put (placeOf e.fileName) (.plain (← IO.FS.readBinFile e.path).toList)
    | _ => pure ()
  return tree

/-- Writes what has changed back to the working directory. -/
def write (before after : Files) : IO Unit := do
  for (name, e) in after.top do
    if before.get? (Files.home ++ [name]) != some e then
      let path := Text.Octets.toText name
      match e.body with
      | .file bytes => IO.FS.writeBinFile path (ByteArray.mk bytes.toArray)
      | .directory => IO.FS.createDirAll path
      | _ => pure ()
  for (name, e) in before.top do
    if (after.get? (Files.home ++ [name])).isNone then
      let path := Text.Octets.toText name
      if e.isDirectory then IO.FS.removeDirAll path else IO.FS.removeFile path

/-- What the user types, if a command line asks a question. -/
def typed (env : Option String) (args : List String) : IO (List UInt8) := do
  match CommandLine.read env args with
  | .ok c =>
    if c.action == .install false then return (← (← IO.getStdin).readBinToEnd).toList
    else return []
  | .error _ => return []

end Provision.WorkingDirectory

open Provision in
/-- Runs the program. -/
def main (args : List String) : IO UInt32 := do
  let env ← IO.getEnv "SYSTEMCONF_CONFIG"
  let input ← WorkingDirectory.typed env args
  let before ← WorkingDirectory.read
  let (ended, after) := Program.run sandbox Loaded.ofFile env args input before
  WorkingDirectory.write before after
  IO.print ended.stdout
  IO.eprint ended.stderr
  return ended.exitCode.toNat.toUInt32
