import Provision.Tool.Find
import Provision.Tool.Start
import Provision.Tool.Show
import Provision.Tool.Sort
import Provision.Tool.Count
import Provision.Tool.Search
import Provision.Tool.Edit
import Provision.Tool.Condition
import Provision.Tool.Calculate
import Provision.Tool.Compare
import Provision.Tool.Digest

/-!
# The table of tools

Which tool answers to which name.
-/

namespace Provision.Tool

/-- Prints one line, whatever the arguments are. -/
def tell (line : String) (_ : List String) : Tool Nat := do
  putLine line
  return 0

/-- Prints the directory of the process. -/
def pwd (_ : List String) : Tool Nat := do
  let p ← get
  putLine p.here.path
  return 0

/-- Ends with a status. -/
def ended (status : Nat) (_ : List String) : Tool Nat := return status

/-- The tools that start no others. -/
def plainNamed? (name : String) : Option (List String → Tool Nat) :=
  match name with
  | "true" | "sync" => some (ended 0)
  | "false" => some (ended 1)
  | "whoami" | "groups" => some (tell "root")
  | "hostname" => some (tell "localhost")
  | "arch" => some (tell "x86_64")
  | "nproc" => some (tell "1")
  | "pwd" => some pwd
  | "tty" => some fun _ => do
    putLine "not a tty"
    return 1
  | "test" | "[" => some test
  | "cat" => some cat
  | "tac" => some tac
  | "rev" => some rev
  | "nl" => some nl
  | "head" => some head
  | "tail" => some tail
  | "tee" => some tee
  | "yes" => some yes
  | "fold" => some fold
  | "sort" => some sort
  | "uniq" => some uniq
  | "comm" => some comm
  | "wc" => some wc
  | "seq" => some seq
  | "cut" => some cut
  | "paste" => some paste
  | "expand" => some expand
  | "tr" => some tr
  | "grep" => some grep
  | "egrep" => some fun args => grep ("-E" :: args)
  | "fgrep" => some fun args => grep ("-F" :: args)
  | "sed" => some sed
  | "basename" => some basename
  | "dirname" => some dirname
  | "readlink" => some readlink
  | "realpath" => some realpath
  | "mkdir" => some mkdir
  | "rmdir" => some rmdir
  | "touch" => some touch
  | "chmod" => some chmod
  | "chown" => some (chown "user")
  | "chgrp" => some (chown "group")
  | "rm" => some rm
  | "cp" => some cp
  | "mv" => some mv
  | "ln" => some ln
  | "truncate" => some truncate
  | "install" => some install
  | "mktemp" => some mktemp
  | "ls" => some ls
  | "stat" => some stat
  | "du" => some du
  | "printf" => some printf
  | "echo" => some echo
  | "expr" => some expr
  | "cmp" => some cmp
  | "diff" => some diff
  | "md5sum" => some (digestTool Digest.md5)
  | "sha1sum" => some (digestTool Digest.sha1)
  | "sha256sum" => some (digestTool Digest.sha256)
  | "base64" => some base64
  | "od" => some od
  | "sleep" => some sleep
  | "id" => some id
  | "uname" => some uname
  | "printenv" => some printenv
  | "which" => some which
  | "date" => some date
  | "split" => some split
  | "dd" => some dd
  | _ => none

/-- The tool of a name. -/
def named? (launch : Launch) (name : String) : Option (List String → Tool Nat) :=
  match name with
  | "find" => some (find launch)
  | "env" => some (env launch)
  | "xargs" => some (xargs launch)
  | "timeout" => some (timeout launch)
  | "nice" => some (wrapped launch [⟨'n', "adjustment", .always⟩])
  | "nohup" | "setsid" => some (wrapped launch [])
  | "stdbuf" => some (wrapped launch
    [⟨'i', "input", .always⟩, ⟨'o', "output", .always⟩, ⟨'e', "error", .always⟩])
  | name => plainNamed? name

end Provision.Tool
