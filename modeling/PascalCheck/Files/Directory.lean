import PascalCheck.Files.Basic

namespace PascalCheck

abbrev Directory := List (String × List UInt8)

namespace Directory

/-- Where a path leads: to the directory itself, to a place above it, to the root of the system or
a directory in it, or to a file. -/
inductive Place where
  | inside
  | above
  | root
  | system (name : String)
  | file (contents : List UInt8)
deriving DecidableEq, Repr

def systemNames : List String :=
  ["bin", "dev", "etc", "home", "lib", "opt", "proc", "root", "run", "sbin", "sys", "tmp", "usr",
    "var"]

/-- The place with a name in another; the system has one file that is always empty. -/
def child? (d : Directory) (place : Place) (name : String) : Option Place :=
  match place with
  | .inside => (d.lookup name).map .file
  | .root => if systemNames.contains name then some (.system name) else none
  | .system "dev" => if name = "null" then some (.file []) else none
  | _ => none

def Place.parent : Place → Place
  | .root | .system _ => .root
  | _ => .above

def step (d : Directory) (place : Place) (part : String) : Except FileFault Place :=
  match place with
  | .file _ => .error .notDirectory
  | place =>
    if part = "" || part = "." then .ok place
    else if part = ".." then .ok place.parent
    else if 255 < part.utf8ByteSize then .error .nameTooLong
    else
      match d.child? place part with
      | some place => .ok place
      | none => .error .notFound

def place (d : Directory) (path : String) : Except FileFault Place :=
  if path.toList.contains '\x00' then .error .invalidName
  else if path = "" then .error .notFound
  else if 4096 ≤ path.utf8ByteSize then .error .nameTooLong
  else
    let start : Place := if path.toList.head? = some '/' then .root else .inside
    (path.splitOn "/").foldlM d.step start

def read (d : Directory) (path : String) : Except FileFault (List UInt8) := do
  match ← d.place path with
  | .file contents => .ok contents
  | _ => .error .isDirectory

def files (d : Directory) (valueOf : String → String) : Files Id := ⟨d.read, valueOf⟩

end Directory

end PascalCheck
