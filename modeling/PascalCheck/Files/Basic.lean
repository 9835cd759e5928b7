
namespace PascalCheck

/-- Why a file cannot be read. -/
inductive FileFault where
  | notFound
  | isDirectory
  | notDirectory
  | nameTooLong
  | invalidName
  | denied
deriving DecidableEq, Repr

/-- The wording of a file fault. Only a directory is opened before it turns out unreadable. -/
def FileFault.message (path : String) : FileFault → String
  | .notFound => "open " ++ path ++ ": no such file or directory"
  | .isDirectory => "read " ++ path ++ ": is a directory"
  | .notDirectory => "open " ++ path ++ ": not a directory"
  | .nameTooLong => "open " ++ path ++ ": file name too long"
  | .invalidName => "open " ++ path ++ ": invalid argument"
  | .denied => "open " ++ path ++ ": permission denied"

/-- Access to files and to the values of variables. -/
structure Files (m : Type → Type) where
  read : String → m (Except FileFault (List UInt8))
  valueOf : String → m String

end PascalCheck
