/-! Paths of log files. Slashes in a row count as one, a dot stands for the folder it is in,
and a slash at the end does not count. -/

namespace StyledEffects.Log

inductive PathFault where
  /-- The path is empty or only the root, so there is no folder for the file. -/
  | noFolder (path : String)
  /-- The path ends with a dot or two and not with a name. -/
  | noName (path : String)
  deriving DecidableEq, Repr

def PathFault.message : PathFault → String
  | noFolder path =>
    "Can't access the folder of log file " ++ path ++ ". It might not exist."
  | noName path => "Log file path " ++ path ++ " has no file name."

/-- A file in a folder. The path of the folder is kept as it was written, except for slashes
and dots at its end; it is empty if it was not written at all. -/
structure FilePath where
  folder : String
  name : String
  deriving DecidableEq, Repr

def segments : List Char → List (List Char)
  | [] => [[]]
  | '/' :: rest => [] :: segments rest
  | c :: rest => match segments rest with
    | [] => [[c]]
    | segment :: more => (c :: segment) :: more

def parts (path : String) : List String := (segments path.toList).map String.ofList

def isAbsolute (path : String) : Bool := path.toList.head? = some '/'

namespace FilePath

def stays (part : String) : Bool := part = "" || part = "."

/-- The parts up to the last one that does not stay where it is, in reverse. A dot at the
start of a relative path is such a part too. -/
def steps (parts : List String) : List String :=
  match parts with
  | "." :: rest => rest.reverse.dropWhile stays ++ ["."]
  | parts => parts.reverse.dropWhile stays

def joined (absolute : Bool) (parts : List String) : String :=
  if absolute && parts.isEmpty then "/" else String.intercalate "/" parts

def parse (path : String) : Except PathFault FilePath :=
  match steps (parts path) with
  | [] => .error (.noFolder path)
  | name :: above =>
    if name = "." ∨ name = ".." then .error (.noName path)
    else .ok ⟨joined (isAbsolute path) (steps above.reverse).reverse, name⟩

def text (path : FilePath) : String :=
  if path.folder = "" then path.name
  else if path.folder = "/" then "/" ++ path.name
  else path.folder ++ "/" ++ path.name

end FilePath

end StyledEffects.Log
