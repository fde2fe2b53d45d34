/-!
# Paths

A path is a text in which slashes separate the names of directories and of a last file. A path
that begins with a slash is absolute, every other one counts from a base directory.
-/

namespace Quill.Path

/-- Whether the path counts from the top of the file system. -/
def isAbsolute (path : String) : Bool :=
  path.toList.head? = some '/'

/-- The path of a file seen from a base directory. An absolute path stays as it is. -/
def join (base file : String) : String :=
  if isAbsolute file then file
  else if base.isEmpty || base.toList.getLast? = some '/' then base ++ file
  else base ++ "/" ++ file

/-- Removes slashes and names of the current directory from the end of a reversed path. The name
of the current directory is kept if nothing stands before it. -/
def dropIdle : List Char → List Char
  | '/' :: rest => dropIdle rest
  | '.' :: '/' :: rest => dropIdle rest
  | rest => rest

/-- The directory that a file lies in, the current directory if the path does not name one. -/
def directory (path : String) : String :=
  let kept := (dropIdle (path.toList.reverse.dropWhile (· ≠ '/'))).reverse
  if kept.isEmpty then
    if isAbsolute path then "/" else "."
  else
    String.ofList kept

/-- The names on the way along a path. A name of the current directory counts only at the very
beginning of a path that is not absolute. -/
def names (path : String) : List String :=
  let parts := (path.toList.splitOn '/').map String.ofList
  let idle := fun part => part = "" || part = "."
  let rest := (parts.drop 1).filter (!idle ·)
  match parts.head? with
  | none | some "" => rest
  | some first => first :: rest

/-- Whether two paths name the same way, however they are spelled. -/
def sameWay (first second : String) : Bool :=
  isAbsolute first = isAbsolute second && names first = names second

end Quill.Path
