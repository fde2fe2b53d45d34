/-!
# Script files

Programs may load scripts from files. Reading a file gives its bytes or the reason why there are
none. A tree of files answers as a file system does that holds these files and nothing else.
-/

namespace Quill

/-- Why a script could not be read. -/
inductive ReadFailure where
  /-- The path names nothing. -/
  | notFound
  /-- The path names a directory. -/
  | isDirectory
  /-- The path goes on behind a file. -/
  | notDirectory
  /-- A name, or the whole path, is longer than the system takes. -/
  | nameTooLong
  /-- The path contains a null character. -/
  | nullInPath
  /-- The bytes are not a text. -/
  | notUtf8
  /-- Anything else, in the words of the system. -/
  | other (reason : String)
deriving DecidableEq, Repr

/-- The reason in words. -/
def ReadFailure.message : ReadFailure → String
  | notFound => "No such file or directory (os error 2)"
  | isDirectory => "Is a directory (os error 21)"
  | notDirectory => "Not a directory (os error 20)"
  | nameTooLong => "File name too long (os error 36)"
  | nullInPath => "file name contained an unexpected NUL byte"
  | notUtf8 => "stream did not contain valid UTF-8"
  | other reason => reason

/-- The bytes of every file, found by its path. -/
abbrev Disk := String → Except ReadFailure (List UInt8)

/-- The text that bytes stand for, if they are well-formed UTF-8. -/
def decodeUtf8? (bytes : List UInt8) : Option String :=
  String.fromUTF8? ⟨bytes.toArray⟩

/-- The text of a file. -/
def Disk.readText (disk : Disk) (path : String) : Except ReadFailure String := do
  let bytes ← disk path
  match decodeUtf8? bytes with
  | some text => .ok text
  | none => .error .notUtf8

namespace FileTree

/-- What a name in a directory may stand for. -/
inductive Entry where
  /-- A file with its contents. -/
  | file (bytes : List UInt8)
  /-- A directory. -/
  | directory
deriving DecidableEq, Repr

end FileTree

/-- Files and directories, each with the names on the way to it. The directories on these ways
exist as well. -/
structure FileTree where
  /-- The entries. -/
  entries : List (List String × FileTree.Entry)

namespace FileTree

/-- What the way leads to, counted from the top of the tree. -/
def entry? (tree : FileTree) (way : List String) : Option Entry :=
  if way.isEmpty then
    some .directory
  else
    match tree.entries.lookup way with
    | some entry => some entry
    | none =>
      if tree.entries.any fun (other, _) => way.isPrefixOf other then some .directory else none

/-- Where a walk through the tree has got to. -/
inductive Location where
  /-- A place in the tree. -/
  | inside (way : List String)
  /-- A directory that the tree lies in. -/
  | outside
deriving DecidableEq, Repr

/-- The longest name that a directory can hold, in bytes. -/
def maxNameLength : Nat := 255

/-- The longest path that the system takes, in bytes. -/
def maxPathLength : Nat := 4095

/-- Why a name leads nowhere from a directory that does not hold it. -/
def missing (name : String) : ReadFailure :=
  if maxNameLength < name.utf8ByteSize then .nameTooLong else .notFound

/-- One step of a walk. Only a directory can be left by a name. Nothing is known to exist around
the tree except the directories that it lies in. -/
def step (tree : FileTree) (location : Location) (name : String) : Except ReadFailure Location :=
  match location with
  | .outside =>
    if name = "" || name = "." || name = ".." then .ok .outside else .error (missing name)
  | .inside way =>
    match tree.entry? way with
    | some .directory =>
      if name = "" || name = "." then .ok location
      else if name = ".." then
        if way.isEmpty then .ok .outside else .ok (.inside way.dropLast)
      else if (tree.entry? (way ++ [name])).isSome then .ok (.inside (way ++ [name]))
      else .error (missing name)
    | _ => .error .notDirectory

/-- Reads a file of the tree. Paths that are not absolute count from its top. -/
def disk (tree : FileTree) : Disk := fun path => do
  if path.toList.contains '\x00' then
    .error .nullInPath
  else if path.isEmpty then
    .error .notFound
  else if maxPathLength < path.utf8ByteSize then
    .error .nameTooLong
  else
    let names := (path.toList.splitOn '/').map String.ofList
    let top := if path.toList.head? = some '/' then Location.outside else Location.inside []
    match ← names.foldlM tree.step top with
    | .outside => .error .isDirectory
    | .inside way =>
      match tree.entry? way with
      | some (.file bytes) => .ok bytes
      | some .directory => .error .isDirectory
      | none => .error .notFound

end FileTree

end Quill
