import Quill.Path

/-!
# Limits and surroundings of a run

A run is limited in how deeply functions and objects may be evaluated inside one another and in
how many rounds one loop may take. Paths of scripts count from a base directory.
-/

namespace Quill

/-- The limits of a run, and where it looks for scripts. -/
structure Config where
  /-- How many calls and instantiations may be active at a time. -/
  maxCallDepth : Nat := 512
  /-- How many rounds a single loop may take. -/
  maxLoopIterations : Nat := 10000000
  /-- The directory that the paths of scripts count from. -/
  baseDirectory : String := "."
deriving Repr

namespace Config

/-- Whether two configurations mean the same, however their directories are spelled. -/
def same (first second : Config) : Bool :=
  first.maxCallDepth = second.maxCallDepth &&
    first.maxLoopIterations = second.maxLoopIterations &&
    Path.sameWay first.baseDirectory second.baseDirectory

/-- Whether the configuration means the same as the one that is used when nothing is said. -/
def isDefault (config : Config) : Bool :=
  config.same {}

end Config

end Quill
