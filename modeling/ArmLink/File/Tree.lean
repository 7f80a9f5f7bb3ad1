import ArmLink.File

/-!
# Files by their paths

A machine that only has the files and directories that are known. A path is
followed name by name, from the root or from the working directory, so that it
matters where it fails: behind a file, at a name that is not there, or at one that
is too long to be looked for.
-/

namespace ArmLink

/-- The names that lead to a file or directory from the root. -/
abbrev Location := List String

/-- Files and directories. The root is always there. -/
structure Tree where
  files : List (Location × FileContents)
  directories : List Location
  /-- The working directory. -/
  home : Location
  deriving Repr

namespace Tree

/-- The bytes that a name may have at most. -/
def longestName : Nat := 255

/-- The bytes that a path may have at most. -/
def longestPath : Nat := 4095

/-- Follows names from a directory. -/
def follow (tree : Tree) : Location → List String → FileContents
  | _, [] => .directory
  | place, name :: rest =>
    if name = "" ∨ name = "." then tree.follow place rest
    else if name = ".." then tree.follow place.dropLast rest
    else if longestName < name.utf8ByteSize then .nameTooLong
    else
      match tree.files.lookup (place ++ [name]) with
      | some contents => if rest = [] then contents else .notDirectory
      | none =>
        if tree.directories.contains (place ++ [name]) then tree.follow (place ++ [name]) rest
        else .missing

def read (tree : Tree) (path : String) : FileContents :=
  if path.toList.contains '\x00' then .unnameable
  else if path = "" then .missing
  else if longestPath < path.utf8ByteSize then .nameTooLong
  else tree.follow (if path.toList.head? = some '/' then [] else tree.home) (path.splitOn "/")

end Tree

end ArmLink
