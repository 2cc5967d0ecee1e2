import PromptDraw.Host.Basic

/-!
A working directory held in memory. Paths are followed name by name: an empty
name and `.` stay in a directory, `..` leaves it. Of the directories around the
working directory nothing is known but that they are there.
-/

namespace PromptDraw

/-- The files and directories below a working directory, each with the names
that lead to it. The directories around an entry are there without being listed. -/
structure FileTree where
  entries : List (List String × FileBody)

namespace FileTree

/-- What stands at a place, given by the names that lead to it. No place stands
for a directory around the working directory. -/
def body? (tree : FileTree) : Option (List String) → Option FileBody
  | none => some .directory
  | some names =>
    match tree.entries.find? fun entry => entry.1 == names with
    | some entry => some entry.2
    | none =>
      if tree.entries.any fun entry => names.isPrefixOf entry.1 then some .directory
      else if names.isEmpty then some .directory
      else none

def maxNameSize : Nat := 255

def maxPathSize : Nat := 4095

/-- The place that a name leads to from a directory. Below the directories
around the working directory nothing can be found. -/
def enter (tree : FileTree) (place : Option (List String)) (name : String) :
    Except FileFault (Option (List String)) :=
  match tree.body? place with
  | none => .error .notFound
  | some (.file _) => .error .notADirectory
  | some .directory =>
    if name = "" ∨ name = "." then .ok place
    else if name.utf8ByteSize > maxNameSize then .error .nameTooLong
    else
      match place with
      | none => if name = ".." then .ok none else .error .notFound
      | some [] => if name = ".." then .ok none else .ok (some [name])
      | some names => .ok (some (if name = ".." then names.dropLast else names ++ [name]))

/-- What the names of a path lead to. -/
def follow (tree : FileTree) (place : Option (List String)) (names : List String) :
    Except FileFault FileBody := do
  let place ← names.foldlM tree.enter place
  match tree.body? place with
  | none => .error .notFound
  | some body => .ok body

/-- What a path leads to from the working directory, whose own path is
`directory`. -/
def lookup (tree : FileTree) (directory path : String) : Except FileFault FileBody :=
  if '\x00' ∈ path.toList then .error .zeroInName
  else if path = "" then .error .notFound
  else if path.utf8ByteSize > maxPathSize then .error .nameTooLong
  else if path.startsWith (directory ++ "/") then
    tree.follow (some []) ((path.drop (directory.length + 1)).toString.splitOn "/")
  else if path.startsWith "/" then tree.follow none (path.splitOn "/")
  else tree.follow (some []) (path.splitOn "/")

end FileTree

end PromptDraw
