import ImportSupply.FileTree.Resolve

/-!
# Walking a file tree

A walk lists the files below a directory. Links are followed: a link to a file counts as a file, a
link to a directory as a directory, unless the walk is already inside that directory. What cannot be
reached by the path that leads to it from the start is passed over.
-/

namespace ImportSupply

/-- A file found by a walk: the names on the way to it, and what it holds. -/
structure FoundFile where
  relative : List String
  contents : Contents
  deriving DecidableEq, Repr

namespace FileTree

/-- The path of what lies below a directory, written on from the directory's path. -/
def pathBelow (directory : String) (relative : List String) : String :=
  let separator := if directory.toList.getLast? = some '/' then "" else "/"
  directory ++ separator ++ "/".intercalate relative

/-- Where a path leads that ends with a child of a location the walk has come to: through the link,
if the child is one, and else to the child itself, unless the path is too long. -/
def spotOf (tree : FileTree) (path : String) (location : Location) (child : String × Node) :
    Except Trouble Spot :=
  match child.2 with
  | .link _ => tree.resolve .visit path
  | node =>
      if pathLimit ≤ path.utf8ByteSize then .error .nameTooLong
      else .ok (.taken (location ++ [child.1]) node)

/-- The files below a location that the names `relative` lead to from the walk's start, where
`inside` lists the directories the walk is in and `fuel` bounds how deep it goes. -/
def filesBelow (tree : FileTree) (start : String) :
    (fuel : Nat) → (inside : List Location) → (relative : List String) → Location →
      List FoundFile
  | 0, _, _, _ => []
  | fuel + 1, inside, relative, location =>
      (tree.children location).flatMap fun child =>
        let here := relative ++ [child.1]
        match tree.spotOf (pathBelow start here) location child with
        | .ok (.taken _ (.file contents)) => [⟨here, contents⟩]
        | .ok (.taken there .directory) =>
            -- only a link can lead back into a directory that the walk is in
            if child.2 ≠ .directory ∧ inside.contains there then []
            else tree.filesBelow start fuel (there :: inside) here there
        | _ => []

/-- The order of two ways from one directory: name by name, and a way before its continuations. -/
def namesLe : List String → List String → Bool
  | [], _ => true
  | _ :: _, [] => false
  | a :: as, b :: bs => if a == b then namesLe as bs else decide (a ≤ b)

/-- How deep a walk can go: between two followed links it passes each directory at most once, and it
follows each link into a new directory. -/
def walkDepth (tree : FileTree) : Nat :=
  (tree.nodes.length + 1) * (tree.nodes.length + 1)

/-- The files below the directory that a path leads to, in increasing order of the names on the way
to them. -/
def walk (tree : FileTree) (path : String) : List FoundFile :=
  match tree.resolve .visit path with
  | .ok (.taken location .directory) =>
      (tree.filesBelow path tree.walkDepth [location] [] location).mergeSort
        fun a b => namesLe a.relative b.relative
  | _ => []

end FileTree

end ImportSupply
