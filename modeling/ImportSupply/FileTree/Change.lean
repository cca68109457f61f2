import ImportSupply.FileTree.Resolve
import ImportSupply.Path

/-!
# Changing a file tree

Making directories, writing files and removing nodes, as a path names them. Every change gives the
tree behind it, also when it fails: directories made on the way stay.
-/

namespace ImportSupply.FileTree

/-- What stands where something is to be made. Slashes at the end of the path are passed over, so
that a link before them is seen and not followed. -/
def placeFor (tree : FileTree) (path : String) : Except Trouble Spot :=
  let named := (path.toList.reverse.dropWhile (· == '/')).reverse
  tree.resolve .inspect (if named.isEmpty then path else String.ofList named)

/-- Makes one directory, whose parent must be there. -/
def makeDirectory (tree : FileTree) (path : String) : Except Trouble FileTree :=
  match tree.placeFor path with
  | .error trouble => .error trouble
  | .ok (.taken _ _) => .error .alreadyExists
  | .ok (.free location) => .ok (tree.insert location .directory)

/-- A path and the paths of the directories it lies in, innermost first. -/
def ancestors : Nat → List Char → List (List Char)
  | 0, _ => []
  | most + 1, path =>
      if path.isEmpty then []
      else
        match Path.parent? path with
        | none => []
        | some parent => path :: ancestors most parent

/-- An obstacle to making a directory, unless the directory is there. -/
def unlessDirectory (tree : FileTree) (path : String) (trouble : Trouble) :
    FileTree × Except Trouble Unit :=
  (tree, if tree.isDirectory path then .ok () else .error trouble)

/-- Makes the first directory of a list, and before it those of the others that are missing. -/
def makeMissing (tree : FileTree) : List String → FileTree × Except Trouble Unit
  | [] => (tree, .ok ())
  | path :: outer =>
      match tree.makeDirectory path with
      | .ok made => (made, .ok ())
      | .error .missing =>
          -- only where a parent is missing is a second try worth it, once the parents are made
          match tree.makeMissing outer with
          | (made, .error trouble) => (made, .error trouble)
          | (made, .ok ()) =>
              match made.makeDirectory path with
              | .ok complete => (complete, .ok ())
              | .error trouble => made.unlessDirectory path trouble
      | .error trouble => tree.unlessDirectory path trouble

/-- Makes a directory and all directories it lies in, as far as they are not there yet. -/
def makeDirectories (tree : FileTree) (path : String) : FileTree × Except Trouble Unit :=
  tree.makeMissing ((ancestors (path.length + 1) path.toList).map String.ofList)

/-- Where a file can be written: at the file a path leads to, or at a free place. -/
def writableAt (tree : FileTree) (path : String) : Except Trouble Location :=
  match tree.resolve .write path with
  | .error trouble => .error trouble
  | .ok (.free location) => .ok location
  | .ok (.taken location (.file _)) => .ok location
  | .ok (.taken _ _) => .error .isDirectory

/-- Writes a file whose directory is there. -/
def writeFile (tree : FileTree) (path : String) (contents : Contents) : Except Trouble FileTree :=
  (tree.writableAt path).map fun location => tree.insert location (.file contents)

/-- Makes a link whose directory is there. -/
def makeLink (tree : FileTree) (path target : String) : Except Trouble FileTree :=
  match tree.resolve .inspect path with
  | .error trouble => .error trouble
  | .ok (.taken _ _) => .error .alreadyExists
  | .ok (.free location) => .ok (tree.insert location (.link target))

/-- Removes the node a path names, with all that lies below it. -/
def remove? (tree : FileTree) (path : String) : Option FileTree :=
  match tree.resolve .inspect path with
  | .ok (.taken location _) => some (tree.erase location)
  | _ => none

/-- The path of the directory that a path lies in, if that is not the current one. -/
def directoryOf? (path : String) : Option String :=
  match Path.parent? path.toList with
  | some (c :: rest) => some (String.ofList (c :: rest))
  | _ => none

end ImportSupply.FileTree
