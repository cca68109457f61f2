import ImportSupply.Failure
import ImportSupply.FileTree.Change
import ImportSupply.Sha256

/-!
# Output files

An output file is written only if it does not hold the same text already, which is told by the
digests of the two texts. Its directory is made if need be. A file is written as a whole or not at
all, but directories that were made on the way to a write that fails stay.
-/

namespace ImportSupply.Output

/-- Whether the file that a path leads to already holds a text. -/
def isUpToDate (tree : FileTree) (path text : String) : Bool :=
  match tree.readText path with
  | .ok existing => Sha256.hex existing == Sha256.hex text
  | .error _ => false

/-- Makes the directory of a path, unless it is the current one. -/
def makeDirectory (tree : FileTree) (path : String) : FileTree × Except Failure Unit :=
  match FileTree.directoryOf? path with
  | none => (tree, .ok ())
  | some directory =>
      let (made, result) := tree.makeDirectories directory
      (made, result.mapError (Failure.access directory))

/-- Writes a text to a file, in a directory that is made if need be. -/
def write (tree : FileTree) (path text : String) : FileTree × Except Failure Unit :=
  match makeDirectory tree path with
  | (made, .error failure) => (made, .error failure)
  | (made, .ok ()) =>
      match made.writeFile path (.text text) with
      | .ok written => (written, .ok ())
      | .error trouble => (made, .error (.access path trouble))

/-- Writes a text to a file that does not hold it yet; says whether it was written. -/
def writeIfChanged (tree : FileTree) (path text : String) : FileTree × Except Failure Bool :=
  if isUpToDate tree path text then (tree, .ok false)
  else
    let (written, result) := write tree path text
    (written, result.map fun _ => true)

end ImportSupply.Output
