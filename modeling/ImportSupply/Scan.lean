import ImportSupply.Export
import ImportSupply.Failure
import ImportSupply.FileTree.Walk
import ImportSupply.Options.Basic
import ImportSupply.Script

/-!
# Scanning directories

The scripts of a directory are found by globs on their paths from that directory, taken in
increasing order of these paths, and their exports become entries. What is no text has no exports,
and a path that leads to no directory has no scripts.
-/

namespace ImportSupply

namespace ScanDir

/-- Reads globs in order; the first that cannot be read is the failure. -/
def readGlobs : List String → Except Failure (List Glob)
  | [] => .ok []
  | text :: rest => do
      let glob ← (Glob.parse text).mapError fun flaw => .glob text (.unreadable text flaw)
      let others ← readGlobs rest
      return glob :: others

/-- The filter of some globs. -/
def readFilter (texts : List String) : Except Failure Glob.Filter := do
  let globs ← readGlobs texts
  (Glob.Filter.ofGlobs globs).mapError (.glob (", ".intercalate texts))

/-- The entries of one file found below a directory. -/
def fileEntries (dir : ScanDir) (file : FoundFile) : List Entry :=
  match file.contents with
  | .text script =>
      let path := FileTree.pathBelow dir.path file.relative
      Export.entries script.toList (String.ofList (Script.specifier path.toList)) dir.types
  | .binary _ => []

/-- Whether a file is to be scanned. -/
def isWanted (includes excludes : Glob.Filter) (file : FoundFile) : Bool :=
  let path := "/".intercalate file.relative
  includes.accepts path && !excludes.accepts path

/-- The entries of a directory's scripts. -/
def entries (tree : FileTree) (dir : ScanDir) : Except Failure (List Entry) :=
  if !tree.isDirectory dir.path then .ok []
  else do
    let includes ← readFilter dir.includes
    let excludes ← readFilter dir.excludes
    return ((tree.walk dir.path).filter (isWanted includes excludes)).flatMap dir.fileEntries

end ScanDir

/-- The entries of some directories' scripts, in order. -/
def scanDirs (tree : FileTree) : List ScanDir → Except Failure (List Entry)
  | [] => .ok []
  | dir :: rest => do
      let first ← dir.entries tree
      let others ← scanDirs tree rest
      return first ++ others

end ImportSupply
