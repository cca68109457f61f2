import ImportSupply.Command.Run

/-!
# The command line

The tree of the working directory is read once, the command runs on that tree, and what it changed
is written back.
-/

namespace ImportSupply.Main

/-- The target of a link, seen from the link's directory, if it lies in the tree. -/
def linkTarget? (root target : String) (location : Location) : Option String :=
  ((root ++ "/").toList.isPrefixOf? target.toList).map fun relative =>
    "/".intercalate (location.dropLast.map (fun _ => "..") ++ [String.ofList relative])

/-- The node of a directory entry, if it can be read. Links that lead out of the tree, and what is
neither file nor directory, have none. -/
def readNode? (root : String) (location : Location) (entry : IO.FS.DirEntry) :
    IO (Option Node) :=
  try
    match (← entry.path.symlinkMetadata).type with
    | .dir => return some .directory
    | .file =>
        let bytes ← IO.FS.readBinFile entry.path
        return some (.file (Contents.ofBytes bytes.toList))
    | .symlink =>
        let target ← IO.FS.realPath entry.path
        return (linkTarget? root target.toString location).map .link
    | .other => return none
  catch _ => return none

/-- The nodes below a location of the working directory. -/
partial def readNodes (root : String) (location : Location) :
    IO (List (Location × Node)) := do
  let here ← IO.FS.realPath ("/".intercalate (root :: location))
  let mut nodes := []
  for entry in ← here.readDir do
    let below := location ++ [entry.fileName]
    if let some node ← readNode? root below entry then
      nodes := nodes ++ [(below, node)]
      if node = .directory then nodes := nodes ++ (← readNodes root below)
  return nodes

/-- Writes what differs between two trees to the working directory. -/
def writeNodes (before after : FileTree) : IO Unit := do
  for (location, node) in after.nodes do
    if before.node? location != some node then
      let path := "/".intercalate location
      match node with
      | .directory => IO.FS.createDirAll path
      | .file (.text text) => IO.FS.writeFile path text
      | _ => pure ()

end ImportSupply.Main

open ImportSupply in
/-- Runs a command line in the working directory. -/
def main (arguments : List String) : IO UInt32 := do
  let root ← IO.FS.realPath "."
  let before : FileTree := ⟨← Main.readNodes root.toString []⟩
  let outcome := Command.run before arguments
  Main.writeNodes before outcome.tree
  IO.print outcome.output
  if let some report := outcome.report then IO.eprintln report
  return outcome.status.toUInt32
