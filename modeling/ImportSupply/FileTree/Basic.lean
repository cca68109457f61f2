/-!
# File trees

A file tree maps locations, given by the names on the way from the root, to nodes: directories,
files and symbolic links. The root is a directory, and the one that is worked in: paths with and
without a slash in front start there. A file holds a text, or bytes that are no text.
-/

namespace ImportSupply

/-- What a file holds. -/
inductive Contents where
  | text (characters : String)
  | binary (bytes : List UInt8)
  deriving DecidableEq, Repr

/-- What bytes hold: the text they encode, if they encode one. -/
def Contents.ofBytes (bytes : List UInt8) : Contents :=
  match String.fromUTF8? (ByteArray.mk bytes.toArray) with
  | some characters => .text characters
  | none => .binary bytes

/-- What stands at a location. -/
inductive Node where
  | directory
  | file (contents : Contents)
  /-- A link to a path, seen from the directory of the link, or from the root if the path starts
  with a slash. -/
  | link (target : String)
  deriving DecidableEq, Repr

/-- The names on the way from the root to a node. -/
abbrev Location := List String

/-- Nodes by their locations; the root is not listed. -/
structure FileTree where
  nodes : List (Location × Node)
  deriving DecidableEq, Repr

/-- Why an access to a file fails. -/
inductive Trouble where
  | missing
  | alreadyExists
  | notDirectory
  | isDirectory
  | nameTooLong
  | tooManyLinks
  | notText
  | nulInName
  deriving DecidableEq, Repr

/-- The wording of a trouble. -/
def Trouble.message : Trouble → String
  | missing => "No such file or directory (os error 2)"
  | alreadyExists => "File exists (os error 17)"
  | notDirectory => "Not a directory (os error 20)"
  | isDirectory => "Is a directory (os error 21)"
  | nameTooLong => "File name too long (os error 36)"
  | tooManyLinks => "Too many levels of symbolic links (os error 40)"
  | notText => "stream did not contain valid UTF-8"
  | nulInName => "file name contained an unexpected NUL byte"

namespace FileTree

/-- The tree that holds nothing but its root. -/
def empty : FileTree :=
  ⟨[]⟩

/-- The node at a location. -/
def node? (tree : FileTree) (location : Location) : Option Node :=
  if location.isEmpty then some .directory else tree.nodes.lookup location

/-- The tree with a node put at a location, in place of any node there. -/
def insert (tree : FileTree) (location : Location) (node : Node) : FileTree :=
  if (tree.nodes.lookup location).isSome then
    ⟨tree.nodes.map fun entry => if entry.1 == location then (location, node) else entry⟩
  else ⟨tree.nodes ++ [(location, node)]⟩

/-- The tree without a location and all that lies below it. -/
def erase (tree : FileTree) (location : Location) : FileTree :=
  ⟨tree.nodes.filter fun entry => !location.isPrefixOf entry.1⟩

/-- The nodes right below a location, with their names. -/
def children (tree : FileTree) (location : Location) : List (String × Node) :=
  tree.nodes.filterMap fun entry =>
    match location.isPrefixOf? entry.1 with
    | some [name] => some (name, entry.2)
    | _ => none

/-- The paths of all nodes that are no directories, in increasing order. -/
def leaves (tree : FileTree) : List String :=
  (tree.nodes.filterMap fun entry =>
    if entry.2 = .directory then none else some ("/".intercalate entry.1)).mergeSort
      fun a b => decide (a ≤ b)

end FileTree

end ImportSupply
