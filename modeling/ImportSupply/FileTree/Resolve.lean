import ImportSupply.FileTree.Basic

/-!
# Following paths in a file tree

A path is followed from the root, component by component. A link on the way is followed from the
directory it stands in, or from the root if its target starts with a slash; more than forty links
are too many. The last component may be missing, or may be a link that is to be looked at and not
followed. Slashes behind it ask for a directory.
-/

namespace ImportSupply

/-- Where a path leads: to a node, or to a free place in a directory. -/
inductive Spot where
  | taken (location : Location) (node : Node)
  | free (location : Location)
  deriving DecidableEq, Repr

namespace FileTree

/-- What a path is followed for. -/
inductive Purpose where
  /-- To see what it names: a link at its end is not followed. -/
  | inspect
  /-- To use what is there. -/
  | visit
  /-- To write a file: what stands before slashes at the end cannot be one. -/
  | write
  deriving DecidableEq, Repr

/-- The components of a path, empty ones included. -/
def components (path : String) : List String :=
  (path.toList.splitOn '/').map String.ofList

/-- Whether a component stays where it is. -/
def isIdle (component : String) : Bool :=
  component == "" || component == "."

/-- The longest name in bytes. -/
def nameLimit : Nat :=
  255

/-- Whether components are slashes at the end of a path. -/
def areSlashes (rest : List String) : Bool :=
  !rest.isEmpty && rest.all String.isEmpty

/-- Where the target of a link in a directory is followed from. -/
def linkBase (directory : Location) (target : String) : Location :=
  if target.toList.head? = some '/' then [] else directory

/-- Follows components from a location. `onLink` goes on from where a link's target is followed,
with the components of the target and those behind the link. -/
def descend (tree : FileTree) (purpose : Purpose)
    (onLink : Location → List String → Except Trouble Spot) :
    Location → List String → Except Trouble Spot
  | location, [] =>
      match tree.node? location with
      | some node => .ok (.taken location node)
      | none => .error .missing
  | location, component :: rest =>
      match tree.node? location with
      | none => .error .missing
      | some (.file _) => .error .notDirectory
      | some (.link _) => .error .notDirectory
      | some .directory =>
          if isIdle component then tree.descend purpose onLink location rest
          else if component == ".." then tree.descend purpose onLink location.dropLast rest
          -- slashes behind the last name ask for a directory, and that cannot be written
          else if purpose = .write ∧ areSlashes rest then .error .isDirectory
          else if nameLimit < component.utf8ByteSize then .error .nameTooLong
          else
            match tree.node? (location ++ [component]) with
            | none =>
                -- a name that is not there can be made, unless the path goes on behind it
                if rest.all String.isEmpty then .ok (.free (location ++ [component]))
                else .error .missing
            | some (.link target) =>
                if rest.isEmpty && purpose = .inspect then
                  .ok (.taken (location ++ [component]) (.link target))
                else onLink (linkBase location target) (components target ++ rest)
            | some _ => tree.descend purpose onLink (location ++ [component]) rest

/-- Follows components from a location through at most so many links. -/
def follow (tree : FileTree) (purpose : Purpose) :
    (links : Nat) → Location → List String → Except Trouble Spot
  | 0 => tree.descend purpose fun _ _ => .error .tooManyLinks
  | links + 1 => tree.descend purpose (tree.follow purpose links)

/-- The most links that are followed on the way of one path. -/
def linkLimit : Nat :=
  40

/-- The longest path in bytes, with its end counted. -/
def pathLimit : Nat :=
  4096

/-- Follows a path from the root. -/
def resolve (tree : FileTree) (purpose : Purpose) (path : String) : Except Trouble Spot :=
  if path.toList.contains (Char.ofNat 0) then .error .nulInName
  else if path.isEmpty then .error .missing
  else if pathLimit ≤ path.utf8ByteSize then .error .nameTooLong
  else tree.follow purpose linkLimit [] (components path)

/-- Whether a path leads to a directory. -/
def isDirectory (tree : FileTree) (path : String) : Bool :=
  match tree.resolve .visit path with
  | .ok (.taken _ .directory) => true
  | _ => false

/-- The text of the file that a path leads to. -/
def readText (tree : FileTree) (path : String) : Except Trouble String :=
  match tree.resolve .visit path with
  | .error trouble => .error trouble
  | .ok (.free _) => .error .missing
  | .ok (.taken _ (.file (.text text))) => .ok text
  | .ok (.taken _ (.file (.binary _))) => .error .notText
  | .ok (.taken _ (.link _)) => .error .tooManyLinks
  | .ok (.taken _ .directory) => .error .isDirectory

end FileTree

end ImportSupply
