/-!
# Paths

A path is a text of components between slashes. Empty components and `.` say nothing, except that a
path may start with `.`; the text of a path is kept as it is written.
-/

namespace ImportSupply.Path

/-- What a path starts with that is no component of its own: the root, or the current directory. -/
def lead : List Char → List Char
  | '/' :: _ => ['/']
  | ['.'] => ['.']
  | '.' :: '/' :: _ => ['.']
  | _ => []

/-- Whether a component says nothing. -/
def isIdle (component : List Char) : Bool :=
  component.isEmpty || component == ['.']

/-- Components without those at the end that say nothing. -/
def trimIdle (components : List (List Char)) : List (List Char) :=
  (components.reverse.dropWhile isIdle).reverse

/-- The components of a path behind its lead, without those at the end that say nothing. -/
def components (path : List Char) : List (List Char) :=
  trimIdle ((path.drop (lead path).length).splitOn '/')

/-- Components with slashes between them. -/
def join (components : List (List Char)) : List Char :=
  ['/'].intercalate components

/-- The path without its last component. -/
def parent? (path : List Char) : Option (List Char) :=
  if (components path).isEmpty then if lead path == ['.'] then some [] else none
  else some (lead path ++ join (trimIdle (components path).dropLast))

/-- The last component of a path, unless that goes up. -/
def fileName? (path : List Char) : Option (List Char) :=
  (components path).getLast?.filter (· != ['.', '.'])

/-- A file name as its stem and its extension: what stands before and behind its last dot, if
anything stands before it. -/
def splitName (name : List Char) : List Char × Option (List Char) :=
  let after := (name.reverse.takeWhile (· != '.')).reverse
  let before := name.take (name.length - after.length - 1)
  if after.length == name.length || before.isEmpty then (name, none) else (before, some after)

/-- The extension of a path's file name. -/
def extension? (path : List Char) : Option (List Char) :=
  (fileName? path).bind fun name => (splitName name).2

/-- A path up to the stem of its file name. -/
def toStem (path : List Char) : List Char :=
  match fileName? path with
  | none => path
  | some name => lead path ++ join ((components path).dropLast ++ [(splitName name).1])

/-- A path without its extension: the extension's length is cut off the text, and then all behind
the stem that is left. -/
def withoutExtension (path : List Char) : List Char :=
  toStem (path.take (path.length - ((extension? path).getD []).length))

/-- A path with every backslash turned into a slash. -/
def withSlashes (path : List Char) : List Char :=
  path.map fun c => if c = '\\' then '/' else c

end ImportSupply.Path
