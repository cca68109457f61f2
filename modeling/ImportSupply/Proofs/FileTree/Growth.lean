import ImportSupply.FileTree.Change
import ImportSupply.Proofs.FileTree.Following
import ImportSupply.Proofs.Text.Cutting

/-!
# Growth of a file tree

Making directories and writing files puts nodes into a tree, one after the other: a directory or a
file at a free place in a directory, or a file in place of another. So directories and links stay
what they are and files stay files, and a path that led to a spot still leads there (`Grows.goes`).
A file that was written is found again by the path it was written to (`puts_of_writableAt`).
-/

namespace ImportSupply.FileTree

/-! ## Looking up what was put in -/

theorem lookup_cons_eq_if {nodes : List (Location × Node)} {key other : Location} {node : Node} :
    List.lookup other ((key, node) :: nodes) =
      if other = key then some node else nodes.lookup other := by
  by_cases same : other = key
  · simp [same]
  · rw [List.lookup_cons, beq_eq_false_iff_ne.mpr same, if_neg same]

theorem lookup_map_replace {nodes : List (Location × Node)} {location other : Location}
    {node : Node} :
    (nodes.map fun entry => if entry.1 == location then (location, node) else entry).lookup other =
      if other = location then (nodes.lookup location).map fun _ => node
      else nodes.lookup other := by
  induction nodes with
  | nil => simp
  | cons entry nodes ih =>
    obtain ⟨key, value⟩ := entry
    rw [List.map_cons]
    by_cases here : key = location
    · subst here
      rw [if_pos (beq_self_eq_true key), lookup_cons_eq_if, lookup_cons_eq_if, lookup_cons_eq_if, ih]
      by_cases same : other = key <;> simp [same]
    · have unchanged : ¬(key == location) = true := by simpa using here
      rw [if_neg unchanged, lookup_cons_eq_if, lookup_cons_eq_if, lookup_cons_eq_if, ih,
        if_neg (Ne.symm here)]
      by_cases same : other = location
      · rw [if_pos same, if_pos same, same, if_neg (Ne.symm here)]
      · rw [if_neg same, if_neg same]

@[simp]
theorem node?_nil (tree : FileTree) : tree.node? [] = some .directory :=
  rfl

theorem node?_of_ne_nil {tree : FileTree} {location : Location} (inner : location ≠ []) :
    tree.node? location = tree.nodes.lookup location := by
  rw [node?, if_neg (by simpa using inner)]

theorem node?_insert {tree : FileTree} {location : Location} {node : Node}
    (inner : location ≠ []) (other : Location) :
    (tree.insert location node).node? other =
      if other = location then some node else tree.node? other := by
  by_cases root : other = []
  · rw [root, if_neg (Ne.symm inner), node?_nil, node?_nil]
  rw [node?_of_ne_nil root, node?_of_ne_nil root, insert]
  split
  next present =>
    rw [lookup_map_replace]
    obtain ⟨old, found⟩ := Option.isSome_iff_exists.mp present
    rw [found, Option.map_some]
  next absent =>
    rw [Option.not_isSome_iff_eq_none] at absent
    rw [List.lookup_append]
    by_cases same : other = location
    · simp [same, absent]
    · rw [lookup_cons_eq_if, if_neg same, if_neg same, List.lookup_nil, Option.or_none]

/-! ## Growing -/

/-- A tree that keeps the directories and the links of another one, and its files as files; it has
no other links. -/
structure Grows (before after : FileTree) : Prop where
  directory {location : Location} :
    before.node? location = some .directory → after.node? location = some .directory
  link {location : Location} {target : String} :
    after.node? location = some (.link target) ↔ before.node? location = some (.link target)
  file {location : Location} {contents : Contents} :
    before.node? location = some (.file contents) →
      ∃ contents', after.node? location = some (.file contents')

/-- Where a node can be put: at a free place in a directory, or a file over a file. -/
inductive Puts (tree : FileTree) : Location → Node → Prop
  | made {parent : Location} {name : String} {node : Node} :
      tree.node? parent = some .directory → IsProper name → '/' ∉ name.toList →
      tree.node? (parent ++ [name]) = none → (∀ target, node ≠ .link target) →
      Puts tree (parent ++ [name]) node
  | renewed {location : Location} {old contents : Contents} :
      tree.node? location = some (.file old) → Puts tree location (.file contents)

namespace Grows

theorem refl (tree : FileTree) : Grows tree tree :=
  ⟨id, .rfl, fun found => ⟨_, found⟩⟩

theorem trans {before middle after : FileTree} (first : Grows before middle)
    (second : Grows middle after) : Grows before after where
  directory found := second.directory (first.directory found)
  link := second.link.trans first.link
  file found := by
    obtain ⟨_, found⟩ := first.file found
    exact second.file found

/-- A step on the way of a path is a step in a tree that grew. -/
theorem step {before after : FileTree} (grows : Grows before after) {course next : Course}
    (step : before.Step course next) : after.Step course next := by
  cases step with
  | stay here idle => exact .stay (grows.directory here) idle
  | up here => exact .up (grows.directory here)
  | @enter _ _ _ _ node here proper found noLink =>
    cases node with
    | directory => exact .enter (grows.directory here) proper (grows.directory found) noLink
    | file contents =>
      obtain ⟨_, found⟩ := grows.file found
      exact .enter (grows.directory here) proper found (by simp)
    | link target => exact absurd rfl (noLink target)
  | link here proper found => exact .link (grows.directory here) proper (grows.link.mpr found)

theorem goes {before after : FileTree} (grows : Grows before after) {course last : Course}
    (goes : before.Goes course last) : after.Goes course last :=
  Relation.ReflTransGen.mono (fun _ _ => grows.step) _ _ goes

end Grows

namespace Puts

variable {tree : FileTree} {location : Location} {node : Node}

theorem ne_nil (puts : tree.Puts location node) : location ≠ [] := by
  cases puts with
  | made => simp
  | renewed found =>
    rintro rfl
    cases found

theorem ne_link (puts : tree.Puts location node) (target : String) : node ≠ .link target := by
  cases puts with
  | made _ _ _ _ noLink => exact noLink target
  | renewed => simp

/-- What stands where a node can be put. -/
theorem place (puts : tree.Puts location node) :
    tree.node? location = none ∨
      ∃ old contents, tree.node? location = some (.file old) ∧ node = .file contents := by
  cases puts with
  | made _ _ _ absent _ => exact .inl absent
  | renewed found => exact .inr ⟨_, _, found, rfl⟩

theorem grows (puts : tree.Puts location node) : Grows tree (tree.insert location node) := by
  constructor
  -- at the place itself stood nothing, or a file that is written again
  · intro other found
    rw [node?_insert puts.ne_nil]
    split
    next same =>
      subst same
      rcases puts.place with absent | ⟨old, _, file, _⟩
      · rw [absent] at found
        cases found
      · rw [file] at found
        cases found
    next => exact found
  · intro other target
    rw [node?_insert puts.ne_nil]
    split
    next same =>
      subst same
      rw [Option.some.injEq, iff_false_left (puts.ne_link target)]
      rcases puts.place with absent | ⟨old, _, file, _⟩
      · simp [absent]
      · simp [file]
    next => exact .rfl
  · intro other contents found
    rw [node?_insert puts.ne_nil]
    split
    next same =>
      subst same
      rcases puts.place with absent | ⟨old, contents', _, rfl⟩
      · rw [absent] at found
        cases found
      · exact ⟨contents', rfl⟩
    next => exact ⟨contents, found⟩

end Puts

/-! ## Names without slashes -/

theorem not_mem_of_mem_components {path component : String} (member : component ∈ components path) :
    '/' ∉ component.toList := by
  obtain ⟨piece, inside, rfl⟩ := List.mem_map.mp member
  rw [String.toList_ofList]
  exact Text.not_mem_of_mem_splitOn inside

/-- The components on the way of a path have no slashes. -/
theorem Goes.no_slashes {tree : FileTree} {course last : Course} (goes : tree.Goes course last)
    (start : ∀ component ∈ course.ahead, '/' ∉ component.toList) :
    ∀ component ∈ last.ahead, '/' ∉ component.toList := by
  induction goes with
  | refl => exact start
  | tail _ step ih =>
    cases step with
    | stay => exact fun component member => ih component (List.mem_cons_of_mem _ member)
    | up => exact fun component member => ih component (List.mem_cons_of_mem _ member)
    | enter => exact fun component member => ih component (List.mem_cons_of_mem _ member)
    | link =>
      intro component member
      rcases List.mem_append.mp member with member | member
      · exact not_mem_of_mem_components member
      · exact ih component (List.mem_cons_of_mem _ member)

theorem exists_goes_of_resolve {tree : FileTree} {purpose : Purpose} {path : String} {spot : Spot}
    (leads : tree.resolve purpose path = .ok spot) :
    ∃ course, tree.Goes ⟨linkLimit, [], components path⟩ course ∧
      tree.Stops purpose course spot ∧ ∀ component ∈ course.ahead, '/' ∉ component.toList := by
  rw [resolve] at leads
  split_ifs at leads
  obtain ⟨course, goes, stops⟩ := exists_goes_of_follow leads
  exact ⟨course, goes, stops, goes.no_slashes fun _ => not_mem_of_mem_components⟩

/-- A free place that a path leads to is one where a node can be put. -/
theorem Stops.puts {tree : FileTree} {purpose : Purpose} {course : Course} {location : Location}
    {node : Node} (stops : tree.Stops purpose course (.free location))
    (bare : ∀ component ∈ course.ahead, '/' ∉ component.toList)
    (noLink : ∀ target, node ≠ .link target) : tree.Puts location node := by
  cases stops with
  | free here proper absent => exact .made here proper (bare _ List.mem_cons_self) absent noLink

/-! ## Making directories -/

/-- One directory made. -/
def MakesDirectory (before after : FileTree) : Prop :=
  ∃ location, before.Puts location .directory ∧ after = before.insert location .directory

/-- Directories made, one after the other. -/
abbrev MakesDirectories : FileTree → FileTree → Prop :=
  Relation.ReflTransGen MakesDirectory

theorem MakesDirectories.grows {before after : FileTree} (makes : MakesDirectories before after) :
    Grows before after := by
  induction makes with
  | refl => exact .refl before
  | tail _ made ih =>
    obtain ⟨location, puts, rfl⟩ := made
    exact ih.trans puts.grows

/-- Making directories changes nothing but places that were free. -/
theorem MakesDirectories.node?_eq {before after : FileTree} (makes : MakesDirectories before after)
    (location : Location) : after.node? location = before.node? location ∨
      before.node? location = none ∧ after.node? location = some .directory := by
  induction makes with
  | refl => exact .inl rfl
  | tail _ made ih =>
    obtain ⟨place, puts, rfl⟩ := made
    rw [node?_insert puts.ne_nil]
    split
    next same =>
      subst same
      rcases puts.place with absent | ⟨_, _, _, ⟨⟩⟩
      rw [absent] at ih
      rcases ih with kept | ⟨_, ⟨⟩⟩
      exact .inr ⟨kept.symm, rfl⟩
    next => exact ih

theorem makesDirectory_of_makeDirectory {tree made : FileTree} {path : String}
    (makes : tree.makeDirectory path = .ok made) : MakesDirectory tree made := by
  rw [makeDirectory] at makes
  split at makes
  next => cases makes
  next => cases makes
  next location leads =>
    obtain rfl := Except.ok.inj makes
    obtain ⟨course, -, stops, bare⟩ := exists_goes_of_resolve leads
    exact ⟨location, stops.puts bare (by simp), rfl⟩

theorem makesDirectories_makeMissing (tree : FileTree) (paths : List String) :
    MakesDirectories tree (tree.makeMissing paths).1 := by
  induction paths with
  | nil => exact .refl
  | cons path outer ih =>
    rw [makeMissing]
    split
    next made makes => exact .single (makesDirectory_of_makeDirectory makes)
    next =>
      split
      next made _ outermost =>
        rw [outermost] at ih
        exact ih
      next made outermost =>
        rw [outermost] at ih
        split
        next complete makes => exact ih.tail (makesDirectory_of_makeDirectory makes)
        next => exact ih
    next => exact .refl

/-! ## Writing files -/

/-- A file can be written where a path leads, and is then found there by the same path. -/
theorem puts_of_writableAt {tree : FileTree} {path : String} {location : Location}
    (writable : tree.writableAt path = .ok location) (contents : Contents) :
    tree.Puts location (.file contents) ∧
      (tree.insert location (.file contents)).resolve .visit path =
        .ok (.taken location (.file contents)) := by
  obtain ⟨spot, leads, spotted⟩ : ∃ spot, tree.resolve .write path = .ok spot ∧
      (spot = .free location ∨ ∃ old, spot = .taken location (.file old)) := by
    rw [writableAt] at writable
    split at writable
    next => cases writable
    next place leads =>
      obtain rfl := Except.ok.inj writable
      exact ⟨_, leads, .inl rfl⟩
    next place old leads =>
      obtain rfl := Except.ok.inj writable
      exact ⟨_, leads, .inr ⟨old, rfl⟩⟩
    next => cases writable
  obtain ⟨course, goes, stops, bare⟩ := exists_goes_of_resolve leads
  have puts : tree.Puts location (.file contents) := by
    rcases spotted with rfl | ⟨old, rfl⟩
    · exact stops.puts bare (by simp)
    · cases stops with
      | taken found => exact .renewed found
  refine ⟨puts, ?_⟩
  have found : (tree.insert location (.file contents)).node? location = some (.file contents) := by
    rw [node?_insert puts.ne_nil, if_pos rfl]
  -- The way to the place goes through directories and links only, and what is put there leaves them
  -- as they are.
  have again := puts.grows.goes goes
  rw [resolve] at leads ⊢
  split_ifs at leads ⊢
  rcases spotted with rfl | ⟨old, rfl⟩
  · cases stops with
    | free here proper _ _ only =>
      obtain rfl := only rfl
      have enters := again.tail (.enter (puts.grows.directory here) proper found (by simp))
      exact follow_of_goes enters (.taken found)
  · cases stops with
    | taken => exact follow_of_goes again (.taken found)

end ImportSupply.FileTree
