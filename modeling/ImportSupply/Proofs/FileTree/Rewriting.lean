import ImportSupply.FileTree.Change
import ImportSupply.Proofs.FileTree.Paths
import ImportSupply.Proofs.Path.Parent

/-!
# Writing to a file that is there

Where a path leads to a file, nothing has to be made for it: the directory that it lies in is there
(`exists_resolve_directoryOf`), making that again changes nothing
(`makeDirectories_of_isDirectory`), and a file is written to where it is read from
(`writableAt_of_resolve`). What a path says of its directory is told by the components that move
(`moves`): empty ones and dots may stand anywhere.
-/

namespace ImportSupply.FileTree

variable {tree : FileTree} {links left : Nat} {location place : Location} {path : List String}

/-! ## Components that move -/

/-- The components of a path that do not stay where they are. -/
def moves (path : List String) : List String :=
  path.filter fun component => !isIdle component

theorem Step.directory {course next : Course} (step : tree.Step course next) :
    tree.node? course.location = some .directory := by
  cases step <;> assumption

theorem directory_of_goes {course last : Course} (goes : tree.Goes course last)
    (here : tree.node? last.location = some .directory) :
    tree.node? course.location = some .directory := by
  rcases Relation.ReflTransGen.cases_head goes with rfl | ⟨next, step, -⟩
  · exact here
  · exact step.directory

/-- A way on which a component is left starts at a directory. -/
theorem directory_of_goes_cons {component : String}
    (goes : tree.Goes ⟨links, location, component :: path⟩ ⟨left, place, []⟩) :
    tree.node? location = some .directory := by
  rcases Relation.ReflTransGen.cases_head goes with same | ⟨next, step, -⟩
  · cases same
  · exact step.directory

theorem Goes.moves (goes : tree.Goes ⟨links, location, path⟩ ⟨left, place, []⟩) :
    tree.Goes ⟨links, location, FileTree.moves path⟩ ⟨left, place, []⟩ := by
  induction path generalizing links location with
  | nil => exact goes
  | cons component path ih =>
    rw [← List.singleton_append] at goes
    obtain ⟨between, middle, first, second⟩ := goes.exists_middle rfl
    rw [FileTree.moves, List.filter_cons]
    cases idle : isIdle component with
    | true =>
      obtain ⟨rfl, rfl⟩ := eq_of_goes_idle idle first
      exact ih second
    | false => exact (first.append _).trans (ih second)

/-- A way to a directory may stay where it is at any time. -/
theorem goes_of_moves (goes : tree.Goes ⟨links, location, moves path⟩ ⟨left, place, []⟩)
    (here : tree.node? place = some .directory) :
    tree.Goes ⟨links, location, path⟩ ⟨left, place, []⟩ := by
  induction path generalizing links location with
  | nil => exact goes
  | cons component path ih =>
    rw [moves, List.filter_cons] at goes
    cases idle : isIdle component with
    | true =>
      rw [idle] at goes
      exact .head (.stay (directory_of_goes goes here) idle) (ih goes)
    | false =>
      rw [idle] at goes
      rw [Bool.not_false, if_pos rfl, ← List.singleton_append] at goes
      obtain ⟨between, middle, first, second⟩ := goes.exists_middle rfl
      exact (first.append path).trans (ih second)

/-- A way that ends with slashes ends at a directory. -/
theorem directory_of_goes_idle (idle : ∀ component ∈ path, isIdle component = true)
    (some : path ≠ []) (goes : tree.Goes ⟨links, location, path⟩ ⟨left, place, []⟩) :
    tree.node? place = Option.some .directory := by
  have still := goes.moves
  rw [moves, List.filter_eq_nil_iff.mpr fun component member => by simp [idle component member]]
    at still
  rcases Relation.ReflTransGen.cases_head still with same | ⟨next, step, -⟩
  · cases same
    obtain ⟨component, rest, rfl⟩ := List.exists_cons_of_ne_nil some
    exact directory_of_goes_cons goes
  · cases step

/-! ## Following for another purpose -/

/-- What a path leads to can be looked at, be it a link on the way or the node itself. -/
theorem exists_follow_inspect {course : Course} {node : Node}
    (goes : tree.Goes course ⟨left, place, []⟩) (here : tree.node? place = some node) :
    ∃ spot found, tree.follow .inspect course.links course.location course.ahead =
      .ok (.taken spot found) := by
  induction goes using Relation.ReflTransGen.head_induction_on with
  | refl => exact ⟨place, node, follow_nil here⟩
  | @head course next step _ ih =>
    have bare : ¬(Purpose.inspect = .write ∧ areSlashes course.ahead.tail = true) := by
      rintro ⟨⟨⟩, -⟩
    rcases step.follow_eq_of_bare bare with same | ⟨-, spot, target, looked⟩
    · rwa [same]
    · exact ⟨spot, _, looked⟩

/-- A file is written to where it is read from. -/
theorem follow_write_of_goes {course : Course} {contents : Contents}
    (goes : tree.Goes course ⟨left, place, []⟩) (here : tree.node? place = some (.file contents)) :
    tree.follow .write course.links course.location course.ahead =
      .ok (.taken place (.file contents)) := by
  induction goes using Relation.ReflTransGen.head_induction_on with
  | refl => exact follow_nil here
  | @head course next step goes ih =>
    have bare : ¬(Purpose.write = .write ∧ areSlashes course.ahead.tail = true) := by
      rintro ⟨-, slashes⟩
      obtain ⟨links, location, ahead⟩ := course
      -- behind a name with slashes there would be a directory
      cases ahead with
      | nil => cases slashes
      | cons component rest =>
        rw [List.tail_cons, areSlashes, Bool.and_eq_true, Bool.not_eq_true', all_isEmpty_iff,
          List.isEmpty_eq_false_iff] at slashes
        have whole : tree.Goes ⟨links, location, [component] ++ rest⟩ ⟨left, place, []⟩ :=
          .head step goes
        obtain ⟨_, _, -, second⟩ := whole.exists_middle rfl
        have idle : ∀ component ∈ rest, isIdle component = true := by
          intro component member
          rw [slashes.2 component member]
          rfl
        have found := directory_of_goes_idle idle slashes.1 second
        rw [here] at found
        cases found
    rcases step.follow_eq_of_bare bare with same | ⟨⟨⟩, -⟩
    rw [same, ih]

theorem writableAt_of_resolve {file : String} {contents : Contents}
    (leads : tree.resolve .visit file = .ok (.taken location (.file contents))) :
    tree.writableAt file = .ok location := by
  obtain ⟨course, goes, stops, -⟩ := exists_goes_of_resolve leads
  have written : tree.resolve .write file = .ok (.taken location (.file contents)) := by
    rw [resolve] at leads ⊢
    split_ifs at leads ⊢
    cases stops with
    | taken here => exact follow_write_of_goes goes here
  rw [writableAt, written]

/-! ## The directory of a path -/

theorem moves_components (file : String) :
    moves (components file) = (Path.steps file.toList).map String.ofList := by
  have idle : (fun component => !isIdle component) ∘ String.ofList =
      fun component : List Char => !Path.isIdle component := by
    funext component
    have empty : String.ofList component = "" ↔ component = [] := by
      rw [← String.toList_inj, String.toList_ofList]
      rfl
    have dot : String.ofList component = "." ↔ component = ['.'] := by
      rw [← String.toList_inj, String.toList_ofList]
      rfl
    rw [Function.comp_apply, isIdle, Path.isIdle, Bool.eq_iff_iff]
    simp [empty, dot]
  rw [moves, components, List.filter_map, idle, Path.steps]

/-- A path that is no longer than another one and has none but its characters can be followed if
that can. -/
theorem resolve_of_isPrefix {front file : String} {purpose purpose' : Purpose} {spot : Spot}
    (before : front.toList <+: file.toList) (some : front ≠ "")
    (leads : tree.resolve purpose file = .ok spot) :
    tree.resolve purpose' front = tree.follow purpose' linkLimit [] (components front) := by
  obtain ⟨back, split⟩ := before
  have whole : file = front ++ String.ofList back := by
    rw [← String.toList_inj, ← split]
    simp
  rw [resolve] at leads
  split_ifs at leads with nul _ long
  have noNul : Char.ofNat 0 ∉ front.toList := by
    rw [← split, List.contains_eq_mem, decide_eq_true_eq, List.mem_append, not_or] at nul
    exact nul.1
  have short : front.utf8ByteSize < pathLimit := by
    rw [whole, String.utf8ByteSize_append] at long
    omega
  rw [resolve, if_neg (by simpa using noNul), if_neg (by simpa [String.isEmpty_iff] using some),
    if_neg (Nat.not_le.mpr short)]

/-- Where a path leads to a file, the directory that it lies in is there. -/
theorem exists_resolve_directoryOf {file directory : String} {contents : Contents}
    (leads : tree.resolve .visit file = .ok (.taken location (.file contents)))
    (isParent : directoryOf? file = some directory) :
    ∃ place, tree.resolve .visit directory = .ok (.taken place .directory) := by
  obtain ⟨parent, inner, parent_eq, rfl⟩ : ∃ parent, parent ≠ [] ∧
      Path.parent? file.toList = some parent ∧ directory = String.ofList parent := by
    rw [directoryOf?] at isParent
    split at isParent
    next c rest parent_eq => exact ⟨c :: rest, by simp, parent_eq, (Option.some.inj isParent).symm⟩
    next => cases isParent
  obtain ⟨course, goes, stops, -⟩ := exists_goes_of_resolve leads
  cases stops with
  | @taken left _ _ here =>
    obtain ⟨name, steps_eq⟩ := Path.exists_steps_eq_of_parent? inner parent_eq
    have moved := goes.moves
    have own : moves (components (String.ofList parent)) =
        (Path.steps parent).map String.ofList := by
      rw [moves_components, String.toList_ofList]
    rw [moves_components, steps_eq, List.map_append, ← own] at moved
    obtain ⟨between, place, first, second⟩ := moved.exists_middle rfl
    -- the last step leaves a directory, whatever it is
    have inside : tree.node? place = some .directory := directory_of_goes_cons second
    have front : (String.ofList parent).toList <+: file.toList := by
      rw [String.toList_ofList]
      exact Path.isPrefix_of_parent? inner parent_eq
    refine ⟨place, ?_⟩
    rw [resolve_of_isPrefix front (by simpa [← String.toList_inj] using inner) leads]
    exact follow_of_goes (goes_of_moves first inside) (.taken inside)

/-- What is looked at to see if a directory can be made: its path without slashes at the end. -/
theorem exists_placeFor_eq (directory : String) (some : directory ≠ "") :
    ∃ named : String, tree.placeFor directory = tree.resolve .inspect named ∧ named ≠ "" ∧
      named.toList <+: directory.toList ∧
      moves (components named) = moves (components directory) := by
  rw [placeFor]
  by_cases slashed : ((directory.toList.reverse.dropWhile (· == '/')).reverse).isEmpty = true
  · exact ⟨directory, by rw [if_pos slashed], some, List.prefix_refl _, rfl⟩
  · have split := @List.rdropWhile_append_rtakeWhile _ (· == '/') directory.toList
    have only : ∀ c ∈ directory.toList.rtakeWhile (· == '/'), c = '/' := by
      intro c member
      have accepted := List.mem_rtakeWhile_imp member
      exact eq_of_beq accepted
    refine ⟨String.ofList (directory.toList.rdropWhile (· == '/')), by rw [if_neg slashed]; rfl,
      ?_, ?_, ?_⟩
    · rw [List.isEmpty_iff] at slashed
      simpa [← String.toList_inj] using slashed
    · rw [String.toList_ofList]
      exact List.rdropWhile_prefix _ _
    · rw [moves_components, moves_components, String.toList_ofList]
      nth_rewrite 2 [← split]
      rw [Path.steps_append_slashes _ only]

theorem exists_placeFor_of_isDirectory {directory : String}
    (leads : tree.resolve .visit directory = .ok (.taken place .directory)) :
    ∃ spot node, tree.placeFor directory = .ok (.taken spot node) := by
  have some : directory ≠ "" := by
    rintro rfl
    cases leads
  obtain ⟨named, placeFor_eq, named_ne, before, same⟩ := @exists_placeFor_eq tree directory some
  obtain ⟨course, goes, stops, -⟩ := exists_goes_of_resolve leads
  cases stops with
  | taken here =>
    have moved := goes.moves
    rw [← same] at moved
    rw [placeFor_eq, resolve_of_isPrefix before named_ne leads]
    exact exists_follow_inspect (goes_of_moves moved here) here

/-- A directory that is there is not made again. -/
theorem makeDirectories_of_isDirectory {directory : String}
    (leads : tree.resolve .visit directory = .ok (.taken place .directory)) :
    tree.makeDirectories directory = (tree, .ok ()) := by
  have there : tree.isDirectory directory = true := by rw [isDirectory, leads]
  obtain ⟨spot, node, seen⟩ := exists_placeFor_of_isDirectory leads
  have taken : tree.makeDirectory directory = .error .alreadyExists := by rw [makeDirectory, seen]
  rw [makeDirectories, ancestors]
  split
  next => rfl
  split
  next => rfl
  next parent _ =>
    rw [List.map_cons, String.ofList_toList, makeMissing, taken]
    dsimp only
    rw [unlessDirectory, if_pos there]

end ImportSupply.FileTree
