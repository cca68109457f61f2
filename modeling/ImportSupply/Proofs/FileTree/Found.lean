import ImportSupply.Proofs.FileTree.Revisiting
import ImportSupply.Proofs.FileTree.Sameness
import Mathlib.Data.List.Lex

/-!
# Which files a walk finds

What lies below a directory is said without a walk: a way leads from name to name through
directories, links being followed, to a file (`Finds`). A walk lists exactly the files that lie
below its start (`mem_walk_iff`), each once, and in increasing order of the ways to them
(`pairwise_walk`). So the order in which a tree lists its nodes does not show (`walk_congr`).
-/

namespace ImportSupply.FileTree

variable {tree other : FileTree} {start : String} {inside : List Location} {relative : List String}
  {location there : Location} {name : String} {node : Node} {file : FoundFile}

/-! ## Files below a directory -/

/-- From a location that the names `relative` lead to, in the directories `inside`, a file is found
by going on from name to name. -/
inductive Finds (tree : FileTree) (start : String) :
    List Location → List String → Location → FoundFile → Prop
  | file {inside : List Location} {relative : List String} {location there : Location}
      {name : String} {contents : Contents} :
      tree.Meets start inside relative location name there (.file contents) →
      Finds tree start inside relative location ⟨relative ++ [name], contents⟩
  | deeper {inside : List Location} {relative : List String} {location there : Location}
      {name : String} {file : FoundFile} :
      tree.Meets start inside relative location name there .directory →
      Finds tree start (there :: inside) (relative ++ [name]) there file →
      Finds tree start inside relative location file

/-- A file lies below the directory that a path leads to. -/
def HasFile (tree : FileTree) (path : String) (file : FoundFile) : Prop :=
  ∃ location, tree.resolve .visit path = .ok (.taken location .directory) ∧
    tree.Finds path [location] [] location file

theorem Meets.exists_node? (meets : tree.Meets start inside relative location name there node) :
    ∃ own, tree.node? (location ++ [name]) = some own := by
  cases meets with
  | own found _ _ => exact ⟨_, found⟩
  | link found _ _ => exact ⟨_, found⟩

theorem Meets.isName (wellFormed : tree.WellFormed)
    (meets : tree.Meets start inside relative location name there node) : IsName name := by
  obtain ⟨own, found⟩ := meets.exists_node?
  exact (wellFormed.of_node? found).2

theorem Meets.congr (same : tree.node? = other.node?)
    (meets : tree.Meets start inside relative location name there node) :
    other.Meets start inside relative location name there node := by
  cases meets with
  | own found noLink short => exact .own (same ▸ found) noLink short
  | link found leads outside => exact .link (same ▸ found) (resolve_congr same _ _ ▸ leads) outside

theorem Finds.congr (same : tree.node? = other.node?)
    (finds : tree.Finds start inside relative location file) :
    other.Finds start inside relative location file := by
  induction finds with
  | file meets => exact .file (meets.congr same)
  | deeper meets _ ih => exact .deeper (meets.congr same) ih

theorem hasFile_congr (same : tree.node? = other.node?) :
    tree.HasFile start file ↔ other.HasFile start file := by
  rw [HasFile, HasFile, resolve_congr same]
  exact ⟨fun has => has.imp fun _ both => ⟨both.1, both.2.congr same⟩,
    fun has => has.imp fun _ both => ⟨both.1, both.2.congr same.symm⟩⟩

/-- The path of a file that was found leads to it. -/
theorem Finds.exists_resolve_eq (wellFormed : tree.WellFormed)
    (finds : tree.Finds start inside relative location file)
    (arrives : tree.Arrives start relative location) :
    ∃ there, tree.resolve .visit (pathBelow start file.relative) =
      .ok (.taken there (.file file.contents)) := by
  induction finds with
  | file meets => exact ⟨_, meets.resolve_eq arrives (meets.isName wellFormed)⟩
  | deeper meets _ ih => exact ih (meets.arrives arrives (meets.isName wellFormed))

theorem HasFile.exists_resolve_eq (wellFormed : tree.WellFormed) (has : tree.HasFile start file) :
    ∃ there, tree.resolve .visit (pathBelow start file.relative) =
      .ok (.taken there (.file file.contents)) := by
  obtain ⟨location, leads, finds⟩ := has
  exact finds.exists_resolve_eq wellFormed (arrives_start leads)

/-! ## What a walk lists -/

theorem finds_of_mem_filesBelow (distinct : tree.keys.Nodup) {fuel : Nat}
    (member : file ∈ tree.filesBelow start fuel inside relative location) :
    tree.Finds start inside relative location file := by
  induction fuel generalizing inside relative location with
  | zero => cases member
  | succ fuel ih =>
    rw [filesBelow_succ distinct] at member
    obtain ⟨name, -, member⟩ := List.mem_flatMap.mp member
    rcases tree.filesAt_cases start inside relative location name with
      ⟨there, meets, finds⟩ | ⟨there, contents, meets, finds⟩ | finds
    · rw [finds] at member
      exact .deeper meets (ih member)
    · rw [finds] at member
      rw [List.mem_singleton.mp member]
      exact .file meets
    · rw [finds] at member
      cases member

theorem Meets.mem_filesBelow (distinct : tree.keys.Nodup) {fuel : Nat}
    (meets : tree.Meets start inside relative location name there node)
    (member : file ∈ tree.filesAt start fuel inside relative location name) :
    file ∈ tree.filesBelow start (fuel + 1) inside relative location := by
  obtain ⟨own, found⟩ := meets.exists_node?
  rw [filesBelow_succ distinct]
  exact List.mem_flatMap.mpr ⟨name, mem_names.mpr (mem_keys_of_node? (by simp) found), member⟩

theorem Finds.mem_filesBelow (distinct : tree.keys.Nodup)
    (finds : tree.Finds start inside relative location file) {fuel : Nat}
    (deep : tree.reach inside location < fuel) :
    file ∈ tree.filesBelow start fuel inside relative location := by
  induction finds generalizing fuel with
  | file meets =>
    obtain ⟨fuel, rfl⟩ := Nat.exists_eq_add_one.mpr (Nat.zero_lt_of_lt deep)
    apply meets.mem_filesBelow distinct
    rw [meets.filesAt_file]
    exact List.mem_singleton_self _
  | deeper meets _ ih =>
    obtain ⟨fuel, rfl⟩ := Nat.exists_eq_add_one.mpr (Nat.zero_lt_of_lt deep)
    apply meets.mem_filesBelow distinct
    rw [meets.filesAt_directory]
    have less := meets.reach_lt
    exact ih (by omega)

/-- A walk finds exactly the files below its start. -/
theorem mem_walk_iff (distinct : tree.keys.Nodup) :
    file ∈ tree.walk start ↔ tree.HasFile start file := by
  by_cases present : ∃ location, tree.resolve .visit start = .ok (.taken location .directory)
  · obtain ⟨location, leads⟩ := present
    rw [mem_walk leads]
    constructor
    · intro member
      exact ⟨location, leads, finds_of_mem_filesBelow distinct member⟩
    · rintro ⟨location', leads', finds⟩
      rw [leads] at leads'
      cases leads'
      exact finds.mem_filesBelow distinct (reach_lt_walkDepth (node?_of_resolve leads))
  · rw [walk_eq_nil present]
    constructor
    · intro member
      cases member
    · rintro ⟨location, leads, -⟩
      exact absurd ⟨location, leads⟩ present

/-! ## The order of a walk -/

theorem nodup_names (distinct : tree.keys.Nodup) (location : Location) :
    (tree.names location).Nodup := by
  refine List.Nodup.filterMap ?_ distinct
  intro key key' name first second
  split at first
  next other below =>
    split at second
    next other' below' =>
      obtain rfl := Option.some.inj first
      obtain rfl := Option.some.inj second
      rw [← List.isPrefixOf?_eq_some_iff_append_eq.mp below,
        ← List.isPrefixOf?_eq_some_iff_append_eq.mp below']
    next => cases second
  next => cases first

theorem exists_relative_of_mem_filesAt (distinct : tree.keys.Nodup) {fuel : Nat}
    (member : file ∈ tree.filesAt start fuel inside relative location name) :
    ∃ more, file.relative = relative ++ name :: more := by
  rcases tree.filesAt_cases start inside relative location name with
    ⟨there, meets, finds⟩ | ⟨there, contents, -, finds⟩ | finds
  · rw [finds] at member
    obtain ⟨next, more, way, -⟩ := exists_relative_of_mem_filesBelow distinct member
    exact ⟨next :: more, by rw [way]; simp⟩
  · rw [finds] at member
    rw [List.mem_singleton.mp member]
    exact ⟨[], rfl⟩
  · rw [finds] at member
    cases member

/-- No file is found twice by one way. -/
theorem nodup_filesBelow (distinct : tree.keys.Nodup) (start : String) (fuel : Nat)
    (inside : List Location) (relative : List String) (location : Location) :
    ((tree.filesBelow start fuel inside relative location).map FoundFile.relative).Nodup := by
  induction fuel generalizing inside relative location with
  | zero => exact List.nodup_nil
  | succ fuel ih =>
    rw [filesBelow_succ distinct, List.map_flatMap, List.nodup_flatMap]
    constructor
    · intro name _
      rcases tree.filesAt_cases start inside relative location name with
        ⟨there, -, finds⟩ | ⟨there, contents, -, finds⟩ | finds
      · rw [finds]
        exact ih _ _ _
      · rw [finds]
        exact List.nodup_singleton _
      · rw [finds]
        exact List.nodup_nil
    · -- ways through different names part there
      refine (nodup_names distinct location).imp fun differs way first second => ?_
      obtain ⟨file, found, rfl⟩ := List.mem_map.mp first
      obtain ⟨file', found', same⟩ := List.mem_map.mp second
      obtain ⟨more, way⟩ := exists_relative_of_mem_filesAt distinct found
      obtain ⟨more', way'⟩ := exists_relative_of_mem_filesAt distinct found'
      rw [way, way', List.append_cancel_left_eq, List.cons.injEq] at same
      exact differs same.1.symm

theorem lt_of_namesLe {way other : List String} (le : namesLe way other = true)
    (differs : way ≠ other) : way < other := by
  induction way generalizing other with
  | nil =>
    cases other with
    | nil => exact absurd rfl differs
    | cons b other => exact .nil
  | cons a way ih =>
    cases other with
    | nil => cases le
    | cons b other =>
      rcases namesLe_cons.mp le with less | ⟨rfl, below⟩
      · exact .rel less
      · exact .cons (ih below fun same => differs (by rw [same]))

/-- Ways that are sorted and different increase. -/
theorem pairwise_lt_of_nodup {ways : List (List String)}
    (sorted : ways.Pairwise fun a b => namesLe a b = true) (once : ways.Nodup) :
    ways.Pairwise (· < ·) :=
  (sorted.and once).imp fun both => lt_of_namesLe both.1 both.2

theorem pairwise_walk (distinct : tree.keys.Nodup) (start : String) :
    (tree.walk start).Pairwise fun a b => a.relative < b.relative := by
  by_cases present : ∃ location, tree.resolve .visit start = .ok (.taken location .directory)
  · obtain ⟨location, leads⟩ := present
    rw [walk, leads]
    refine List.pairwise_map.mp (pairwise_lt_of_nodup ?_ ?_)
    · exact List.pairwise_map.mpr (pairwise_mergeSort_relative _)
    · exact ((List.mergeSort_perm _ _).map _).nodup_iff.mpr (nodup_filesBelow distinct _ _ _ _ _)
  · rw [walk_eq_nil present]
    exact .nil

/-- Lists of the same files in increasing order of the ways to them are equal. -/
theorem files_eq_of_mem_iff {files files' : List FoundFile}
    (sorted : files.Pairwise fun a b => a.relative < b.relative)
    (sorted' : files'.Pairwise fun a b => a.relative < b.relative)
    (same : ∀ file, file ∈ files ↔ file ∈ files') : files = files' := by
  have irrefl : Std.Irrefl fun a b : FoundFile => a.relative < b.relative :=
    ⟨fun a => lt_irrefl a.relative⟩
  have antisymm : Std.Antisymm fun a b : FoundFile => a.relative < b.relative :=
    ⟨fun _ _ first second => absurd second (lt_asymm first)⟩
  exact sorted.eq_of_mem_iff sorted' same

/-- Walks of trees with the same nodes list the same. -/
theorem walk_congr (same : tree.node? = other.node?) (distinct : tree.keys.Nodup)
    (distinct' : other.keys.Nodup) (start : String) : tree.walk start = other.walk start := by
  refine files_eq_of_mem_iff (pairwise_walk distinct start) (pairwise_walk distinct' start) ?_
  intro file
  rw [mem_walk_iff distinct, mem_walk_iff distinct', hasFile_congr same]

/-! ## Trees that list their nodes in another order -/

theorem keys_perm (perm : other.nodes.Perm tree.nodes) : other.keys.Perm tree.keys :=
  perm.map _

theorem node?_eq_some_iff (distinct : tree.keys.Nodup) (inner : location ≠ []) :
    tree.node? location = some node ↔ (location, node) ∈ tree.nodes :=
  ⟨mem_nodes_of_node? inner, node?_of_mem_nodes distinct inner⟩

theorem node?_perm (distinct : tree.keys.Nodup) (perm : other.nodes.Perm tree.nodes) :
    tree.node? = other.node? := by
  have distinct' : other.keys.Nodup := (keys_perm perm).nodup_iff.mpr distinct
  funext location
  by_cases inner : location = []
  · rw [inner]
    rfl
  · ext node
    rw [node?_eq_some_iff distinct inner, node?_eq_some_iff distinct' inner, perm.mem_iff]

end ImportSupply.FileTree
