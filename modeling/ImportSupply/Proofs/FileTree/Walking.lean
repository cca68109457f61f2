import ImportSupply.Proofs.FileTree.Paths
import Mathlib.Data.Finset.Card
import Mathlib.Data.List.Sort
import Mathlib.Data.String.Basic

/-!
# What a walk finds

Under each name in a directory a walk meets a node, a link being followed (`Meets`), and what it
finds there depends on that node (`filesAt_cases`). A walk never runs out of depth: whenever it goes
on, it goes to a directory farther from the root or, through a link, into one more directory
(`Meets.reach_lt`), so a deeper walk finds the same (`filesBelow_eq`). The way to a file tells the
file (`eq_of_relative_eq`), and so walks that find the same files list them in the same order
(`filter_mergeSort_eq`).
-/

namespace ImportSupply.FileTree

/-! ## Names in a directory -/

/-- The locations of a tree's nodes. -/
def keys (tree : FileTree) : List Location :=
  tree.nodes.map Prod.fst

/-- The names of the nodes right below a location. -/
def names (tree : FileTree) (location : Location) : List String :=
  tree.keys.filterMap fun key =>
    match location.isPrefixOf? key with
    | some [name] => some name
    | _ => none

variable {tree : FileTree} {start : String} {inside : List Location} {relative : List String}
  {location there : Location} {name : String}

theorem mem_nodes_of_node? {node : Node} (inner : location ≠ [])
    (found : tree.node? location = some node) : (location, node) ∈ tree.nodes := by
  rw [node?_of_ne_nil inner, List.lookup_eq_some_iff] at found
  obtain ⟨front, back, nodes_eq, -⟩ := found
  rw [nodes_eq]
  simp

theorem mem_keys_of_node? {node : Node} (inner : location ≠ [])
    (found : tree.node? location = some node) : location ∈ tree.keys :=
  List.mem_map_of_mem (mem_nodes_of_node? inner found)

theorem node?_of_mem_nodes (distinct : tree.keys.Nodup) {key : Location} {node : Node}
    (inner : key ≠ []) (member : (key, node) ∈ tree.nodes) : tree.node? key = some node := by
  obtain ⟨front, back, nodes_eq⟩ := List.append_of_mem member
  rw [node?_of_ne_nil inner, List.lookup_eq_some_iff]
  refine ⟨front, back, nodes_eq, fun other earlier => ?_⟩
  rw [keys, nodes_eq, List.map_append, List.nodup_append] at distinct
  have differs := distinct.2.2 other.1 (List.mem_map_of_mem earlier) key (by simp)
  simpa using differs.symm

theorem mem_names : name ∈ tree.names location ↔ location ++ [name] ∈ tree.keys := by
  rw [names, List.mem_filterMap]
  constructor
  · rintro ⟨key, member, named⟩
    split at named
    next other below =>
      obtain rfl := Option.some.inj named
      rwa [List.isPrefixOf?_eq_some_iff_append_eq.mp below]
    next => cases named
  · intro member
    refine ⟨location ++ [name], member, ?_⟩
    rw [List.isPrefixOf?_eq_some_iff_append_eq.mpr rfl]

theorem children_eq (distinct : tree.keys.Nodup) (location : Location) :
    tree.children location = (tree.names location).filterMap fun name =>
      (tree.node? (location ++ [name])).map fun node => (name, node) := by
  rw [children, names, keys, List.filterMap_map, List.filterMap_filterMap]
  refine List.filterMap_congr fun entry member => ?_
  obtain ⟨key, node⟩ := entry
  dsimp only [Function.comp]
  rcases below : location.isPrefixOf? key with _ | _ | ⟨name, _ | _⟩
  · rfl
  · rfl
  · obtain rfl := List.isPrefixOf?_eq_some_iff_append_eq.mp below
    dsimp only
    rw [Option.bind_some, node?_of_mem_nodes distinct (by simp) member, Option.map_some]
  · rfl

/-! ## What is met under a name -/

/-- What a walk meets under a name in a location: the node there, or what a link leads to, unless
that is a directory the walk is in. -/
inductive Meets (tree : FileTree) (start : String) (inside : List Location)
    (relative : List String) (location : Location) (name : String) : Location → Node → Prop
  | own {node : Node} : tree.node? (location ++ [name]) = some node →
      (∀ target, node ≠ .link target) →
      (pathBelow start (relative ++ [name])).utf8ByteSize < pathLimit →
      Meets tree start inside relative location name (location ++ [name]) node
  | link {target : String} {there : Location} {node : Node} :
      tree.node? (location ++ [name]) = some (.link target) →
      tree.resolve .visit (pathBelow start (relative ++ [name])) = .ok (.taken there node) →
      (node = .directory → there ∉ inside) →
      Meets tree start inside relative location name there node

/-- The files that a walk finds under a name. -/
def filesAt (tree : FileTree) (start : String) (fuel : Nat) (inside : List Location)
    (relative : List String) (location : Location) (name : String) : List FoundFile :=
  match tree.node? (location ++ [name]) with
  | none => []
  | some node =>
      match tree.spotOf (pathBelow start (relative ++ [name])) location (name, node) with
      | .ok (.taken _ (.file contents)) => [⟨relative ++ [name], contents⟩]
      | .ok (.taken there .directory) =>
          if node ≠ .directory ∧ inside.contains there then []
          else tree.filesBelow start fuel (there :: inside) (relative ++ [name]) there
      | _ => []

theorem filesBelow_succ (distinct : tree.keys.Nodup) (start : String) (fuel : Nat)
    (inside : List Location) (relative : List String) (location : Location) :
    tree.filesBelow start (fuel + 1) inside relative location =
      (tree.names location).flatMap (tree.filesAt start fuel inside relative location) := by
  rw [filesBelow, children_eq distinct, List.filterMap_eq_flatMap_toList, List.flatMap_assoc]
  refine List.flatMap_congr fun name _ => ?_
  rw [filesAt]
  cases tree.node? (location ++ [name]) with
  | none => rfl
  | some node => exact List.flatMap_singleton _ _

/-- What a walk meets that is no link is the node itself, unless its path is too long. -/
theorem filesAt_own {node : Node} (here : tree.node? (location ++ [name]) = some node)
    (noLink : ∀ target, node ≠ .link target) (fuel : Nat) :
    tree.filesAt start fuel inside relative location name =
      if pathLimit ≤ (pathBelow start (relative ++ [name])).utf8ByteSize then []
      else
        match node with
        | .file contents => [⟨relative ++ [name], contents⟩]
        | _ => tree.filesBelow start fuel ((location ++ [name]) :: inside) (relative ++ [name])
            (location ++ [name]) := by
  have spot : tree.spotOf (pathBelow start (relative ++ [name])) location (name, node) =
      if pathLimit ≤ (pathBelow start (relative ++ [name])).utf8ByteSize then .error .nameTooLong
      else .ok (.taken (location ++ [name]) node) := by
    cases node with
    | link target => exact absurd rfl (noLink target)
    | directory => rfl
    | file contents => rfl
  rw [filesAt, here]
  dsimp only
  rw [spot]
  by_cases long : pathLimit ≤ (pathBelow start (relative ++ [name])).utf8ByteSize
  · rw [if_pos long, if_pos long]
  · rw [if_neg long, if_neg long]
    cases node with
    | link target => exact absurd rfl (noLink target)
    | directory => exact if_neg fun both => both.1 rfl
    | file contents => rfl

theorem filesAt_link {target : String} (here : tree.node? (location ++ [name]) = some (.link target))
    (fuel : Nat) :
    tree.filesAt start fuel inside relative location name =
      match tree.resolve .visit (pathBelow start (relative ++ [name])) with
      | .ok (.taken _ (.file contents)) => [⟨relative ++ [name], contents⟩]
      | .ok (.taken there .directory) =>
          if inside.contains there then []
          else tree.filesBelow start fuel (there :: inside) (relative ++ [name]) there
      | _ => [] := by
  rw [filesAt, here]
  dsimp only [spotOf]
  split <;> simp

/-- What a walk finds under a name: all below a directory, one file, or nothing. -/
theorem filesAt_cases (tree : FileTree) (start : String) (inside : List Location)
    (relative : List String) (location : Location) (name : String) :
    (∃ there, tree.Meets start inside relative location name there .directory ∧
      ∀ fuel, tree.filesAt start fuel inside relative location name =
        tree.filesBelow start fuel (there :: inside) (relative ++ [name]) there) ∨
    (∃ there contents, tree.Meets start inside relative location name there (.file contents) ∧
      ∀ fuel, tree.filesAt start fuel inside relative location name =
        [⟨relative ++ [name], contents⟩]) ∨
    ∀ fuel, tree.filesAt start fuel inside relative location name = [] := by
  cases here : tree.node? (location ++ [name]) with
  | none => exact .inr (.inr fun fuel => by rw [filesAt, here])
  | some node =>
    by_cases isLink : ∃ target, node = .link target
    · obtain ⟨target, rfl⟩ := isLink
      have finds := @filesAt_link tree start inside relative location name target here
      split at finds
      next there contents leads => exact .inr (.inl ⟨there, contents, .link here leads (by simp), finds⟩)
      next there leads =>
        -- a link back into a directory that the walk is in is not followed
        by_cases again : inside.contains there = true
        · exact .inr (.inr fun fuel => (finds fuel).trans (if_pos again))
        · exact .inl ⟨there, .link here leads fun _ => by simpa using again,
            fun fuel => (finds fuel).trans (if_neg again)⟩
      next => exact .inr (.inr finds)
    · rw [not_exists] at isLink
      have finds := @filesAt_own tree start inside relative location name node here isLink
      by_cases long : pathLimit ≤ (pathBelow start (relative ++ [name])).utf8ByteSize
      · exact .inr (.inr fun fuel => (finds fuel).trans (if_pos long))
      · have meets : tree.Meets start inside relative location name (location ++ [name]) node :=
          .own here isLink (Nat.not_le.mp long)
        cases node with
        | link target => exact absurd rfl (isLink target)
        | directory => exact .inl ⟨_, meets, fun fuel => (finds fuel).trans (if_neg long)⟩
        | file contents =>
          exact .inr (.inl ⟨_, contents, meets, fun fuel => (finds fuel).trans (if_neg long)⟩)

namespace Meets

theorem node?_eq {node : Node} (meets : tree.Meets start inside relative location name there node) :
    tree.node? there = some node := by
  cases meets with
  | own found _ _ => exact found
  | link _ leads _ => exact node?_of_resolve leads

theorem filesAt_directory
    (meets : tree.Meets start inside relative location name there .directory) (fuel : Nat) :
    tree.filesAt start fuel inside relative location name =
      tree.filesBelow start fuel (there :: inside) (relative ++ [name]) there := by
  cases meets with
  | own here noLink short =>
    rw [filesAt_own here noLink]
    exact if_neg (Nat.not_le.mpr short)
  | link here leads outside =>
    rw [filesAt_link here, leads]
    exact if_neg (by simpa using outside rfl)

theorem filesAt_file {contents : Contents}
    (meets : tree.Meets start inside relative location name there (.file contents)) (fuel : Nat) :
    tree.filesAt start fuel inside relative location name = [⟨relative ++ [name], contents⟩] := by
  cases meets with
  | own here noLink short =>
    rw [filesAt_own here noLink]
    exact if_neg (Nat.not_le.mpr short)
  | link here leads _ => rw [filesAt_link here, leads]

end Meets

/-! ## The depth of a walk -/

/-- The locations that a walk can come to. -/
def locations (tree : FileTree) : Finset Location :=
  ([] :: tree.keys).toFinset

/-- How far a walk can still go from a location. -/
def reach (tree : FileTree) (inside : List Location) (location : Location) : Nat :=
  (tree.locations \ inside.toFinset).card * tree.locations.card +
    (tree.locations.filter fun other => location.length < other.length).card

theorem mem_locations {node : Node} (found : tree.node? location = some node) :
    location ∈ tree.locations := by
  rw [locations, List.mem_toFinset, List.mem_cons]
  by_cases root : location = []
  · exact .inl root
  · exact .inr (mem_keys_of_node? root found)

theorem card_deeper_lt (member : location ∈ tree.locations) :
    (tree.locations.filter fun other => location.length < other.length).card <
      tree.locations.card := by
  refine Finset.card_lt_card (Finset.filter_ssubset.mpr ⟨location, member, ?_⟩)
  exact Nat.lt_irrefl _

theorem card_locations_le (tree : FileTree) : tree.locations.card ≤ tree.nodes.length + 1 := by
  have bound : tree.locations.card ≤ ([] :: tree.keys).length := List.toFinset_card_le _
  rwa [List.length_cons, keys, List.length_map] at bound

/-- Where a walk goes on, it goes down or into a directory it was not in. -/
theorem Meets.reach_lt (meets : tree.Meets start inside relative location name there .directory) :
    tree.reach (there :: inside) there < tree.reach inside location := by
  have member := mem_locations meets.node?_eq
  have fewer : tree.locations \ (there :: inside).toFinset ⊆ tree.locations \ inside.toFinset := by
    rw [List.toFinset_cons]
    exact Finset.sdiff_subset_sdiff (Finset.Subset.refl _) (Finset.subset_insert _ _)
  -- The measure counts the locations that the walk is not in, then those that lie deeper. A name
  -- goes down, and a link goes into one of the former.
  cases meets with
  | own here =>
    have down : (tree.locations.filter fun other => (location ++ [name]).length < other.length).card <
        (tree.locations.filter fun other => location.length < other.length).card := by
      refine Finset.card_lt_card (Finset.ssubset_iff_of_subset ?_ |>.mpr ⟨location ++ [name], ?_, ?_⟩)
      · intro other inner
        rw [Finset.mem_filter, List.length_append, List.length_singleton] at inner
        exact Finset.mem_filter.mpr ⟨inner.1, by omega⟩
      · exact Finset.mem_filter.mpr ⟨member, by simp⟩
      · simp
    exact Nat.add_lt_add_of_le_of_lt (Nat.mul_le_mul_right _ (Finset.card_le_card fewer)) down
  | link _ _ outside =>
    have less : (tree.locations \ (there :: inside).toFinset).card <
        (tree.locations \ inside.toFinset).card := by
      refine Finset.card_lt_card (Finset.ssubset_iff_of_subset fewer |>.mpr ⟨there, ?_, ?_⟩)
      · exact Finset.mem_sdiff.mpr ⟨member, by simpa using outside rfl⟩
      · simp
    have inner := card_deeper_lt member
    have whole := Nat.mul_le_mul_right tree.locations.card less
    rw [Nat.succ_mul] at whole
    rw [reach, reach]
    omega

/-- Walks that are deep enough find the same. -/
theorem filesBelow_eq (distinct : tree.keys.Nodup) {fuel fuel' : Nat}
    (deep : tree.reach inside location < fuel) (deep' : tree.reach inside location < fuel') :
    tree.filesBelow start fuel inside relative location =
      tree.filesBelow start fuel' inside relative location := by
  induction fuel generalizing fuel' inside relative location with
  | zero => exact absurd deep (Nat.not_lt_zero _)
  | succ fuel ih =>
    cases fuel' with
    | zero => exact absurd deep' (Nat.not_lt_zero _)
    | succ fuel' =>
      rw [filesBelow_succ distinct, filesBelow_succ distinct]
      refine List.flatMap_congr fun name _ => ?_
      rcases tree.filesAt_cases start inside relative location name with
        ⟨there, meets, finds⟩ | ⟨there, contents, -, finds⟩ | finds
      · have less := meets.reach_lt
        rw [finds, finds]
        exact ih (by omega) (by omega)
      · rw [finds, finds]
      · rw [finds, finds]

/-- A walk is deep enough. -/
theorem reach_lt_walkDepth {node : Node} (here : tree.node? location = some node) :
    tree.reach [location] location < tree.walkDepth := by
  have member := mem_locations here
  have deeper := card_deeper_lt member
  have others : (tree.locations \ [location].toFinset).card < tree.locations.card :=
    Finset.card_lt_card (Finset.ssubset_iff_of_subset Finset.sdiff_subset |>.mpr
      ⟨location, member, by simp⟩)
  have product := Nat.mul_le_mul_right tree.locations.card others
  have square := Nat.mul_le_mul tree.card_locations_le tree.card_locations_le
  rw [Nat.succ_mul] at product
  rw [reach, walkDepth]
  omega

/-! ## The order of what is found -/

theorem exists_relative_of_mem_filesBelow (distinct : tree.keys.Nodup) {fuel : Nat}
    {file : FoundFile} (member : file ∈ tree.filesBelow start fuel inside relative location) :
    ∃ name more, file.relative = relative ++ name :: more ∧
      file ∈ tree.filesAt start (fuel - 1) inside relative location name := by
  induction fuel generalizing inside relative location with
  | zero => cases member
  | succ fuel ih =>
    rw [filesBelow_succ distinct] at member
    obtain ⟨name, -, member⟩ := List.mem_flatMap.mp member
    refine ⟨name, ?_⟩
    rcases tree.filesAt_cases start inside relative location name with
      ⟨there, meets, finds⟩ | ⟨there, contents, -, finds⟩ | finds
    · have below := member
      rw [finds] at below
      obtain ⟨next, more, way, -⟩ := ih below
      exact ⟨next :: more, by rw [way]; simp, member⟩
    · have found := member
      rw [finds] at found
      rw [List.mem_singleton.mp found]
      exact ⟨[], rfl, by rw [Nat.add_sub_cancel, finds]; exact List.mem_singleton_self _⟩
    · rw [finds] at member
      cases member

/-- The way to a file tells the file. -/
theorem eq_of_relative_eq (distinct : tree.keys.Nodup) {fuel : Nat} {file other : FoundFile}
    (member : file ∈ tree.filesBelow start fuel inside relative location)
    (member' : other ∈ tree.filesBelow start fuel inside relative location)
    (same : file.relative = other.relative) : file = other := by
  induction fuel generalizing inside relative location with
  | zero => cases member
  | succ fuel ih =>
    obtain ⟨name, more, way, found⟩ := exists_relative_of_mem_filesBelow distinct member
    obtain ⟨name', more', way', found'⟩ := exists_relative_of_mem_filesBelow distinct member'
    rw [way, way', List.append_cancel_left_eq, List.cons.injEq] at same
    obtain ⟨rfl, -⟩ := same
    rw [Nat.add_sub_cancel] at found found'
    rcases tree.filesAt_cases start inside relative location name with
      ⟨there, meets, finds⟩ | ⟨there, contents, -, finds⟩ | finds
    · rw [finds] at found found'
      exact ih found found'
    · rw [finds] at found found'
      rw [List.mem_singleton.mp found, List.mem_singleton.mp found']
    · rw [finds] at found
      cases found

theorem namesLe_cons {a b : String} {way other : List String} :
    namesLe (a :: way) (b :: other) = true ↔ a < b ∨ a = b ∧ namesLe way other = true := by
  rw [namesLe]
  by_cases same : a = b
  · simp [same]
  · simp [same, lt_iff_le_and_ne]

theorem namesLe_total (way other : List String) :
    namesLe way other = true ∨ namesLe other way = true := by
  induction way generalizing other with
  | nil => exact .inl (by simp [namesLe])
  | cons a way ih =>
    cases other with
    | nil => exact .inr (by simp [namesLe])
    | cons b other =>
      rw [namesLe_cons, namesLe_cons]
      rcases lt_trichotomy a b with less | rfl | greater
      · exact .inl (.inl less)
      · exact (ih other).imp (fun le => .inr ⟨rfl, le⟩) fun le => .inr ⟨rfl, le⟩
      · exact .inr (.inl greater)

theorem namesLe_trans {way other last : List String} (first : namesLe way other = true)
    (second : namesLe other last = true) : namesLe way last = true := by
  induction way generalizing other last with
  | nil => simp [namesLe]
  | cons a way ih =>
    cases other with
    | nil => cases first
    | cons b other =>
      cases last with
      | nil => cases second
      | cons c last =>
        rw [namesLe_cons] at first second ⊢
        rcases first with less | ⟨rfl, first⟩
        · rcases second with less' | ⟨rfl, -⟩
          · exact .inl (lt_trans less less')
          · exact .inl less
        · rcases second with less | ⟨rfl, second⟩
          · exact .inl less
          · exact .inr ⟨rfl, ih first second⟩

theorem namesLe_antisymm {way other : List String} (first : namesLe way other = true)
    (second : namesLe other way = true) : way = other := by
  induction way generalizing other with
  | nil =>
    cases other with
    | nil => rfl
    | cons b other => cases second
  | cons a way ih =>
    cases other with
    | nil => cases first
    | cons b other =>
      rw [namesLe_cons] at first second
      rcases first with less | ⟨rfl, first⟩
      · rcases second with less' | ⟨rfl, -⟩
        · exact absurd less' (lt_asymm less)
        · exact absurd less (lt_irrefl _)
      · rcases second with less | ⟨-, second⟩
        · exact absurd less (lt_irrefl _)
        · rw [ih first second]

/-- Sorted files are in increasing order of the ways to them. -/
theorem pairwise_mergeSort_relative (files : List FoundFile) :
    (files.mergeSort fun a b => namesLe a.relative b.relative).Pairwise
      fun a b => namesLe a.relative b.relative = true := by
  refine List.pairwise_mergeSort ?_ ?_ files
  · exact fun a b c => namesLe_trans
  · intro a b
    rw [Bool.or_eq_true]
    exact namesLe_total _ _

/-- Walks that find the same files of a kind list them in the same order. -/
theorem filter_mergeSort_eq {left right : List FoundFile} {counts : FoundFile → Bool}
    (same : left.filter counts = right.filter counts)
    (told : ∀ file ∈ left, ∀ other ∈ left, file.relative = other.relative → file = other) :
    (left.mergeSort fun a b => namesLe a.relative b.relative).filter counts =
      (right.mergeSort fun a b => namesLe a.relative b.relative).filter counts := by
  have sorted (files : List FoundFile) :
      ((files.mergeSort fun a b => namesLe a.relative b.relative).filter counts).Pairwise
        fun a b => namesLe a.relative b.relative = true :=
    (pairwise_mergeSort_relative files).filter _
  have perm (files : List FoundFile) :
      ((files.mergeSort fun a b => namesLe a.relative b.relative).filter counts).Perm
        (files.filter counts) :=
    (List.mergeSort_perm files _).filter counts
  refine List.Perm.eq_of_pairwise (fun a b inLeft inRight first second => ?_) (sorted left)
    (sorted right) ((perm left).trans (same ▸ (perm right).symm))
  have member := List.mem_of_mem_filter ((perm left).mem_iff.mp inLeft)
  have member' := List.mem_of_mem_filter (same.symm ▸ (perm right).mem_iff.mp inRight)
  exact told a member b member' (namesLe_antisymm first second)

end ImportSupply.FileTree
