import ImportSupply.Proofs.FileTree.Walking

/-!
# Walking a tree that grew

A tree is extended by directories and by files whose contents do not count (`Extends`). A walk of
the extended tree then finds the files that count of the tree before, no others and in the same
order (`filter_filesBelow_eq`), whether or not it comes upon what was added. Two things could stand
in the way and are ruled out: a file that counts was written over, or a link that led nowhere, or
passed what was missing, now leads to something that was there before (`Reveals`).
-/

namespace ImportSupply.FileTree

/-! ## Well-formed trees -/

/-- A name that a node can have. -/
structure IsName (name : String) : Prop extends IsProper name where
  noSlash : '/' ∉ name.toList
  noNul : Char.ofNat 0 ∉ name.toList

/-- A tree whose nodes stand in directories, each at a location of its own. -/
structure WellFormed (tree : FileTree) : Prop where
  distinct : tree.keys.Nodup
  placed : ∀ key ∈ tree.keys, ∃ parent name, key = parent ++ [name] ∧
    tree.node? parent = some .directory ∧ IsName name

theorem WellFormed.of_node? {tree : FileTree} (wellFormed : tree.WellFormed) {location : Location}
    {name : String} {node : Node} (found : tree.node? (location ++ [name]) = some node) :
    tree.node? location = some .directory ∧ IsName name := by
  obtain ⟨parent, last, same, here, isName⟩ :=
    wellFormed.placed _ (mem_keys_of_node? (by simp) found)
  obtain ⟨rfl, rfl⟩ := List.append_singleton_inj.mp same
  exact ⟨here, isName⟩

/-- Whether a tree is well-formed is told from its list of nodes. -/
theorem wellFormed_iff {tree : FileTree} : tree.WellFormed ↔ tree.keys.Nodup ∧
    ∀ key ∈ tree.keys, key ≠ [] ∧ tree.node? key.dropLast = some .directory ∧
      ∀ name ∈ key.getLast?, IsName name := by
  constructor
  · intro wellFormed
    refine ⟨wellFormed.distinct, fun key member => ?_⟩
    obtain ⟨parent, name, rfl, here, isName⟩ := wellFormed.placed key member
    simpa using ⟨here, isName⟩
  · rintro ⟨distinct, placed⟩
    refine ⟨distinct, fun key member => ?_⟩
    obtain ⟨inner, here, isName⟩ := placed key member
    exact ⟨key.dropLast, key.getLast inner, (List.dropLast_append_getLast inner).symm, here,
      isName _ (List.getLast?_eq_some_getLast inner)⟩

instance (name : String) : Decidable (IsName name) :=
  decidable_of_iff
    ((isIdle name = false ∧ name ≠ ".." ∧ name.utf8ByteSize ≤ nameLimit) ∧
      '/' ∉ name.toList ∧ Char.ofNat 0 ∉ name.toList)
    ⟨fun ⟨⟨moves, down, short⟩, noSlash, noNul⟩ => ⟨⟨moves, down, short⟩, noSlash, noNul⟩,
      fun ⟨⟨moves, down, short⟩, noSlash, noNul⟩ => ⟨⟨moves, down, short⟩, noSlash, noNul⟩⟩

instance (tree : FileTree) : Decidable tree.WellFormed :=
  decidable_of_iff _ wellFormed_iff.symm

/-! ## Extensions -/

/-- A tree with more directories, and with new files or new contents of files, all of them dull. -/
structure Extends (dull : Contents → Prop) (before after : FileTree) : Prop where
  grows : Grows before after
  keys : before.keys <+: after.keys
  distinct : before.keys.Nodup → after.keys.Nodup
  nodes (location : Location) : after.node? location = before.node? location ∨
    after.node? location = some .directory ∨
      ∃ contents, dull contents ∧ after.node? location = some (.file contents)

theorem keys_insert (tree : FileTree) (location : Location) (node : Node) :
    (tree.insert location node).keys =
      if location ∈ tree.keys then tree.keys else tree.keys ++ [location] := by
  have listed : (tree.nodes.lookup location).isSome = true ↔ location ∈ tree.keys := by
    rw [← not_iff_not, Option.not_isSome_iff_eq_none, List.lookup_eq_none_iff, keys, List.mem_map]
    constructor
    · rintro absent ⟨entry, member, rfl⟩
      simpa using absent entry member
    · intro absent entry member
      rw [bne_iff_ne]
      rintro rfl
      exact absent ⟨entry, member, rfl⟩
  rw [insert]
  -- a node that is put where one stands keeps its place in the list
  split
  next present =>
    rw [if_pos (listed.mp present), keys, keys, List.map_map]
    refine List.map_congr_left fun entry _ => ?_
    dsimp only [Function.comp]
    split
    next same => exact (eq_of_beq same).symm
    next => rfl
  next absent =>
    rw [if_neg fun member => absent (listed.mpr member), keys, keys, List.map_append]
    rfl

namespace Extends

variable {dull : Contents → Prop}

theorem refl (tree : FileTree) : Extends dull tree tree :=
  ⟨.refl tree, List.prefix_refl _, id, fun _ => .inl rfl⟩

theorem trans {before middle after : FileTree} (first : Extends dull before middle)
    (second : Extends dull middle after) : Extends dull before after where
  grows := first.grows.trans second.grows
  keys := first.keys.trans second.keys
  distinct := second.distinct ∘ first.distinct
  nodes location := by
    rcases second.nodes location with kept | added
    · rw [kept]
      exact first.nodes location
    · exact .inr added

/-- What is put into a tree extends it. -/
theorem of_puts {tree : FileTree} {location : Location} {node : Node}
    (puts : tree.Puts location node) (allowed : ∀ contents, node = .file contents → dull contents) :
    Extends dull tree (tree.insert location node) where
  grows := puts.grows
  keys := by
    rw [keys_insert]
    split
    · exact List.prefix_refl _
    · exact List.prefix_append _ _
  distinct nodup := by
    rw [keys_insert]
    split
    next => exact nodup
    next absent => exact nodup.append (List.nodup_singleton _) (by simpa using absent)
  nodes other := by
    rw [node?_insert puts.ne_nil]
    split
    next =>
      cases node with
      | directory => exact .inr (.inl rfl)
      | file contents => exact .inr (.inr ⟨contents, allowed contents rfl, rfl⟩)
      | link target => exact absurd rfl (puts.ne_link target)
    next => exact .inl rfl

theorem of_makesDirectories {before after : FileTree} (makes : MakesDirectories before after) :
    Extends dull before after := by
  induction makes with
  | refl => exact .refl before
  | tail _ made ih =>
    obtain ⟨location, puts, rfl⟩ := made
    exact ih.trans (.of_puts puts (by simp))

/-- A file that is new, or has new contents, is dull. -/
theorem dull_of_ne {tree after : FileTree} (extension : Extends dull tree after)
    {location : Location} {contents : Contents} (changed : after.node? location ≠ tree.node? location)
    (found : after.node? location = some (.file contents)) : dull contents := by
  rcases extension.nodes location with kept | directory | ⟨contents', isDull, file⟩
  · exact absurd kept changed
  · rw [found] at directory
    cases directory
  · rw [found] at file
    cases file
    exact isDull

end Extends

/-! ## The way of a walk -/

/-- Where a path leads, if it leads to a node. -/
def locationOf? (tree : FileTree) (path : String) : Option Location :=
  match tree.resolve .visit path with
  | .ok (.taken location _) => some location
  | _ => none

/-- A walk from a start has come to a location by some names. -/
structure Arrives (tree : FileTree) (start : String) (relative : List String)
    (location : Location) : Prop where
  here : tree.node? location = some .directory
  goes : ∃ left, tree.Goes ⟨linkLimit, [], base start ++ relative⟩ ⟨left, location, []⟩
  noNul : Char.ofNat 0 ∉ start.toList
  names : ∀ name ∈ relative, IsName name

section

variable {tree after : FileTree} {start : String} {inside : List Location} {relative : List String}
  {location there : Location} {name : String} {node : Node}

/-- The path of a name is followed from where the walk is. -/
theorem Arrives.exists_follow_eq (arrives : tree.Arrives start relative location)
    (isName : IsName name) :
    ∃ left ≤ linkLimit, ∀ after, Grows tree after →
      after.follow .visit linkLimit [] (components (pathBelow start (relative ++ [name]))) =
        after.follow .visit left location [name] := by
  obtain ⟨left, goes⟩ := arrives.goes
  have split : components (pathBelow start (relative ++ [name])) =
      base start ++ relative ++ [name] := by
    rw [components_pathBelow start (by simp), List.append_assoc]
    intro other member
    rcases List.mem_append.mp member with member | member
    · exact (arrives.names other member).noSlash
    · rw [List.mem_singleton.mp member]
      exact isName.noSlash
  refine ⟨left, goes.links_le, fun after grows => ?_⟩
  rw [split]
  exact ((grows.goes goes).append [name]).follow_eq

/-- A path that is not too long is followed from where the walk is. -/
theorem Arrives.resolve_eq (arrives : tree.Arrives start relative location)
    (isName : IsName name)
    (short : (pathBelow start (relative ++ [name])).utf8ByteSize < pathLimit) :
    tree.resolve .visit (pathBelow start (relative ++ [name])) =
      tree.follow .visit linkLimit [] (components (pathBelow start (relative ++ [name]))) := by
  have front : Char.ofNat 0 ∉ unslashed start := by
    intro member
    apply arrives.noNul
    rw [unslashed] at member
    split at member
    · exact List.mem_of_mem_dropLast member
    · exact member
  have names : ∀ part ∈ (relative ++ [name]).map String.toList, ∀ c ∈ part,
      (c != Char.ofNat 0) = true := by
    intro part mapped c inside
    obtain ⟨other, member, rfl⟩ := List.mem_map.mp mapped
    rw [bne_iff_ne]
    rintro rfl
    rcases List.mem_append.mp member with member | member
    · exact (arrives.names other member).noNul inside
    · rw [List.mem_singleton.mp member] at inside
      exact isName.noNul inside
  have slash : ∀ c ∈ ['/'], (c != Char.ofNat 0) = true := List.forall_mem_singleton.mpr (by decide)
  have joined := Text.forall_mem_intercalate slash names
  have noNul : Char.ofNat 0 ∉ (pathBelow start (relative ++ [name])).toList := by
    rw [toList_pathBelow, List.mem_append, List.mem_cons, not_or, not_or]
    exact ⟨front, by decide, fun member => absurd (joined _ member) (by decide)⟩
  have nonempty : (pathBelow start (relative ++ [name])).isEmpty = false := by
    rw [← Bool.not_eq_true, String.isEmpty_iff, ← String.toList_inj, toList_pathBelow]
    simp
  rw [resolve, if_neg (by simpa using noNul), if_neg (by simp [nonempty]),
    if_neg (Nat.not_le.mpr short)]

theorem match_taken_eq_some_iff {result : Except Trouble Spot} :
    (match result with
      | .ok (.taken location _) => some location
      | _ => none) = some there ↔ ∃ node, result = .ok (.taken there node) := by
  constructor
  · intro leads
    split at leads
    next place node =>
      obtain rfl := Option.some.inj leads
      exact ⟨node, rfl⟩
    next => cases leads
  · rintro ⟨node, rfl⟩
    rfl

theorem locationOf?_eq_some_iff {path : String} :
    tree.locationOf? path = some there ↔
      ∃ node, tree.resolve .visit path = .ok (.taken there node) :=
  match_taken_eq_some_iff

/-- What the walk meets is where the path leads. -/
theorem Meets.resolve_eq (arrives : tree.Arrives start relative location) (isName : IsName name)
    (meets : tree.Meets start inside relative location name there node) :
    tree.resolve .visit (pathBelow start (relative ++ [name])) = .ok (.taken there node) := by
  cases meets with
  | link _ leads _ => exact leads
  | own found noLink short =>
    obtain ⟨left, -, follow_eq⟩ := arrives.exists_follow_eq isName
    rw [arrives.resolve_eq isName short, follow_eq tree (.refl tree)]
    exact follow_of_goes (.single (.enter arrives.here isName.toIsProper found noLink)) (.taken found)

/-- Where the walk goes on, it has arrived. -/
theorem Meets.arrives (arrives : tree.Arrives start relative location) (isName : IsName name)
    (meets : tree.Meets start inside relative location name there .directory) :
    tree.Arrives start (relative ++ [name]) there := by
  have names : ∀ other ∈ relative ++ [name], IsName other := by
    intro other member
    rcases List.mem_append.mp member with member | member
    · exact arrives.names other member
    · rw [List.mem_singleton.mp member]
      exact isName
  obtain ⟨course, goes, stops, -⟩ := exists_goes_of_resolve (meets.resolve_eq arrives isName)
  rw [components_pathBelow start (by simp) fun other member => (names other member).noSlash] at goes
  cases stops with
  | @taken left _ _ here => exact ⟨here, ⟨left, goes⟩, arrives.noNul, names⟩

/-- A walk has arrived at its start. -/
theorem arrives_start (leads : tree.resolve .visit start = .ok (.taken location .directory)) :
    tree.Arrives start [] location := by
  obtain ⟨course, goes, stops, -⟩ := exists_goes_of_resolve leads
  have noNul : Char.ofNat 0 ∉ start.toList := by
    rw [resolve] at leads
    split_ifs at leads with nul
    simpa using nul
  cases stops with
  | @taken left _ _ here =>
    exact ⟨here, ⟨left, by rw [List.append_nil]; exact goes_base goes⟩, noNul, by simp⟩

/-! ## What is met in a tree that grew -/

/-- What a node can become when a tree grows. -/
inductive Becomes : Node → Node → Prop
  | directory : Becomes .directory .directory
  | link (target : String) : Becomes (.link target) (.link target)
  | file (old new : Contents) : Becomes (.file old) (.file new)

theorem Grows.exists_becomes (grows : Grows tree after) (found : tree.node? location = some node) :
    ∃ node', after.node? location = some node' ∧ Becomes node node' := by
  cases node with
  | directory => exact ⟨_, grows.directory found, .directory⟩
  | link target => exact ⟨_, grows.link.mpr found, .link target⟩
  | file old =>
    obtain ⟨new, found⟩ := grows.file found
    exact ⟨_, found, .file old new⟩

theorem Grows.becomes {old : Node} (grows : Grows tree after) (was : tree.node? location = some old)
    (found : after.node? location = some node) : Becomes old node := by
  obtain ⟨node', found', becomes⟩ := grows.exists_becomes was
  obtain rfl := Option.some.inj (found.symm.trans found')
  exact becomes

/-- A path that led to a node leads to what became of it. -/
theorem Grows.exists_resolve_eq (grows : Grows tree after) {path : String}
    (leads : tree.resolve .visit path = .ok (.taken there node)) :
    ∃ node', after.resolve .visit path = .ok (.taken there node') ∧ Becomes node node' := by
  obtain ⟨course, goes, stops, -⟩ := exists_goes_of_resolve leads
  cases stops with
  | taken found =>
    obtain ⟨node', found', becomes⟩ := grows.exists_becomes found
    refine ⟨node', ?_, becomes⟩
    rw [resolve] at leads ⊢
    split_ifs at leads ⊢
    exact follow_of_goes (grows.goes goes) (.taken found')
  | link inspects => cases inspects

/-- What the walk met it meets again. -/
theorem Meets.exists_of_grows (grows : Grows tree after)
    (meets : tree.Meets start inside relative location name there node) :
    ∃ node', after.Meets start inside relative location name there node' ∧ Becomes node node' := by
  cases meets with
  | own found noLink short =>
    obtain ⟨node', found', becomes⟩ := grows.exists_becomes found
    refine ⟨node', .own found' (fun target => ?_) short, becomes⟩
    rintro rfl
    cases becomes
    exact noLink target rfl
  | link found leads outside =>
    obtain ⟨node', leads', becomes⟩ := grows.exists_resolve_eq leads
    refine ⟨node', .link (grows.link.mpr found) leads' ?_, becomes⟩
    rintro rfl
    cases becomes
    exact outside rfl

/-- Where a path leads that is followed from a location, if it leads to a node. -/
def leadsTo? (tree : FileTree) (location : Location) (path : List String) : Option Location :=
  match tree.follow .visit linkLimit location path with
  | .ok (.taken there _) => some there
  | _ => none

theorem leadsTo?_eq_some_iff {path : List String} :
    tree.leadsTo? location path = some there ↔
      ∃ node, tree.follow .visit linkLimit location path = .ok (.taken there node) :=
  match_taken_eq_some_iff

/-- A path that is followed from a location now leads to a node that was there before, but to which
it did not lead. -/
def Reveals (before after : FileTree) (location : Location) (path : List String) : Prop :=
  ∃ there, after.leadsTo? location path = some there ∧ before.node? there ≠ none ∧
    before.leadsTo? location path ≠ some there

instance (before after : FileTree) (location : Location) (path : List String) :
    Decidable (Reveals before after location path) :=
  decidable_of_iff
    ((after.leadsTo? location path).any (fun there => decide (before.node? there ≠ none ∧
      before.leadsTo? location path ≠ some there)) = true)
    (by rw [Option.any_eq_true]; simp [Reveals])

/-- No link that a walk comes upon leads now to a node that was there before, but to which it did
not lead. -/
def LinksSteady (before after : FileTree) (start : String) : Prop :=
  ∀ relative location name target, before.Arrives start relative location →
    before.node? (location ++ [name]) = some (.link target) →
      ¬Reveals before after (linkBase location target) (components target)

/-- What a path that reveals nothing leads to is fresh, or it led there before. -/
theorem exists_follow_of_not_reveals {path : List String}
    (steady : ¬Reveals tree after location path) (old : tree.node? there ≠ none)
    (leads : after.follow .visit linkLimit location path = .ok (.taken there node)) :
    ∃ node', tree.follow .visit linkLimit location path = .ok (.taken there node') := by
  rw [← leadsTo?_eq_some_iff]
  by_contra elsewhere
  exact steady ⟨there, leadsTo?_eq_some_iff.mpr ⟨node, leads⟩, old, elsewhere⟩

/-- The path of a link that reveals nothing led before to what it leads to now, unless that is fresh. -/
theorem Arrives.exists_resolve_of_link (grows : Grows tree after)
    (arrives : tree.Arrives start relative location) (isName : IsName name) {target : String}
    (found : tree.node? (location ++ [name]) = some (.link target))
    (steady : ¬Reveals tree after (linkBase location target) (components target))
    (old : tree.node? there ≠ none)
    (leads : after.resolve .visit (pathBelow start (relative ++ [name])) = .ok (.taken there node)) :
    ∃ node', tree.resolve .visit (pathBelow start (relative ++ [name])) = .ok (.taken there node') ∧
      Becomes node' node := by
  obtain ⟨left, most, follow_eq⟩ := arrives.exists_follow_eq isName
  have follows : after.follow .visit left location [name] = .ok (.taken there node) := by
    rw [← follow_eq after grows]
    rw [resolve] at leads
    split_ifs at leads
    exact leads
  cases left with
  | zero =>
    rw [follow_zero_link (grows.directory arrives.here) isName.toIsProper (grows.link.mpr found)]
      at follows
    cases follows
  | succ left =>
    have step : tree.Step ⟨left + 1, location, [name]⟩
        ⟨left, linkBase location target, components target ++ []⟩ :=
      .link arrives.here isName.toIsProper found
    rw [(grows.step step).follow_eq, List.append_nil] at follows
    dsimp only at follows
    -- With all links left the target led there before, so it did with as many as are left here.
    have full := follow_add_links follows (linkLimit - left)
    rw [Nat.add_sub_cancel' (by omega)] at full
    obtain ⟨node', before⟩ := exists_follow_of_not_reveals steady old full
    obtain ⟨course, goes, stops⟩ := exists_goes_of_follow before
    cases stops with
    | link inspects => cases inspects
    | taken was =>
      refine ⟨node', ?_, grows.becomes was (node?_of_resolve leads)⟩
      obtain ⟨rest, goes⟩ := goes.exists_links grows follows
      rw [resolve] at leads ⊢
      split_ifs at leads ⊢
      rw [follow_eq tree (.refl tree), step.follow_eq, List.append_nil]
      exact follow_of_goes goes (.taken was)

/-- What the walk meets now it met before, or it was not there. -/
theorem Meets.exists_or_fresh (grows : Grows tree after)
    (links : tree.LinksSteady after start)
    (arrives : tree.Arrives start relative location) (isName : IsName name)
    (meets : after.Meets start inside relative location name there node) :
    (∃ old, tree.Meets start inside relative location name there old ∧ Becomes old node) ∨
      tree.node? there = none := by
  -- Either the place is new, or it could be met before; a link that was there leads where it led,
  -- as nothing is revealed along it.
  cases was : tree.node? there with
  | none => exact .inr rfl
  | some old =>
    left
    cases meets with
    | own found noLink short =>
      have becomes := grows.becomes was found
      refine ⟨old, .own was (fun target => ?_) short, becomes⟩
      rintro rfl
      cases becomes
      exact noLink target rfl
    | @link target _ _ found leads outside =>
      have found' := grows.link.mp found
      obtain ⟨node', leads', becomes⟩ := arrives.exists_resolve_of_link grows isName found'
        (links relative location name target arrives found') (by simp [was]) leads
      refine ⟨node', .link found' leads' ?_, becomes⟩
      rintro rfl
      cases becomes
      exact outside rfl

end

/-! ## What counts -/

section

variable {dull : Contents → Prop} {tree after : FileTree} {counts : FoundFile → Bool}
  {start : String}

/-- Nothing that counts is found under a name that was free. -/
theorem filter_filesAt_of_fresh (extension : Extends dull tree after)
    (blind : ∀ file, dull file.contents → counts file = false) {fuel : Nat}
    (below : ∀ inside relative location, tree.node? location = none →
      (after.filesBelow start fuel inside relative location).filter counts = [])
    (inside : List Location) (relative : List String) {location : Location} {name : String}
    (fresh : tree.node? (location ++ [name]) = none) :
    (after.filesAt start fuel inside relative location name).filter counts = [] := by
  -- growing adds no links, so what is new is met itself
  have noLink {target : String} : after.node? (location ++ [name]) ≠ some (.link target) := by
    intro found
    rw [extension.grows.link, fresh] at found
    cases found
  rcases after.filesAt_cases start inside relative location name with
    ⟨there, meets, finds⟩ | ⟨there, contents, meets, finds⟩ | finds
  · rw [finds]
    cases meets with
    | own => exact below _ _ _ fresh
    | link found => exact absurd found noLink
  · rw [finds]
    cases meets with
    | own found =>
      have ignored := blind ⟨relative ++ [name], contents⟩
        (extension.dull_of_ne (by simp [fresh, found]) found)
      simp [ignored]
    | link found => exact absurd found noLink
  · rw [finds, List.filter_nil]

/-- Nothing that counts is found below a location that was free. -/
theorem filter_filesBelow_of_fresh (wellFormed : tree.WellFormed)
    (extension : Extends dull tree after)
    (blind : ∀ file, dull file.contents → counts file = false) {fuel : Nat}
    (inside : List Location) (relative : List String) {location : Location}
    (fresh : tree.node? location = none) :
    (after.filesBelow start fuel inside relative location).filter counts = [] := by
  induction fuel generalizing inside relative location with
  | zero => rfl
  | succ fuel ih =>
    rw [filesBelow_succ (extension.distinct wellFormed.distinct), List.filter_flatMap]
    refine List.flatMap_eq_nil_iff.mpr fun name _ => ?_
    refine filter_filesAt_of_fresh extension blind (fun inside relative _ => ih inside relative)
      inside relative ?_
    rw [← Option.not_isSome_iff_eq_none, Option.isSome_iff_exists]
    rintro ⟨node, found⟩
    rw [(wellFormed.of_node? found).1] at fresh
    cases fresh

theorem exists_names_append (wellFormed : tree.WellFormed) (extension : Extends dull tree after)
    (location : Location) :
    ∃ more, after.names location = tree.names location ++ more ∧
      ∀ name ∈ more, tree.node? (location ++ [name]) = none := by
  obtain ⟨added, keys_eq⟩ := extension.keys
  have distinct := extension.distinct wellFormed.distinct
  rw [← keys_eq, List.nodup_append] at distinct
  refine ⟨_, by rw [names, names, ← keys_eq, List.filterMap_append], fun name member => ?_⟩
  obtain ⟨key, isAdded, named⟩ := List.mem_filterMap.mp member
  split at named
  next other below =>
    obtain rfl := Option.some.inj named
    obtain rfl := List.isPrefixOf?_eq_some_iff_append_eq.mp below
    rw [← Option.not_isSome_iff_eq_none, Option.isSome_iff_exists]
    rintro ⟨node, found⟩
    exact distinct.2.2 _ (mem_keys_of_node? (by simp) found) _ isAdded rfl
  next => cases named

/-- Of some files that a walk found, those that count have been left as they are. -/
def Keeps (before after : FileTree) (start : String) (counts : FoundFile → Bool)
    (files : List FoundFile) : Prop :=
  ∀ file ∈ files, counts file = true →
    ∀ place, before.locationOf? (pathBelow start file.relative) = some place →
      after.node? place = before.node? place

section

variable {fuel : Nat} {inside : List Location} {relative : List String} {location there : Location}
  {name : String}

theorem Meets.filter_filesAt_directory (grows : Grows tree after)
    (below : ∀ inside relative location, tree.Arrives start relative location →
      Keeps tree after start counts (tree.filesBelow start fuel inside relative location) →
      (after.filesBelow start fuel inside relative location).filter counts =
        (tree.filesBelow start fuel inside relative location).filter counts)
    (arrives : tree.Arrives start relative location) (isName : IsName name)
    (kept : Keeps tree after start counts (tree.filesAt start fuel inside relative location name))
    (meets : tree.Meets start inside relative location name there .directory) :
    (after.filesAt start fuel inside relative location name).filter counts =
      (tree.filesAt start fuel inside relative location name).filter counts := by
  obtain ⟨node, meets', becomes⟩ := meets.exists_of_grows grows
  cases becomes
  rw [meets.filesAt_directory] at kept ⊢
  rw [meets'.filesAt_directory]
  exact below _ _ _ (meets.arrives arrives isName) kept

theorem Meets.filter_filesAt_file (extension : Extends dull tree after)
    (blind : ∀ file, dull file.contents → counts file = false)
    (arrives : tree.Arrives start relative location) (isName : IsName name)
    (kept : Keeps tree after start counts (tree.filesAt start fuel inside relative location name))
    {contents : Contents}
    (meets : tree.Meets start inside relative location name there (.file contents)) :
    (after.filesAt start fuel inside relative location name).filter counts =
      (tree.filesAt start fuel inside relative location name).filter counts := by
  obtain ⟨node, meets', becomes⟩ := meets.exists_of_grows extension.grows
  cases becomes with
  | file _ new =>
    rw [meets.filesAt_file] at kept ⊢
    rw [meets'.filesAt_file]
    by_cases same : after.node? there = tree.node? there
    · rw [meets.node?_eq, meets'.node?_eq, Option.some.injEq, Node.file.injEq] at same
      rw [same]
    · -- The file was written over, so it did not count, and it does not count now.
      have before : counts ⟨relative ++ [name], contents⟩ = false := by
        rw [← Bool.not_eq_true]
        intro counted
        exact same (kept _ (List.mem_singleton_self _) counted there
          (locationOf?_eq_some_iff.mpr ⟨_, meets.resolve_eq arrives isName⟩))
      have now : counts ⟨relative ++ [name], new⟩ = false :=
        blind _ (extension.dull_of_ne same meets'.node?_eq)
      simp [before, now]

/-- Under a name that was there, the files that count are those found before. -/
theorem filter_filesAt_eq (wellFormed : tree.WellFormed) (extension : Extends dull tree after)
    (links : tree.LinksSteady after start)
    (blind : ∀ file, dull file.contents → counts file = false)
    (below : ∀ inside relative location, tree.Arrives start relative location →
      Keeps tree after start counts (tree.filesBelow start fuel inside relative location) →
      (after.filesBelow start fuel inside relative location).filter counts =
        (tree.filesBelow start fuel inside relative location).filter counts)
    (arrives : tree.Arrives start relative location) (isName : IsName name)
    (kept : Keeps tree after start counts
      (tree.filesAt start fuel inside relative location name)) :
    (after.filesAt start fuel inside relative location name).filter counts =
      (tree.filesAt start fuel inside relative location name).filter counts := by
  have grows := extension.grows
  -- By what the walk found before. Where it found nothing it may find something now, but only what
  -- is new, and that does not count.
  rcases tree.filesAt_cases start inside relative location name with
    ⟨there, meets, -⟩ | ⟨there, contents, meets, -⟩ | finds
  · exact meets.filter_filesAt_directory grows below arrives isName kept
  · exact meets.filter_filesAt_file extension blind arrives isName kept
  · rcases after.filesAt_cases start inside relative location name with
      ⟨there, meets, finds'⟩ | ⟨there, contents, meets, finds'⟩ | finds'
    · rcases meets.exists_or_fresh grows links arrives isName with ⟨old, before, becomes⟩ | fresh
      · cases becomes
        exact before.filter_filesAt_directory grows below arrives isName kept
      · rw [finds, finds', filter_filesBelow_of_fresh wellFormed extension blind _ _ fresh,
          List.filter_nil]
    · rcases meets.exists_or_fresh grows links arrives isName with ⟨old, before, becomes⟩ | fresh
      · cases becomes
        exact before.filter_filesAt_file extension blind arrives isName kept
      · have ignored := blind ⟨relative ++ [name], contents⟩
          (extension.dull_of_ne (by simp [fresh, meets.node?_eq]) meets.node?_eq)
        rw [finds, finds']
        simp [ignored]
    · rw [finds, finds']

end

/-- **A walk of an extended tree** finds the files that count of the tree before. -/
theorem filter_filesBelow_eq (wellFormed : tree.WellFormed) (extension : Extends dull tree after)
    (links : tree.LinksSteady after start)
    (blind : ∀ file, dull file.contents → counts file = false) {fuel : Nat}
    (inside : List Location) (relative : List String) (location : Location)
    (arrives : tree.Arrives start relative location)
    (kept : Keeps tree after start counts
      (tree.filesBelow start fuel inside relative location)) :
    (after.filesBelow start fuel inside relative location).filter counts =
      (tree.filesBelow start fuel inside relative location).filter counts := by
  induction fuel generalizing inside relative location with
  | zero => rfl
  | succ fuel ih =>
    obtain ⟨more, names_eq, fresh⟩ := exists_names_append wellFormed extension location
    rw [filesBelow_succ wellFormed.distinct] at kept ⊢
    rw [filesBelow_succ (extension.distinct wellFormed.distinct), names_eq, List.flatMap_append,
      List.filter_append, List.filter_flatMap, List.filter_flatMap, List.filter_flatMap]
    -- the names that were added come last, and nothing that counts is below them
    have nothing : (more.flatMap fun name =>
        (after.filesAt start fuel inside relative location name).filter counts) = [] := by
      refine List.flatMap_eq_nil_iff.mpr fun name member => ?_
      refine filter_filesAt_of_fresh extension blind (fun inside relative location fresh => ?_)
        inside relative (fresh name member)
      exact filter_filesBelow_of_fresh wellFormed extension blind inside relative fresh
    rw [nothing, List.append_nil]
    refine List.flatMap_congr fun name member => ?_
    obtain ⟨parent, last, same, -, isName⟩ := wellFormed.placed _ (mem_names.mp member)
    obtain ⟨rfl, rfl⟩ := List.append_singleton_inj.mp same
    exact filter_filesAt_eq wellFormed extension links blind ih arrives isName fun file found =>
      kept file (List.mem_flatMap.mpr ⟨name, member, found⟩)

theorem Extends.walkDepth_le (extension : Extends dull tree after) :
    tree.walkDepth ≤ after.walkDepth := by
  have longer := extension.keys.length_le
  rw [FileTree.keys, FileTree.keys, List.length_map, List.length_map] at longer
  exact Nat.mul_le_mul (Nat.succ_le_succ longer) (Nat.succ_le_succ longer)

theorem walk_eq_nil
    (absent : ¬∃ location, tree.resolve .visit start = .ok (.taken location .directory)) :
    tree.walk start = [] := by
  rw [walk]
  split
  next location leads => exact absurd ⟨location, leads⟩ absent
  next => rfl

theorem mem_walk {file : FoundFile} {location : Location}
    (leads : tree.resolve .visit start = .ok (.taken location .directory)) :
    file ∈ tree.walk start ↔
      file ∈ tree.filesBelow start tree.walkDepth [location] [] location := by
  rw [walk, leads]
  exact (List.mergeSort_perm _ _).mem_iff

/-- The directory at the start of a walk is a directory that was there before, or was not there. -/
theorem directory_or_fresh (grows : Grows tree after)
    (steady : ¬Reveals tree after [] (components start)) {location : Location}
    (leads : after.resolve .visit start = .ok (.taken location .directory)) :
    tree.resolve .visit start = .ok (.taken location .directory) ∨
      tree.node? location = none := by
  by_cases fresh : tree.node? location = none
  · exact .inr fresh
  have here := node?_of_resolve leads
  left
  rw [resolve] at leads ⊢
  split_ifs at leads ⊢
  obtain ⟨old, before⟩ := exists_follow_of_not_reveals steady fresh leads
  obtain ⟨course, -, stops⟩ := exists_goes_of_follow before
  cases stops with
  | link inspects => cases inspects
  | taken found =>
    cases grows.becomes found here
    exact before

/-- A walk of an extended tree lists the files that count of the tree before. -/
theorem filter_walk_eq (wellFormed : tree.WellFormed) (extension : Extends dull tree after)
    (links : tree.LinksSteady after start)
    (blind : ∀ file, dull file.contents → counts file = false)
    (steady : ¬Reveals tree after [] (components start))
    (kept : Keeps tree after start counts (tree.walk start)) :
    (after.walk start).filter counts = (tree.walk start).filter counts := by
  have distinct := extension.distinct wellFormed.distinct
  by_cases before : ∃ location, tree.resolve .visit start = .ok (.taken location .directory)
  · obtain ⟨location, leads⟩ := before
    obtain ⟨node, leads', becomes⟩ := extension.grows.exists_resolve_eq leads
    cases becomes
    have arrives := arrives_start leads
    have deep := reach_lt_walkDepth arrives.here
    -- both trees are walked deep enough, so the depth of the larger one serves for both
    have same := @filesBelow_eq _ start _ [] _ wellFormed.distinct _ _ deep
      (Nat.lt_of_lt_of_le deep extension.walkDepth_le)
    have kept' : Keeps tree after start counts
        (tree.filesBelow start after.walkDepth [location] [] location) := by
      rw [← same]
      exact fun file member => kept file ((mem_walk leads).mpr member)
    have files := filter_filesBelow_eq wellFormed extension links blind [location] [] location
      arrives kept'
    rw [← same] at files
    rw [walk, leads', walk, leads]
    exact filter_mergeSort_eq files fun file member other => eq_of_relative_eq distinct member
  · rw [walk_eq_nil before, List.filter_nil, List.filter_eq_nil_iff]
    intro file member
    -- the start led to no directory before, so one that it leads to now is new
    by_cases now : ∃ location, after.resolve .visit start = .ok (.taken location .directory)
    · obtain ⟨location, leads⟩ := now
      rcases directory_or_fresh extension.grows steady leads with leads | fresh
      · exact absurd ⟨location, leads⟩ before
      · have none := @filter_filesBelow_of_fresh _ _ _ _ start wellFormed extension blind
          after.walkDepth [location] [] _ fresh
        exact List.filter_eq_nil_iff.mp none file ((mem_walk leads).mp member)
    · rw [walk_eq_nil now] at member
      cases member

end

end ImportSupply.FileTree
