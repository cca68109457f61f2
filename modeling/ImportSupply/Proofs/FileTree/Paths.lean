import ImportSupply.FileTree.Walk
import ImportSupply.Proofs.FileTree.Growth

/-!
# Ways put together

The way of a path can be cut behind any of its components (`Goes.exists_middle`) and goes on behind
them as a way of its own (`Goes.append`). So the way of a path below a directory is the way to the
directory and then the names (`components_pathBelow`, `goes_base`). How many links a way may follow
does not matter beyond those that it does follow (`Goes.add_links`, `Goes.exists_links`).
-/

namespace ImportSupply.FileTree

variable {tree : FileTree} {links : Nat} {location : Location} {xs ys : List String}

/-! ## Cutting and joining ways -/

theorem Step.append {course next : Course} (step : tree.Step course next) (more : List String) :
    tree.Step ⟨course.links, course.location, course.ahead ++ more⟩
      ⟨next.links, next.location, next.ahead ++ more⟩ := by
  cases step with
  | stay here idle => exact .stay here idle
  | up here => exact .up here
  | enter here proper found noLink => exact .enter here proper found noLink
  | link here proper found =>
    rw [List.append_assoc]
    exact .link here proper found

theorem Goes.append {course last : Course} (goes : tree.Goes course last) (more : List String) :
    tree.Goes ⟨course.links, course.location, course.ahead ++ more⟩
      ⟨last.links, last.location, last.ahead ++ more⟩ := by
  induction goes with
  | refl => exact .refl
  | tail _ step ih => exact ih.tail (step.append more)

/-- The way of a path passes the end of every front part of the path. -/
theorem Goes.exists_middle {last : Course} (done : last.ahead = [])
    (goes : tree.Goes ⟨links, location, xs ++ ys⟩ last) :
    ∃ left middle, tree.Goes ⟨links, location, xs⟩ ⟨left, middle, []⟩ ∧
      tree.Goes ⟨left, middle, ys⟩ last := by
  -- The induction is on the steps: a link replaces a name by the components of its target, which
  -- then count to the front part.
  generalize start : (⟨links, location, xs ++ ys⟩ : Course) = course at goes
  induction goes using Relation.ReflTransGen.head_induction_on generalizing links location xs with
  | refl =>
    subst start
    obtain ⟨rfl, rfl⟩ := List.append_eq_nil_iff.mp done
    exact ⟨links, location, .refl, .refl⟩
  | head step goes ih =>
    subst start
    cases xs with
    | nil => exact ⟨links, location, .refl, .head step goes⟩
    | cons x xs =>
      cases step with
      | stay here idle =>
        obtain ⟨left, middle, first, second⟩ := ih rfl
        exact ⟨left, middle, .head (.stay here idle) first, second⟩
      | up here =>
        obtain ⟨left, middle, first, second⟩ := ih rfl
        exact ⟨left, middle, .head (.up here) first, second⟩
      | enter here proper found noLink =>
        obtain ⟨left, middle, first, second⟩ := ih rfl
        exact ⟨left, middle, .head (.enter here proper found noLink) first, second⟩
      | link here proper found =>
        obtain ⟨left, middle, first, second⟩ := ih (by rw [List.append_assoc]; rfl)
        exact ⟨left, middle, .head (.link here proper found) first, second⟩

/-- Following is the same before and behind a part of the way. -/
theorem Goes.follow_eq {course last : Course} (goes : tree.Goes course last) :
    tree.follow .visit course.links course.location course.ahead =
      tree.follow .visit last.links last.location last.ahead := by
  induction goes with
  | refl => rfl
  | tail _ step ih => rw [ih, step.follow_eq]

/-! ## The number of links -/

theorem Goes.links_le {course last : Course} (goes : tree.Goes course last) :
    last.links ≤ course.links := by
  induction goes with
  | refl => exact Nat.le_refl _
  | tail _ step ih =>
    refine Nat.le_trans ?_ ih
    cases step with
    | stay => exact Nat.le_refl _
    | up => exact Nat.le_refl _
    | enter => exact Nat.le_refl _
    | link => exact Nat.le_succ _

/-- A way may follow more links than it has to. -/
theorem Goes.add_links {course last : Course} (goes : tree.Goes course last) (more : Nat) :
    tree.Goes ⟨course.links + more, course.location, course.ahead⟩
      ⟨last.links + more, last.location, last.ahead⟩ := by
  induction goes with
  | refl => exact .refl
  | tail _ step ih =>
    refine ih.tail ?_
    cases step with
    | stay here idle => exact .stay here idle
    | up here => exact .up here
    | enter here proper found noLink => exact .enter here proper found noLink
    | @link links _ _ _ _ here proper found =>
      rw [Nat.add_right_comm]
      exact .link here proper found

theorem follow_add_links {spot : Spot} (leads : tree.follow .visit links location xs = .ok spot)
    (more : Nat) : tree.follow .visit (links + more) location xs = .ok spot := by
  obtain ⟨⟨left, place, ahead⟩, goes, stops⟩ := exists_goes_of_follow leads
  have stops' : tree.Stops .visit ⟨left + more, place, ahead⟩ spot := by
    cases stops with
    | taken found => exact .taken found
    | free here proper absent empties bare => exact .free here proper absent empties bare
    | link inspects => cases inspects
  exact follow_of_goes (goes.add_links more) stops'

theorem follow_zero_link {name target : String} {rest : List String}
    (here : tree.node? location = some .directory) (proper : IsProper name)
    (found : tree.node? (location ++ [name]) = some (.link target)) :
    tree.follow .visit 0 location (name :: rest) = .error .tooManyLinks := by
  rw [follow, descend_name here proper (by rintro ⟨⟨⟩, -⟩), found]
  exact if_neg (by simp)

theorem Step.exists_links {after : FileTree} (grows : Grows tree after) {course next : Course}
    (step : tree.Step course next) {spot : Spot}
    (leads : after.follow .visit links course.location course.ahead = .ok spot) :
    ∃ left, tree.Step ⟨links, course.location, course.ahead⟩ ⟨left, next.location, next.ahead⟩ := by
  cases step with
  | stay here idle => exact ⟨links, .stay here idle⟩
  | up here => exact ⟨links, .up here⟩
  | enter here proper found noLink => exact ⟨links, .enter here proper found noLink⟩
  | link here proper found =>
    cases links with
    | zero =>
      rw [follow_zero_link (grows.directory here) proper (grows.link.mpr found)] at leads
      cases leads
    | succ links => exact ⟨links, .link here proper found⟩

/-- A way is a way with fewer links, if they are enough for the path in a tree that grew. -/
theorem Goes.exists_links {after : FileTree} (grows : Grows tree after) {course last : Course}
    (goes : tree.Goes course last) {spot : Spot}
    (leads : after.follow .visit links course.location course.ahead = .ok spot) :
    ∃ left, tree.Goes ⟨links, course.location, course.ahead⟩
      ⟨left, last.location, last.ahead⟩ := by
  induction goes using Relation.ReflTransGen.head_induction_on generalizing links with
  | refl => exact ⟨links, .refl⟩
  | head step _ ih =>
    obtain ⟨between, step⟩ := step.exists_links grows leads
    have same := (grows.step step).follow_eq
    obtain ⟨left, goes⟩ := ih (same ▸ leads)
    exact ⟨left, .head step goes⟩

/-! ## Paths below a directory -/

theorem node?_of_resolve {path : String} {node : Node}
    (leads : tree.resolve .visit path = .ok (.taken location node)) :
    tree.node? location = some node := by
  obtain ⟨course, -, stops, -⟩ := exists_goes_of_resolve leads
  cases stops with
  | taken found => exact found
  | link inspects => cases inspects

theorem exists_resolve_of_readText {path text : String} (reads : tree.readText path = .ok text) :
    ∃ location, tree.resolve .visit path = .ok (.taken location (.file (.text text))) := by
  rw [readText] at reads
  split at reads
  case h_3 location text' leads =>
    obtain rfl := Except.ok.inj reads
    exact ⟨location, leads⟩
  all_goals cases reads

/-- A directory's path without a slash at its end. -/
def unslashed (start : String) : List Char :=
  if start.toList.getLast? = some '/' then start.toList.dropLast else start.toList

/-- The components of a directory's path, but for what a slash at its end adds. -/
def base (start : String) : List String :=
  ((unslashed start).splitOn '/').map String.ofList

theorem toList_eq_of_slash {start : String} (slash : start.toList.getLast? = some '/') :
    start.toList = unslashed start ++ '/' :: [] := by
  rw [unslashed, if_pos slash]
  exact (List.dropLast_append_getLast? '/' slash).symm

theorem toList_pathBelow (start : String) (relative : List String) :
    (pathBelow start relative).toList =
      unslashed start ++ '/' :: ['/'].intercalate (relative.map String.toList) := by
  have joined : ("/".intercalate relative).toList =
      ['/'].intercalate (relative.map String.toList) := String.toList_intercalate
  rw [pathBelow]
  split
  next slash =>
    rw [String.toList_append, String.toList_append, joined, toList_eq_of_slash slash]
    simp
  next bare =>
    rw [String.toList_append, String.toList_append, joined, unslashed, if_neg bare]
    simp

theorem components_pathBelow (start : String) {relative : List String} (below : relative ≠ [])
    (bare : ∀ name ∈ relative, '/' ∉ name.toList) :
    components (pathBelow start relative) = base start ++ relative := by
  have names : (['/'].intercalate (relative.map String.toList)).splitOn '/' =
      relative.map String.toList :=
    List.splitOn_intercalate '/' (by simpa using bare) (by simpa using below)
  have same : (relative.map String.toList).map String.ofList = relative := by
    simp
  rw [components, toList_pathBelow, List.splitOn, List.splitOnP_append_cons _ _ (by simp),
    ← List.splitOn, ← List.splitOn, names, List.map_append, same, base]

theorem eq_of_goes_idle {component : String} (idle : isIdle component = true) {left left' : Nat}
    {place : Location} (goes : tree.Goes ⟨left, location, [component]⟩ ⟨left', place, []⟩) :
    left = left' ∧ location = place := by
  rcases Relation.ReflTransGen.cases_head goes with same | ⟨next, step, goes⟩
  · cases same
  · cases step with
    | stay =>
      rcases Relation.ReflTransGen.cases_head goes with same | ⟨next, step, -⟩
      · cases same
        exact ⟨rfl, rfl⟩
      · cases step
    | up => exact absurd idle (by decide)
    | enter _ proper => exact absurd idle (by simp [proper.moves])
    | link _ proper => exact absurd idle (by simp [proper.moves])

/-- The way to a directory does not need a slash at the end of the directory's path. -/
theorem goes_base {start : String} {left : Nat}
    (goes : tree.Goes ⟨links, [], components start⟩ ⟨left, location, []⟩) :
    tree.Goes ⟨links, [], base start⟩ ⟨left, location, []⟩ := by
  by_cases slash : start.toList.getLast? = some '/'
  · have split : components start = base start ++ [""] := by
      rw [components, toList_eq_of_slash slash, List.splitOn,
        List.splitOnP_append_cons _ _ (by simp), List.map_append]
      rfl
    rw [split] at goes
    obtain ⟨left', middle, first, second⟩ := goes.exists_middle rfl
    obtain ⟨rfl, rfl⟩ := eq_of_goes_idle rfl second
    exact first
  · rwa [base, unslashed, if_neg slash]

end ImportSupply.FileTree
