import ImportSupply.FileTree.Resolve
import Mathlib.Logic.Relation
import Mathlib.Tactic.Common

/-!
# Following a path step by step

Following a path is a run of small steps: each takes one component off the path, and stays, goes up,
goes into a node or goes on with the target of a link. A path leads to a spot exactly if such a run
ends there (`exists_goes_of_follow`, `follow_of_goes`). A run depends on nothing but the directories,
files and links it passes, so it is a run in every tree that has them too.
-/

namespace ImportSupply.FileTree

/-- What is left of a path: how many links may still be followed, where the path has led so far,
and the components ahead. -/
structure Course where
  links : Nat
  location : Location
  ahead : List String

/-- A component that names a node. -/
structure IsProper (name : String) : Prop where
  moves : isIdle name = false
  down : name ≠ ".."
  short : name.utf8ByteSize ≤ nameLimit

/-- One component taken off a path. -/
inductive Step (tree : FileTree) : Course → Course → Prop
  | stay {links location component rest} : tree.node? location = some .directory →
      isIdle component = true →
      Step tree ⟨links, location, component :: rest⟩ ⟨links, location, rest⟩
  | up {links location rest} : tree.node? location = some .directory →
      Step tree ⟨links, location, ".." :: rest⟩ ⟨links, location.dropLast, rest⟩
  | enter {links location name rest node} : tree.node? location = some .directory →
      IsProper name → tree.node? (location ++ [name]) = some node →
      (∀ target, node ≠ .link target) →
      Step tree ⟨links, location, name :: rest⟩ ⟨links, location ++ [name], rest⟩
  | link {links location name rest target} : tree.node? location = some .directory →
      IsProper name → tree.node? (location ++ [name]) = some (.link target) →
      Step tree ⟨links + 1, location, name :: rest⟩
        ⟨links, linkBase location target, components target ++ rest⟩

/-- The steps on the way of a path. -/
abbrev Goes (tree : FileTree) : Course → Course → Prop :=
  Relation.ReflTransGen (Step tree)

/-- Where the way of a path ends. -/
inductive Stops (tree : FileTree) (purpose : Purpose) : Course → Spot → Prop
  | taken {links location node} : tree.node? location = some node →
      Stops tree purpose ⟨links, location, []⟩ (.taken location node)
  | free {links location name rest} : tree.node? location = some .directory → IsProper name →
      tree.node? (location ++ [name]) = none → (∀ component ∈ rest, component = "") →
      (purpose = .write → rest = []) →
      Stops tree purpose ⟨links, location, name :: rest⟩ (.free (location ++ [name]))
  | link {links location name target} : purpose = .inspect →
      tree.node? location = some .directory → IsProper name →
      tree.node? (location ++ [name]) = some (.link target) →
      Stops tree purpose ⟨links, location, [name]⟩ (.taken (location ++ [name]) (.link target))

theorem all_isEmpty_iff {rest : List String} :
    rest.all String.isEmpty = true ↔ ∀ component ∈ rest, component = "" := by
  simp [List.all_eq_true, String.isEmpty_iff]

theorem areSlashes_eq_false_iff {rest : List String} (empties : ∀ component ∈ rest, component = "") :
    areSlashes rest = false ↔ rest = [] := by
  rw [areSlashes, all_isEmpty_iff.mpr empties]
  cases rest <;> simp

/-! ## Following is a run -/

section

variable {tree : FileTree} {purpose : Purpose} {location : Location} {name : String}
  {rest : List String}

theorem descend_stay {onLink : Location → List String → Except Trouble Spot} {component : String}
    (here : tree.node? location = some .directory) (idle : isIdle component = true) :
    tree.descend purpose onLink location (component :: rest) =
      tree.descend purpose onLink location rest := by
  rw [descend, here]
  exact if_pos idle

theorem descend_up {onLink : Location → List String → Except Trouble Spot}
    (here : tree.node? location = some .directory) :
    tree.descend purpose onLink location (".." :: rest) =
      tree.descend purpose onLink location.dropLast rest := by
  rw [descend, here]
  exact (if_neg (by decide)).trans (if_pos rfl)

theorem descend_name {onLink : Location → List String → Except Trouble Spot}
    (here : tree.node? location = some .directory) (proper : IsProper name)
    (bare : ¬(purpose = .write ∧ areSlashes rest = true)) :
    tree.descend purpose onLink location (name :: rest) =
      match tree.node? (location ++ [name]) with
      | none =>
          if rest.all String.isEmpty then .ok (.free (location ++ [name]))
          else .error .missing
      | some (.link target) =>
          if rest.isEmpty && purpose = .inspect then
            .ok (.taken (location ++ [name]) (.link target))
          else onLink (linkBase location target) (components target ++ rest)
      | some _ => tree.descend purpose onLink (location ++ [name]) rest := by
  rw [descend, here]
  exact (if_neg (by simp [proper.moves])).trans ((if_neg (by simpa using proper.down)).trans
    ((if_neg bare).trans (if_neg (Nat.not_lt.mpr proper.short))))

/-- What is ahead of a path that leads from a directory to a spot. -/
theorem component_cases {onLink : Location → List String → Except Trouble Spot} {component : String}
    {spot : Spot} (leads : tree.descend purpose onLink location (component :: rest) = .ok spot) :
    tree.node? location = some .directory ∧
      (isIdle component = true ∨ component = ".." ∨
        IsProper component ∧ ¬(purpose = .write ∧ areSlashes rest = true)) := by
  rw [descend] at leads
  split at leads
  next => cases leads
  next => cases leads
  next => cases leads
  next here =>
    refine ⟨here, ?_⟩
    by_cases idle : isIdle component = true
    · exact .inl idle
    rw [if_neg idle] at leads
    by_cases dots : component = ".."
    · exact .inr (.inl dots)
    rw [if_neg (by simpa using dots)] at leads
    by_cases slashes : purpose = .write ∧ areSlashes rest = true
    · rw [if_pos slashes] at leads
      cases leads
    rw [if_neg slashes] at leads
    by_cases long : nameLimit < component.utf8ByteSize
    · rw [if_pos long] at leads
      cases leads
    exact .inr (.inr ⟨⟨by simpa using idle, dots, Nat.not_lt.mp long⟩, slashes⟩)

/-- The way of a path that is followed with a given continuation at links. -/
theorem exists_goes_of_descend {links : Nat} {spot : Spot}
    {onLink : Location → List String → Except Trouble Spot}
    (linked : ∀ location target name rest, tree.node? location = some .directory →
      IsProper name → tree.node? (location ++ [name]) = some (.link target) →
      onLink (linkBase location target) (components target ++ rest) = .ok spot →
      ∃ course, tree.Goes ⟨links, location, name :: rest⟩ course ∧ tree.Stops purpose course spot)
    {ahead : List String} (leads : tree.descend purpose onLink location ahead = .ok spot) :
    ∃ course, tree.Goes ⟨links, location, ahead⟩ course ∧ tree.Stops purpose course spot := by
  induction ahead generalizing location with
  | nil =>
    rw [descend] at leads
    split at leads
    next node here =>
      obtain rfl := Except.ok.inj leads
      exact ⟨_, .refl, .taken here⟩
    next => cases leads
  | cons component rest ih =>
    -- every component that is passed is one step, but for a name that is free or looked at, where
    -- the way stops
    obtain ⟨here, idle | rfl | ⟨proper, bare⟩⟩ := component_cases leads
    · rw [descend_stay here idle] at leads
      obtain ⟨course, goes, stops⟩ := ih leads
      exact ⟨course, .head (.stay here idle) goes, stops⟩
    · rw [descend_up here] at leads
      obtain ⟨course, goes, stops⟩ := ih leads
      exact ⟨course, .head (.up here) goes, stops⟩
    · rw [descend_name here proper bare] at leads
      split at leads
      next absent =>
        split at leads
        next empties =>
          obtain rfl := Except.ok.inj leads
          rw [all_isEmpty_iff] at empties
          refine ⟨_, .refl, .free here proper absent empties fun writing => ?_⟩
          rw [← areSlashes_eq_false_iff empties, ← Bool.not_eq_true]
          exact fun slashed => bare ⟨writing, slashed⟩
        next => cases leads
      next target found =>
        split at leads
        next looked =>
          obtain rfl := Except.ok.inj leads
          rw [Bool.and_eq_true, List.isEmpty_iff, decide_eq_true_eq] at looked
          obtain ⟨rfl, inspects⟩ := looked
          exact ⟨_, .refl, .link inspects here proper found⟩
        next => exact linked location target component rest here proper found leads
      next node noLink found =>
        obtain ⟨course, goes, stops⟩ := ih leads
        exact ⟨course, .head (.enter here proper found noLink) goes, stops⟩

end

/-- A path that leads to a spot has a way that ends there. -/
theorem exists_goes_of_follow {tree : FileTree} {purpose : Purpose} {links : Nat}
    {location : Location} {ahead : List String} {spot : Spot}
    (leads : tree.follow purpose links location ahead = .ok spot) :
    ∃ course, tree.Goes ⟨links, location, ahead⟩ course ∧ tree.Stops purpose course spot := by
  induction links generalizing location ahead with
  | zero =>
    rw [follow] at leads
    refine exists_goes_of_descend (fun location target name rest _ _ _ more => ?_) leads
    cases more
  | succ links ih =>
    rw [follow] at leads
    refine exists_goes_of_descend (fun location target name rest here proper found more => ?_) leads
    obtain ⟨course, goes, stops⟩ := ih more
    exact ⟨course, .head (.link here proper found) goes, stops⟩

/-- A step is taken for every purpose, but that a link at the end may be looked at and that writing
stops at a name with slashes behind it. -/
theorem Step.follow_eq_of_bare {tree : FileTree} {course next : Course} (step : tree.Step course next)
    {purpose : Purpose} (bare : ¬(purpose = .write ∧ areSlashes course.ahead.tail = true)) :
    tree.follow purpose course.links course.location course.ahead =
        tree.follow purpose next.links next.location next.ahead ∨
      purpose = .inspect ∧ ∃ place target,
        tree.follow purpose course.links course.location course.ahead =
          .ok (.taken place (.link target)) := by
  cases step with
  | @stay links location component rest here idle =>
    left
    cases links <;> exact descend_stay here idle
  | @up links location rest here =>
    left
    cases links <;> exact descend_up here
  | @enter links location name rest node here proper found noLink =>
    left
    cases links <;>
    · dsimp only [List.tail_cons] at bare ⊢
      rw [follow, descend_name here proper bare, found]
      cases node with
      | link target => exact absurd rfl (noLink target)
      | directory => rfl
      | file contents => rfl
  -- only a link asks for the purpose: at the end of a path it is looked at, not followed
  | @link links location name rest target here proper found =>
    dsimp only [List.tail_cons] at bare ⊢
    rw [follow, descend_name here proper bare, found]
    dsimp only
    by_cases looks : (rest.isEmpty && purpose = .inspect) = true
    · rw [if_pos looks]
      rw [Bool.and_eq_true, decide_eq_true_eq] at looks
      exact .inr ⟨looks.2, _, _, rfl⟩
    · rw [if_neg looks]
      exact .inl rfl

/-- Following to visit is the same before and behind a step. -/
theorem Step.follow_eq {tree : FileTree} {course next : Course} (step : tree.Step course next) :
    tree.follow .visit course.links course.location course.ahead =
      tree.follow .visit next.links next.location next.ahead := by
  have bare : ¬(Purpose.visit = .write ∧ areSlashes course.ahead.tail = true) := by
    rintro ⟨⟨⟩, -⟩
  rcases step.follow_eq_of_bare bare with same | ⟨inspects, -⟩
  · exact same
  · cases inspects

theorem follow_nil {tree : FileTree} {purpose : Purpose} {links : Nat} {location : Location}
    {node : Node} (here : tree.node? location = some node) :
    tree.follow purpose links location [] = .ok (.taken location node) := by
  cases links <;> rw [follow, descend, here]

/-- A way that ends at a spot is followed to it. -/
theorem follow_of_goes {tree : FileTree} {course last : Course} {spot : Spot}
    (goes : tree.Goes course last) (stops : tree.Stops .visit last spot) :
    tree.follow .visit course.links course.location course.ahead = .ok spot := by
  induction goes using Relation.ReflTransGen.head_induction_on with
  | refl =>
    cases stops with
    | taken here => exact follow_nil here
    | @free links location name rest here proper absent empties _ =>
      have bare : ¬(Purpose.visit = .write ∧ areSlashes rest = true) := by
        rintro ⟨⟨⟩, -⟩
      cases links <;>
      · dsimp only
        rw [follow, descend_name here proper bare, absent]
        exact if_pos (all_isEmpty_iff.mpr empties)
    | link inspects => cases inspects
  | head step _ ih => rw [step.follow_eq, ih]

end ImportSupply.FileTree
