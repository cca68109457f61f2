import ImportSupply.Path
import ImportSupply.Proofs.Text.Cutting
import Mathlib.Data.List.DropRight

/-!
# What a path says of its parent

The parent of a path is a front part of its text (`isPrefix_of_parent?`), and its steps, the
components that are neither empty nor a dot, are those of the path without the last one
(`exists_steps_eq_of_parent?`).
-/

namespace ImportSupply.Path

/-- The components of a path that say something. -/
def steps (path : List Char) : List (List Char) :=
  (path.splitOn '/').filter fun component => !isIdle component

theorem steps_append_slash (front back : List Char) :
    steps (front ++ '/' :: back) = steps front ++ steps back := by
  rw [steps, List.splitOn, List.splitOnP_append_cons _ _ (by simp), List.filter_append]
  rfl

theorem steps_cons_slash (back : List Char) : steps ('/' :: back) = steps back := by
  have split := steps_append_slash [] back
  have idle : steps [] = [] := by decide
  rwa [List.nil_append, idle, List.nil_append] at split

theorem steps_dot_slash (back : List Char) : steps ('.' :: '/' :: back) = steps back := by
  have split := steps_append_slash ['.'] back
  have idle : steps ['.'] = [] := by decide
  rwa [List.singleton_append, idle, List.nil_append] at split

/-- Slashes at the end of a path say nothing. -/
theorem steps_append_slashes (path : List Char) {slashes : List Char}
    (only : ∀ c ∈ slashes, c = '/') : steps (path ++ slashes) = steps path := by
  induction slashes generalizing path with
  | nil => rw [List.append_nil]
  | cons c slashes ih =>
    have others := ih [] fun d member => only d (List.mem_cons_of_mem c member)
    rw [List.nil_append] at others
    rw [only c List.mem_cons_self, steps_append_slash, others]
    exact List.append_nil _

theorem lead_append_drop (path : List Char) :
    lead path ++ path.drop (lead path).length = path := by
  unfold lead
  split <;> rfl

/-- What a path starts with is no step. -/
theorem steps_drop_lead (path : List Char) :
    steps (path.drop (lead path).length) = steps path := by
  unfold lead
  split
  next rest => exact (steps_cons_slash rest).symm
  next => rfl
  next rest => exact (steps_cons_slash rest).trans (steps_dot_slash rest).symm
  next => rfl

/-! ## Components joined by slashes -/

theorem join_isPrefix {front components : List (List Char)} (before : front <+: components) :
    join front <+: join components := by
  obtain ⟨back, rfl⟩ := before
  induction front with
  | nil => exact List.nil_prefix
  | cons first front ih =>
    cases front with
    | nil =>
      cases back with
      | nil => exact List.prefix_refl _
      | cons next back =>
        rw [List.singleton_append, join, join, List.intercalate_singleton,
          List.intercalate_cons_cons, List.append_assoc]
        exact List.prefix_append _ _
    | cons second front =>
      rw [List.cons_append, List.cons_append, join, join, List.intercalate_cons_cons,
        List.intercalate_cons_cons, List.prefix_append_right_inj]
      exact ih

theorem steps_join {components : List (List Char)} (bare : ∀ part ∈ components, '/' ∉ part) :
    steps (join components) = components.filter fun component => !isIdle component := by
  cases components with
  | nil => rfl
  | cons first rest => rw [steps, join, List.splitOn_intercalate '/' bare (by simp)]

theorem join_splitOn (text : List Char) : join (text.splitOn '/') = text :=
  List.intercalate_splitOn '/'

/-! ## Idle components at the end -/

theorem trimIdle_isPrefix (components : List (List Char)) : trimIdle components <+: components :=
  List.rdropWhile_prefix isIdle components

theorem filter_dropWhile_not (drop : List Char → Bool) (components : List (List Char)) :
    (components.dropWhile drop).filter (fun component => !drop component) =
      components.filter fun component => !drop component := by
  induction components with
  | nil => rfl
  | cons first rest ih =>
    cases dropped : drop first with
    | true => simp [dropped, ih]
    | false => simp [dropped]

theorem filter_trimIdle (components : List (List Char)) :
    (trimIdle components).filter (fun component => !isIdle component) =
      components.filter fun component => !isIdle component := by
  rw [trimIdle, List.filter_reverse, filter_dropWhile_not, List.filter_reverse,
    List.reverse_reverse]

theorem steps_eq_filter_components (path : List Char) :
    steps path = (components path).filter fun component => !isIdle component := by
  rw [components, filter_trimIdle, ← steps, steps_drop_lead]

theorem isIdle_getLast {path : List Char} (some : components path ≠ []) :
    isIdle ((components path).getLast some) = false := by
  have last := List.rdropWhile_last_not isIdle _ some
  rwa [Bool.not_eq_true] at last

/-! ## Parents -/

/-- The components of a path's parent, behind what it starts with. -/
def outer (path : List Char) : List (List Char) :=
  trimIdle (components path).dropLast

theorem outer_isPrefix (path : List Char) :
    outer path <+: (path.drop (lead path).length).splitOn '/' :=
  (trimIdle_isPrefix _).trans ((List.dropLast_prefix _).trans (trimIdle_isPrefix _))

theorem join_outer_isPrefix (path : List Char) :
    join (outer path) <+: path.drop (lead path).length := by
  have before := join_isPrefix (outer_isPrefix path)
  rwa [join_splitOn] at before

theorem parent?_eq_some_iff {path parent : List Char} (inner : parent ≠ []) :
    parent? path = some parent ↔
      components path ≠ [] ∧ parent = lead path ++ join (outer path) := by
  rw [parent?]
  by_cases none : components path = []
  · rw [if_pos (by simp [none])]
    split <;> simp [none, inner.symm]
  · rw [if_neg (by simpa using none), Option.some.injEq, outer, and_iff_right none]
    exact eq_comm

/-- A parent is a front part of the path's text. -/
theorem isPrefix_of_parent? {path parent : List Char} (inner : parent ≠ [])
    (isParent : parent? path = some parent) : parent <+: path := by
  obtain ⟨-, rfl⟩ := (parent?_eq_some_iff inner).mp isParent
  have before := (List.prefix_append_right_inj (lead path)).mpr (join_outer_isPrefix path)
  rwa [lead_append_drop] at before

theorem steps_lead_append (path : List Char) :
    steps (lead path ++ join (outer path)) = steps (join (outer path)) := by
  have before := join_outer_isPrefix path
  unfold lead at before ⊢
  split at before
  next => rw [List.singleton_append, steps_cons_slash]
  next =>
    rw [List.prefix_nil.mp before]
    rfl
  next rest =>
    -- the dot of a path stands before a slash, or alone
    rcases inside : join (outer ('.' :: '/' :: rest)) with _ | ⟨c, more⟩
    · rfl
    · rw [inside] at before
      obtain ⟨rfl, -⟩ := List.cons_prefix_cons.mp before
      rw [List.singleton_append, steps_dot_slash, steps_cons_slash]
  next => rfl

/-- The steps of a path are those of its parent and one more. -/
theorem exists_steps_eq_of_parent? {path parent : List Char} (inner : parent ≠ [])
    (isParent : parent? path = some parent) : ∃ name, steps path = steps parent ++ [name] := by
  obtain ⟨some, rfl⟩ := (parent?_eq_some_iff inner).mp isParent
  have bare : ∀ part ∈ outer path, '/' ∉ part := fun part member =>
    Text.not_mem_of_mem_splitOn ((outer_isPrefix path).mem member)
  refine ⟨(components path).getLast some, ?_⟩
  rw [steps_lead_append, steps_join bare, outer, filter_trimIdle, steps_eq_filter_components]
  nth_rewrite 1 [← List.dropLast_append_getLast some]
  rw [List.filter_append, List.filter_singleton, isIdle_getLast some]
  rfl

end ImportSupply.Path
