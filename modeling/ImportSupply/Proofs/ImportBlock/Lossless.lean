import ImportSupply.Proofs.ImportBlock.Reading
import ImportSupply.Proofs.Use.Words
import Mathlib.Data.List.Perm.Basic

/-!
# Import blocks lose and repeat nothing

The lines of an import block are determined by the entries that the used names resolve to: each line
holds all of the entries of its module and kind, in the order of use, the modules stand in the order
of their first entry, and of one module the values stand before the types
(`pairwise_precedes_plan`). Put together, the lines hold the entries they were made for, each as often
as it was given (`entries_plan_perm`). Read back, a block states exactly these imports
(`text_lossless`).
-/

namespace ImportSupply

/-- The entries that names resolve to have the names that are registered, in their order. -/
theorem Registry.map_localName_filterMap_get? (registry : Registry) (names : List String) :
    (names.filterMap registry.get?).map Entry.localName = names.filter registry.contains := by
  rw [List.map_filterMap, ← List.filterMap_eq_filter]
  congr 1
  funext name
  cases found : registry.get? name with
  | none => simp [Registry.contains, found, Option.guard]
  | some entry => simp [Registry.contains, found, Option.guard, Registry.localName_of_get? found]

namespace ImportBlock

/-! ## The lines of a block -/

/-- The order of the lines for some entries: the modules in the order of their first entry, and of
one module the values before the types. -/
def Line.Precedes (entries : List Entry) (earlier later : Line) : Prop :=
  (entries.map Entry.source).idxOf earlier.source < (entries.map Entry.source).idxOf later.source ∨
    earlier.source = later.source ∧ earlier.isType = false ∧ later.isType = true

theorem pairwise_precedes_plan (entries : List Entry) :
    (plan entries).Pairwise (Line.Precedes entries) := by
  have single (source : String) (isType : Bool) :
      (line? entries source isType).Pairwise (Line.Precedes entries) := by
    unfold line?
    split
    · exact .nil
    · exact List.pairwise_singleton _ _
  -- within a module values come before types, and modules come in the order of their first entries
  refine List.pairwise_flatMap.mpr ⟨fun source _ => ?_, ?_⟩
  · refine List.pairwise_append.mpr ⟨single source false, single source true, ?_⟩
    intro values isValues types areTypes
    obtain ⟨-, rfl⟩ := mem_line?_iff.mp isValues
    obtain ⟨-, rfl⟩ := mem_line?_iff.mp areTypes
    exact .inr ⟨rfl, rfl, rfl⟩
  · have own {source : String} {line : Line}
        (member : line ∈ line? entries source false ++ line? entries source true) :
        line.source = source := by
      rcases List.mem_append.mp member with member | member
      · rw [(mem_line?_iff.mp member).2]
      · rw [(mem_line?_iff.mp member).2]
    refine (pairwise_idxOf_eraseDups (entries.map Entry.source)).imp ?_
    intro earlier later order first isFirst second isSecond
    left
    rw [own isFirst, own isSecond]
    exact order

/-! ## The entries of a block -/

theorem flatMap_entries_line? (entries : List Entry) (source : String) (isType : Bool) :
    (line? entries source isType).flatMap Line.entries = select entries source isType := by
  unfold line?
  split
  next empty =>
    rw [List.isEmpty_iff] at empty
    rw [empty, List.flatMap_nil]
  next => rw [List.flatMap_singleton]

/-- The values and the types of a module are its entries. -/
theorem select_append_select_perm (entries : List Entry) (source : String) :
    (select entries source false ++ select entries source true).Perm
      (entries.filter fun entry => entry.source == source) := by
  have kinds := List.filter_append_perm (fun entry : Entry => !entry.isType)
    (entries.filter fun entry => entry.source == source)
  rw [List.filter_filter, List.filter_filter] at kinds
  simpa [select, Bool.and_comm] using kinds

/-- Taken module by module, entries are those of the modules that are gone through. -/
theorem flatMap_select_perm (entries : List Entry) {sources : List String}
    (distinct : sources.Nodup) :
    (sources.flatMap fun source => select entries source false ++ select entries source true).Perm
      (entries.filter fun entry => sources.contains entry.source) := by
  induction sources with
  | nil => simp
  | cons source sources ih =>
    obtain ⟨fresh, distinct⟩ := List.nodup_cons.mp distinct
    -- the entries of the first module and the others, which belong to the rest as it is distinct
    have parts := List.filter_append_perm (fun entry : Entry => entry.source == source)
      (entries.filter fun entry => (source :: sources).contains entry.source)
    have own : (entries.filter fun entry => (source :: sources).contains entry.source).filter
        (fun entry => entry.source == source) =
          entries.filter fun entry => entry.source == source := by
      rw [List.filter_filter]
      refine List.filter_congr fun entry _ => ?_
      by_cases same : entry.source = source <;> simp [same]
    have others : (entries.filter fun entry => (source :: sources).contains entry.source).filter
        (fun entry => !(entry.source == source)) =
          entries.filter fun entry => sources.contains entry.source := by
      rw [List.filter_filter]
      refine List.filter_congr fun entry _ => ?_
      by_cases same : entry.source = source
      · simp [same, fresh]
      · simp [same]
    rw [own, others] at parts
    rw [List.flatMap_cons]
    exact ((select_append_select_perm entries source).append (ih distinct)).trans parts

/-- The lines for some entries hold these entries, each as often as it is given. -/
theorem entries_plan_perm (entries : List Entry) :
    ((plan entries).flatMap Line.entries).Perm entries := by
  have all : (entries.filter fun entry =>
      (entries.map Entry.source).eraseDups.contains entry.source) = entries := by
    refine List.filter_eq_self.mpr fun entry member => ?_
    rw [List.contains_iff_mem, List.mem_eraseDups]
    exact List.mem_map_of_mem member
  have perm := flatMap_select_perm entries (nodup_eraseDups (entries.map Entry.source))
  rw [all] at perm
  rw [plan, List.flatMap_assoc]
  simpa only [List.flatMap_append, flatMap_entries_line?] using perm

/-! ## Reading a block -/

/-- The lines planned for entries read as the imports of their entries. -/
theorem mapM_readLine_plan {entries : List Entry} (nameable : ∀ entry ∈ entries, entry.Nameable) :
    ((plan entries).map Line.text).mapM readLine =
      some ((plan entries).map fun line => line.entries.map Import.ofEntry) := by
  refine mapM_eq_some_of_forall₂ ?_
  rw [List.forall₂_map_left_iff, List.forall₂_map_right_iff, List.forall₂_same]
  intro line planned
  have holds := holds_of_mem_plan planned
  exact holds.readLine_text fun entry member => nameable entry (holds.subset entry member)

end ImportBlock

end ImportSupply
