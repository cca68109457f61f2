import ImportSupply.Registry
import Mathlib.Data.List.Nodup
import Mathlib.Tactic.Common

/-!
# Looking names up

A name resolves to an entry exactly when the entry is registered and the name is its local name:
local names are not repeated, so the first entry with a name is the only one.
-/

namespace ImportSupply.Registry

variable {registry : Registry} {name : String} {entry : Entry}

theorem mem_of_get? (found : registry.get? name = some entry) : entry ∈ registry.entries :=
  List.mem_of_find?_eq_some found

theorem localName_of_get? (found : registry.get? name = some entry) : entry.localName = name :=
  eq_of_beq (List.find?_eq_some_iff_append.mp found).1

theorem contains_iff : registry.contains name = true ↔ name ∈ registry.names := by
  simp [contains, get?, names, List.mem_map, List.find?_isSome]

theorem get?_of_contains (registered : registry.contains name = true) :
    ∃ entry, registry.get? name = some entry :=
  Option.isSome_iff_exists.mp registered

theorem get?_of_mem (member : entry ∈ registry.entries) :
    registry.get? entry.localName = some entry := by
  have registered : registry.contains entry.localName = true :=
    contains_iff.mpr (List.mem_map_of_mem member)
  obtain ⟨found, resolves⟩ := get?_of_contains registered
  have same := List.inj_on_of_nodup_map registry.nodup_localName (mem_of_get? resolves) member
    (localName_of_get? resolves)
  rw [resolves, same]

/-- Names resolve to registered entries. -/
theorem mem_of_mem_filterMap_get? {names : List String}
    (resolved : entry ∈ names.filterMap registry.get?) : entry ∈ registry.entries := by
  obtain ⟨name, -, found⟩ := List.mem_filterMap.mp resolved
  exact mem_of_get? found

/-- Registered entries are what their local names resolve to. -/
theorem filterMap_get?_map_localName {entries : List Entry}
    (registered : ∀ entry ∈ entries, entry ∈ registry.entries) :
    (entries.map Entry.localName).filterMap registry.get? = entries := by
  have resolved : entries.filterMap (registry.get? ∘ Entry.localName) = entries.filterMap some :=
    List.filterMap_congr fun entry member => get?_of_mem (registered entry member)
  rw [List.filterMap_map, resolved, List.filterMap_some]

theorem length_names : registry.names.length = registry.size :=
  List.length_map _

/-- A registry holds entries that it was given. -/
theorem mem_of_mem_ofEntries {entries : List Entry}
    (kept : entry ∈ (ofEntries entries).entries) : entry ∈ entries := by
  induction entries with
  | nil => cases kept
  | cons first rest ih =>
    change entry ∈ firstOfEach (first :: rest) at kept
    rw [firstOfEach, List.mem_cons, List.mem_filter] at kept
    rcases kept with rfl | ⟨kept, -⟩
    · exact List.mem_cons_self
    · exact List.mem_cons_of_mem first (ih kept)

/-! ## The first of several entries -/

/-- Of what is kept, the entry with a name is the first of all that have it. -/
theorem find?_firstOfEach (entries : List Entry) (name : String) :
    ((firstOfEach entries).find? fun entry => entry.localName == name) =
      entries.find? fun entry => entry.localName == name := by
  induction entries with
  | nil => rfl
  | cons first rest ih =>
    rw [firstOfEach, List.find?_cons, List.find?_cons, List.find?_filter]
    cases same : first.localName == name with
    | true => rfl
    | false =>
      -- nothing with this name was taken out for the first entry's sake
      have kept : (fun entry : Entry =>
          decide ((entry.localName != first.localName) = true ∧ (entry.localName == name) = true)) =
          fun entry => entry.localName == name := by
        funext entry
        have other : first.localName ≠ name := by simpa using same
        by_cases named : entry.localName = name
        · simp [named, other.symm]
        · simp [named]
      simp only [kept]
      exact ih

theorem get?_ofEntries (entries : List Entry) (name : String) :
    (ofEntries entries).get? name = entries.find? fun entry => entry.localName == name :=
  find?_firstOfEach entries name

/-- A registry holds those entries that are the first of their local names. -/
theorem mem_ofEntries_iff {entries : List Entry} :
    entry ∈ (ofEntries entries).entries ↔
      (entries.find? fun other => other.localName == entry.localName) = some entry := by
  rw [← get?_ofEntries]
  exact ⟨get?_of_mem, mem_of_get?⟩

/-- Taking entries out by their names and keeping the first of each name can change places. -/
theorem firstOfEach_filter (keep : String → Bool) (entries : List Entry) :
    firstOfEach (entries.filter fun entry => keep entry.localName) =
      (firstOfEach entries).filter fun entry => keep entry.localName := by
  induction entries with
  | nil => rfl
  | cons first rest ih =>
    rw [firstOfEach, List.filter_cons, List.filter_cons]
    cases kept : keep first.localName with
    | true =>
      rw [if_pos rfl, if_pos rfl, firstOfEach, ih, List.filter_filter, List.filter_filter]
      simp only [Bool.and_comm]
    | false =>
      -- the first entry is taken out with all that share its name, so hiding these changes nothing
      have without : ∀ entry : Entry, keep entry.localName = true →
          (entry.localName != first.localName) = true := by
        intro entry keeps
        rw [bne_iff_ne]
        rintro same
        rw [same, kept] at keeps
        cases keeps
      rw [if_neg (by simp), if_neg (by simp), ih, List.filter_filter]
      refine List.filter_congr fun entry _ => ?_
      by_cases keeps : keep entry.localName = true
      · rw [keeps, without entry keeps, Bool.and_self]
      · simp [keeps]

/-- Where no local name is repeated, nothing is left out. -/
theorem firstOfEach_eq_self {entries : List Entry}
    (distinct : (entries.map Entry.localName).Nodup) : firstOfEach entries = entries := by
  induction entries with
  | nil => rfl
  | cons first rest ih =>
    rw [List.map_cons, List.nodup_cons] at distinct
    obtain ⟨fresh, distinct⟩ := distinct
    have kept : (rest.filter fun other => other.localName != first.localName) = rest := by
      refine List.filter_eq_self.mpr fun other member => ?_
      rw [bne_iff_ne]
      intro same
      exact fresh (same ▸ List.mem_map_of_mem member)
    rw [firstOfEach, ih distinct, kept]

/-- A registry keeps its entries without the later ones of a name. -/
theorem firstOfEach_eq_eraseDupsBy (entries : List Entry) :
    firstOfEach entries =
      entries.eraseDupsBy fun entry other => entry.localName == other.localName := by
  match entries with
  | [] => rfl
  | first :: rest =>
    have same : (fun entry : Entry => entry.localName != first.localName) =
        fun entry => decide ((entry.localName == first.localName) = false) := by
      funext entry
      by_cases named : entry.localName = first.localName <;> simp [named]
    rw [firstOfEach, List.eraseDupsBy_cons, ← firstOfEach_filter (· != first.localName), same,
      firstOfEach_eq_eraseDupsBy]
termination_by entries.length
decreasing_by exact Nat.lt_succ_of_le (List.length_filter_le _ _)

end ImportSupply.Registry
