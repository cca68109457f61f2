import ImportSupply.Proofs.ImportBlock.Statements
import ImportSupply.Proofs.Injection.Specification
import ImportSupply.Proofs.Order.Stable

/-!
# The order of what is injected

Injected names are reported in the order of use, but the block regroups them: by their modules, and
in a module by their kind. A block is a stable grouping of the entries that it is made for
(`select_flatMap_plan`): sorted by module and kind, and of one module and kind in the order of use.
So both orders are the same exactly if the entries already come grouped (`Grouped`), that is, no
module is left and taken up again, and no value of a module follows one of its types.
-/

namespace ImportSupply

namespace ImportBlock

/-! ## A block groups its entries -/

theorem select_append (front back : List Entry) (source : String) (isType : Bool) :
    select (front ++ back) source isType =
      select front source isType ++ select back source isType :=
  List.filter_append ..

theorem select_select (entries : List Entry) (other source : String) (kind isType : Bool) :
    select (select entries other kind) source isType =
      if other = source ∧ kind = isType then select entries source isType else [] := by
  by_cases same : other = source ∧ kind = isType
  · obtain ⟨rfl, rfl⟩ := same
    rw [if_pos ⟨rfl, rfl⟩, select, select, List.filter_filter]
    simp only [Bool.and_self]
  · rw [if_neg same, List.eq_nil_iff_forall_not_mem]
    intro entry member
    obtain ⟨inner, ofSource, ofKind⟩ := mem_select.mp member
    obtain ⟨-, ofOther, ofOtherKind⟩ := mem_select.mp inner
    exact same ⟨ofOther.symm.trans ofSource, ofOtherKind.symm.trans ofKind⟩

/-- Gathered from distinct modules, the entries of one module and kind are all there if the module
is among them. -/
theorem select_flatMap_select (entries : List Entry) {sources : List String}
    (distinct : sources.Nodup) (source : String) (isType : Bool) :
    select (sources.flatMap fun other => select entries other false ++ select entries other true)
      source isType = if source ∈ sources then select entries source isType else [] := by
  induction sources with
  | nil => rfl
  | cons other sources ih =>
    obtain ⟨fresh, distinct⟩ := List.nodup_cons.mp distinct
    -- a module gives nothing of another one, and it does not come again
    rw [List.flatMap_cons, select_append, select_append, select_select, select_select, ih distinct]
    by_cases same : other = source
    · subst same
      cases isType <;> simp [fresh]
    · simp [same, Ne.symm same]

/-- Of each module and kind, a block has the entries that it is made for, in their order. -/
theorem select_flatMap_plan (entries : List Entry) (source : String) (isType : Bool) :
    select ((plan entries).flatMap Line.entries) source isType = select entries source isType := by
  rw [plan, List.flatMap_assoc]
  simp only [List.flatMap_append, flatMap_entries_line?]
  rw [select_flatMap_select entries (nodup_eraseDups _)]
  by_cases listed : source ∈ (entries.map Entry.source).eraseDups
  · rw [if_pos listed]
  · rw [if_neg listed]
    symm
    rw [List.eq_nil_iff_forall_not_mem]
    intro entry member
    obtain ⟨given, rfl, -⟩ := mem_select.mp member
    exact listed (List.mem_eraseDups.mpr (List.mem_map_of_mem given))

/-! ## The order of a block -/

/-- The place of an entry's line in the block for some entries: two for each module, in the order of
their first entries, one for its values and one for its types. -/
def place (entries : List Entry) (entry : Entry) : Nat :=
  2 * (entries.map Entry.source).idxOf entry.source + entry.isType.toNat

theorem place_le_iff {entries : List Entry} {a b : Entry} :
    place entries a ≤ place entries b ↔
      (entries.map Entry.source).idxOf a.source < (entries.map Entry.source).idxOf b.source ∨
        (entries.map Entry.source).idxOf a.source = (entries.map Entry.source).idxOf b.source ∧
          (a.isType = true → b.isType = true) := by
  unfold place
  cases a.isType <;> cases b.isType <;> simp <;> omega

theorem place_eq_iff {entries : List Entry} {a b : Entry} (member : a ∈ entries) :
    place entries b = place entries a ↔ b.source = a.source ∧ b.isType = a.isType := by
  constructor
  · intro same
    have below := place_le_iff.mp same.le
    have above := place_le_iff.mp same.ge
    have source : (entries.map Entry.source).idxOf a.source =
        (entries.map Entry.source).idxOf b.source := by
      omega
    refine ⟨((List.idxOf_inj (List.mem_map_of_mem member)).mp source).symm, ?_⟩
    rw [source] at below above
    simp only [Nat.lt_irrefl, true_and, false_or] at below above
    exact Bool.eq_iff_iff.mpr ⟨below, above⟩
  · rintro ⟨source, kind⟩
    rw [place, place, source, kind]

/-- A block goes through the places in order. -/
theorem pairwise_place_plan (entries : List Entry) :
    ((plan entries).flatMap Line.entries).Pairwise fun a b =>
      place entries a ≤ place entries b := by
  refine List.pairwise_flatMap.mpr ⟨fun line planned => ?_, ?_⟩
  · have holds := holds_of_mem_plan planned
    refine List.pairwise_of_forall_mem_list fun a first b second => ?_
    rw [place, place, holds.source a first, holds.source b second, holds.kind a first,
      holds.kind b second]
  · refine (pairwise_precedes_plan entries).imp_of_mem ?_
    intro earlier later planned planned' precedes a first b second
    have holds := holds_of_mem_plan planned
    have holds' := holds_of_mem_plan planned'
    rw [place_le_iff, holds.source a first, holds'.source b second, holds.kind a first,
      holds'.kind b second]
    rcases precedes with before | ⟨same, isValue, isType⟩
    · exact .inl before
    · exact .inr ⟨by rw [same], fun _ => isType⟩

/-- A block has the order of its entries just if they go through the places in order. -/
theorem flatMap_entries_plan_eq_iff (entries : List Entry) :
    (plan entries).flatMap Line.entries = entries ↔
      entries.Pairwise fun a b => place entries a ≤ place entries b := by
  constructor
  · intro same
    have ordered := pairwise_place_plan entries
    rwa [same] at ordered
  · intro ordered
    apply eq_of_pairwise_of_filter_key (place entries) (pairwise_place_plan entries) ordered
    intro k
    -- the entries at one place are those of one module and kind, and a block keeps their order
    by_cases taken : ∃ entry ∈ entries, place entries entry = k
    · obtain ⟨entry, member, rfl⟩ := taken
      have selected (items : List Entry) :
          (items.filter fun other => place entries other == place entries entry) =
            select items entry.source entry.isType := by
        refine List.filter_congr fun other _ => ?_
        rw [Bool.eq_iff_iff, beq_iff_eq, place_eq_iff member]
        simp
      rw [selected, selected, select_flatMap_plan]
    · have none {items : List Entry} (same : ∀ entry, entry ∈ items ↔ entry ∈ entries) :
          (items.filter fun other => place entries other == k) = [] := by
        rw [List.filter_eq_nil_iff]
        intro other member here
        exact taken ⟨other, (same other).mp member, eq_of_beq here⟩
      rw [none fun entry => (entries_plan_perm entries).mem_iff, none fun entry => Iff.rfl]

/-! ## Grouped entries -/

/-- Entries that come module by module, and of each module the values before the types. -/
structure Grouped (entries : List Entry) : Prop where
  modules : ∀ a b c, [a, b, c].Sublist entries → a.source = c.source → b.source = a.source
  kinds : ∀ a b, [a, b].Sublist entries → a.source = b.source → a.isType = true → b.isType = true

/-- If a module comes first before that of an entry, it does so with an entry before this one. -/
theorem exists_pair_sublist {entries : List Entry} {entry : Entry} (member : entry ∈ entries)
    {source : String}
    (before : (entries.map Entry.source).idxOf source <
      (entries.map Entry.source).idxOf entry.source) :
    ∃ first, first.source = source ∧ [first, entry].Sublist entries := by
  induction entries with
  | nil => cases member
  | cons head entries ih =>
    rw [List.map_cons] at before
    have own : head.source ≠ entry.source := by
      intro same
      rw [same, List.idxOf_cons_self] at before
      exact Nat.not_lt_zero _ before
    have behind : entry ∈ entries := by
      rcases List.mem_cons.mp member with rfl | behind
      · exact absurd rfl own
      · exact behind
    by_cases starts : head.source = source
    · exact ⟨head, starts, (List.singleton_sublist.mpr behind).cons_cons head⟩
    · rw [List.idxOf_cons_ne _ starts, List.idxOf_cons_ne _ own] at before
      obtain ⟨first, named, pair⟩ := ih behind (Nat.lt_of_succ_lt_succ before)
      exact ⟨first, named, pair.cons head⟩

theorem Grouped.pairwise_place {entries : List Entry} (grouped : Grouped entries) :
    entries.Pairwise fun a b => place entries a ≤ place entries b := by
  rw [List.pairwise_iff_forall_sublist]
  intro a b pair
  rw [place_le_iff]
  by_cases same : a.source = b.source
  · exact .inr ⟨by rw [same], grouped.kinds a b pair same⟩
  · left
    by_contra later
    obtain ⟨front, back, rfl, own, rest⟩ := List.cons_sublist_iff.mp pair
    -- otherwise the later module comes first before the earlier entry, and is taken up again
    have listed : a.source ∈ front.map Entry.source := List.mem_map_of_mem own
    have before : (front.map Entry.source).idxOf b.source <
        (front.map Entry.source).idxOf a.source := by
      have apart : (front.map Entry.source).idxOf a.source ≠
          (front.map Entry.source).idxOf b.source :=
        mt (List.idxOf_inj listed).mp same
      have inside := List.idxOf_lt_length_iff.mpr listed
      rw [List.map_append, List.idxOf_append_of_mem listed, List.idxOf_append] at later
      split at later
      · omega
      · omega
    obtain ⟨first, named, twice⟩ := exists_pair_sublist own before
    have triple : [first, a, b].Sublist (front ++ back) := twice.append rest
    exact same ((grouped.modules first a b triple named).trans named)

theorem grouped_iff {entries : List Entry} :
    Grouped entries ↔ entries.Pairwise fun a b => place entries a ≤ place entries b := by
  refine ⟨Grouped.pairwise_place, fun ordered => ⟨?_, ?_⟩⟩
  · intro a b c triple same
    have places := List.pairwise_cons.mp (ordered.sublist triple)
    have first := place_le_iff.mp (places.1 b (by simp))
    have second := place_le_iff.mp (List.rel_of_pairwise_cons places.2 (List.mem_singleton_self c))
    have between : (entries.map Entry.source).idxOf b.source =
        (entries.map Entry.source).idxOf a.source := by
      rw [← same] at second
      omega
    exact (List.idxOf_inj (List.mem_map_of_mem (triple.subset (by simp)))).mp between
  · intro a b pair same
    have places := List.pairwise_iff_forall_sublist.mp ordered pair
    rw [place_le_iff, same] at places
    rcases places with less | ⟨-, kinds⟩
    · exact absurd less (Nat.lt_irrefl _)
    · exact kinds

instance (entries : List Entry) : Decidable (Grouped entries) :=
  decidable_of_iff _ grouped_iff.symm

end ImportBlock

namespace Registry

open ImportBlock

/-- The entries that injected names resolve to have these names. -/
theorem map_localName_injected (registry : Registry) (script : String) :
    ((registry.inject script).injected.filterMap registry.get?).map Entry.localName =
      (registry.inject script).injected := by
  rw [map_localName_filterMap_get?, List.filter_eq_self]
  intro name supplied
  rw [injected_inject] at supplied
  exact contains_of_mem_missingNames supplied

/-- The local names of registered entries keep their order in a block just if the entries come
grouped: names determine the entries. -/
theorem map_localName_plan_eq_iff {registry : Registry} {entries : List Entry}
    (registered : ∀ entry ∈ entries, entry ∈ registry.entries) :
    entries.map Entry.localName = ((plan entries).flatMap Line.entries).map Entry.localName ↔
      Grouped entries := by
  have planned : ∀ entry ∈ (plan entries).flatMap Line.entries, entry ∈ registry.entries :=
    fun entry member => registered entry ((entries_plan_perm entries).mem_iff.mp member)
  rw [grouped_iff, ← flatMap_entries_plan_eq_iff]
  constructor
  · intro same
    have resolved := congrArg (List.filterMap registry.get?) same
    rw [filterMap_get?_map_localName registered, filterMap_get?_map_localName planned] at resolved
    exact resolved.symm
  · intro same
    rw [same]

/-- **Injected names are reported in the order of use, which is the order of their imports just if
they come grouped.** For entries whose names are ASCII identifiers, the block in front of the script
reads as one import for each injected name; of each module and kind the imports stand in the order
of use, and all of them do exactly if no module is left and taken up again and in no module a value
follows a type. -/
theorem injected_eq_imports_iff_grouped (registry : Registry)
    (nameable : ∀ entry ∈ registry.entries, entry.Nameable) (script : String) :
    let injection := registry.inject script
    let block := ImportBlock.text registry injection.injected
    let entries := injection.injected.filterMap registry.get?
    injection.code =
        (if injection.injected = [] then script else String.ofList block ++ "\n" ++ script) ∧
      ∃ imports, readStatements block = some imports ∧
        (imports.map Import.localName).Perm injection.injected ∧
        (∀ source isType,
          (imports.filter fun one => one.source == source && one.isType == isType) =
            (select entries source isType).map Import.ofEntry) ∧
        (injection.injected = imports.map Import.localName ↔ Grouped entries) := by
  intro injection block entries
  have registered : ∀ entry ∈ entries, entry ∈ registry.entries :=
    fun entry => mem_of_mem_filterMap_get?
  have injected : entries.map Entry.localName = injection.injected :=
    map_localName_injected registry script
  have names : (((plan entries).flatMap Line.entries).map Import.ofEntry).map Import.localName =
      ((plan entries).flatMap Line.entries).map Entry.localName := by
    rw [List.map_map]
    rfl
  refine ⟨code_inject registry script, ((plan entries).flatMap Line.entries).map Import.ofEntry, ?_,
    ?_, ?_, ?_⟩
  · show readStatements (['\n'].intercalate (lines registry injection.injected)) = _
    rw [lines_eq_plan]
    exact readStatements_intercalate fun entry member => nameable entry (registered entry member)
  · rw [names, ← injected]
    exact (entries_plan_perm entries).map Entry.localName
  · intro source isType
    rw [← select_flatMap_plan entries source isType, List.filter_map]
    rfl
  · rw [names, ← injected]
    exact map_localName_plan_eq_iff registered

/-- A value and a type of one module, used in this order, and a value of a module with a line feed
in its specifier. -/
theorem injected_eq_imports_module_by_module :
    let registry := Registry.ofEntries
      [.value "b" "two\nlines", .type "T" "m", .value "a" "m"]
    let injection := registry.inject "a<T>(b)"
    injection.injected = ["a", "T", "b"] ∧
      ∃ imports, readStatements (ImportBlock.text registry injection.injected) = some imports ∧
        injection.injected = imports.map Import.localName := by
  intro registry injection
  have injected : injection.injected = ["a", "T", "b"] := by decide +kernel
  obtain ⟨-, imports, reads, -, -, ordered⟩ :=
    injected_eq_imports_iff_grouped registry (by decide) "a<T>(b)"
  refine ⟨injected, imports, reads, ordered.mpr ?_⟩
  show Grouped (injection.injected.filterMap registry.get?)
  rw [injected]
  decide

/-- A module that is taken up again after another: the order of use is not that of the imports. -/
theorem injected_ne_imports_interleaved :
    let registry := Registry.ofEntries [.value "a" "m", .value "b" "n", .value "c" "m"]
    let injection := registry.inject "a(); b(); c()"
    (∀ entry ∈ registry.entries, entry.Nameable) ∧
      injection.code =
        "import \x7b a, c \x7d from 'm'\nimport \x7b b \x7d from 'n'\na(); b(); c()" ∧
      injection.injected = ["a", "b", "c"] ∧
      (readStatements (ImportBlock.text registry injection.injected)).map
        (List.map Import.localName) = some ["a", "c", "b"] := by
  decide +kernel

end Registry

end ImportSupply
