import ImportSupply.Json.Record
import ImportSupply.Proofs.Json.Layout
import Mathlib.Data.List.Forall2

/-!
# Reading values of a form

What a reading of one form makes of the outline of a value that was written in it: a value of any
form (`Value.Fits.read_outline`), an array of items that are each read back, and an object whose
members each set a field of a record.
-/

namespace ImportSupply.Json

/-! ## Values of any form -/

theorem Items.read_outlineItems {room : Nat} {items : List Value}
    (reads : ∀ item ∈ items, item.outline.read room = .ok item) :
    (outlineItems items).read room = .ok items := by
  induction items with
  | nil => rfl
  | cons item items ih =>
    have others := ih fun each member => reads each (List.mem_cons_of_mem _ member)
    rw [outlineItems, Items.read, reads item List.mem_cons_self, others]
    rfl

theorem Members.read_outlineMembers {room : Nat} {members : List (String × Value)}
    (reads : ∀ member ∈ members, member.2.outline.read room = .ok member.2) :
    (outlineMembers members).read room = .ok members := by
  induction members with
  | nil => rfl
  | cons member members ih =>
    have own := reads member List.mem_cons_self
    have others := ih fun each among => reads each (List.mem_cons_of_mem _ among)
    rw [outlineMembers, Members.read, own, others]
    rfl

/-- A value that is not nested too deep is read as it is. -/
theorem Value.Fits.read_outline {value : Value} {depth : Nat} (fits : value.Fits depth) {room : Nat}
    (enough : depth < room) : value.outline.read room = .ok value := by
  induction fits generalizing room with
  | null => rfl
  | bool value => rfl
  | string text => rfl
  | array _ ih =>
    have inner :=
      Items.read_outlineItems fun item member => ih item member (Nat.lt_sub_of_add_lt enough)
    rw [Value.outline, Outline.read, if_neg (by omega), inner]
    rfl
  | object _ ih =>
    have inner :=
      Members.read_outlineMembers fun each member => ih each member (Nat.lt_sub_of_add_lt enough)
    rw [Value.outline, Outline.read, if_neg (by omega), inner]
    rfl

/-! ## Arrays -/

/-- A reading that gets back whatever is written. -/
def ReadsBack {α : Type} (read : Outline → Except Complaint α) (write : α → Value) : Prop :=
  ∀ value, read (write value).outline = .ok value

theorem ReadsBack.list {α : Type} {read : Outline → Except Complaint α} {write : α → Value}
    (readsBack : ReadsBack read write) :
    ReadsBack (Outline.readList read) fun values => .array (values.map write) := by
  intro values
  show (outlineItems (values.map write)).readEach read = .ok values
  induction values with
  | nil => rfl
  | cons value values ih =>
    rw [List.map_cons, outlineItems, Items.readEach, readsBack value, ih]
    rfl

/-! ## Objects -/

namespace Record

variable {ρ : Type} {record : Record ρ}

/-- A member of an object sets a field of the record. -/
def Sets (record : Record ρ) (member : String × Value) (update : ρ → ρ) : Prop :=
  ∃ field, record.fields.find? (fun field => field.name == member.1) = some field ∧
    field.read member.2.outline = .ok update

/-- A field that takes up what is read of its value. -/
theorem Sets.of_read {α : Type} {name : String} {required : Bool} {item : Value} {value : α}
    {read : Outline → Except Complaint α} {set : α → ρ → ρ}
    (known : record.fields.find? (fun field => field.name == name) =
      some ⟨name, required, fun item => do return set (← read item)⟩)
    (reads : read item.outline = .ok value) : record.Sets (name, item) (set value) := by
  refine ⟨_, known, ?_⟩
  show (do return set (← read item.outline)) = _
  rw [reads]
  rfl

theorem readMembers_more {member : String × Value} {update : ρ → ρ} {seen : List String}
    (sets : record.Sets member update) (fresh : member.1 ∉ seen) (rest : Members) (value : ρ) :
    record.readMembers seen (.more (.ok member.1) member.2.outline rest) value =
      record.readMembers (member.1 :: seen) rest (update value) := by
  obtain ⟨field, known, read⟩ := sets
  have unseen : seen.contains member.1 = false := by simpa using fresh
  simp only [readMembers, bind, Except.bind, known, unseen, read]
  rfl

/-- Members with different names are all taken up, in their order. -/
theorem readMembers_outlineMembers {members : List (String × Value)} {updates : List (ρ → ρ)}
    (sets : List.Forall₂ record.Sets members updates) :
    ∀ {seen : List String} {value : ρ}, (members.map Prod.fst).Nodup →
      (∀ member ∈ members, member.1 ∉ seen) →
      record.readMembers seen (outlineMembers members) value =
        record.finishMembers ((members.map Prod.fst).reverse ++ seen)
          (updates.foldl (fun value update => update value) value) := by
  induction sets with
  | nil =>
    intro seen value _ _
    rfl
  | @cons member update members updates own _ ih =>
    intro seen value nodup fresh
    obtain ⟨apart, nodup⟩ := List.nodup_cons.mp nodup
    rw [outlineMembers, readMembers_more own (fresh member List.mem_cons_self), ih nodup]
    · simp
    · intro each among
      rw [List.mem_cons, not_or]
      refine ⟨fun same => apart ?_, fresh each (List.mem_cons_of_mem _ among)⟩
      exact same ▸ List.mem_map_of_mem among

/-- Names that give no field twice, and every required one. -/
def Covers (record : Record ρ) (names : List String) : Prop :=
  names.Nodup ∧ ∀ field ∈ record.fields, field.required = true → field.name ∈ names

instance (names : List String) : Decidable (record.Covers names) :=
  inferInstanceAs (Decidable (_ ∧ _))

/-- **A record is read from an object** whose members each set a field, with names that cover it. -/
theorem readObject_outline {members : List (String × Value)} {updates : List (ρ → ρ)} {result : ρ}
    (sets : List.Forall₂ record.Sets members updates)
    (covers : record.Covers (members.map Prod.fst))
    (gives : updates.foldl (fun value update => update value) record.unread = result) :
    record.readObject (Value.object members).outline = .ok result := by
  obtain ⟨nodup, complete⟩ := covers
  subst gives
  show record.readMembers [] (outlineMembers members) record.unread = _
  rw [readMembers_outlineMembers sets nodup fun _ _ => List.not_mem_nil, List.append_nil,
    finishMembers]
  have found : record.fields.find? (fun field =>
      field.required && !((members.map Prod.fst).reverse.contains field.name)) = none := by
    rw [List.find?_eq_none]
    intro field known missing
    rw [Bool.and_eq_true, Bool.not_eq_true'] at missing
    have given := List.mem_reverse.mpr (complete field known missing.1)
    rw [List.contains_iff_mem.mpr given] at missing
    exact Bool.noConfusion missing.2
  rw [found]

end Record

end ImportSupply.Json
