import ImportSupply.Proofs.Binding.Withdrawn

/-!
# Declarations that are found

In a script of declarations every declared name is found, whatever the declarations around it are
(`mem_declared_script`). What precedes a declaration is settled, so the heading of a declaration of
one name is found (`Named.mem_declaredIn`), and so is a destructuring declaration
(`Destructured.mem_declaredIn`).
-/

namespace ImportSupply.Binding

open Literal Pattern

/-! ## Declarations of one name -/

theorem Separator.separates {separator : Separator} {kind : Kind}
    (fits : separator.fits kind = true) : kind.Separates (displayOf separator.segments) := by
  cases separator with
  | spaced spacing =>
    have blank : ∀ c ∈ spacing.display, Text.isBlank c = true := fun _ =>
      Spacing.isBlank_of_mem_display
    rw [segments, displayOf_spacing]
    cases kind with
    | function => exact .inl blank
    | _ => exact ⟨spacing.display_ne_nil, blank⟩
  | starred before after =>
    obtain rfl : kind = .function := by simpa [Separator.fits] using fits
    exact .inr ⟨before.display, after.display, fun _ => Layout.isBlank_of_mem_display,
      fun _ => Layout.isBlank_of_mem_display, by simp [segments]⟩

/-- What follows a name starts with layout and a mark. -/
theorem Ending.exists_mark (ending : Ending) : ∃ pad mark rest,
    displayOf ending.segments = pad ++ mark :: rest ∧ (∀ c ∈ pad, Text.isBlank c = true) ∧
      Name.isTail mark = false := by
  have blank {layout : Layout} : ∀ c ∈ layout.display, Text.isBlank c = true := fun _ =>
    Layout.isBlank_of_mem_display
  cases ending with
  | call before inside between body =>
    exact ⟨before.display, '(', _, by simp only [segments, displayOf_append, displayOf_layout]; rfl,
      blank, by decide⟩
  | block before body =>
    exact ⟨before.display, '{', _, by simp only [segments, displayOf_append, displayOf_layout]; rfl,
      blank, by decide⟩
  | value assigned => exact ⟨_, _, _, assigned.displayOf_segments, blank, by decide⟩
  | parameters before inner allowed assigned =>
    exact ⟨before.display, '<', _, by simp only [segments, displayOf_append, displayOf_layout]; rfl,
      blank, by decide⟩

/-- What follows a name closes the heading. -/
theorem Ending.exists_closing {ending : Ending} {kind : Kind} (fits : ending.fits kind = true) :
    ∃ closing rest, displayOf ending.segments = closing ++ rest ∧ kind.Closes closing := by
  have blank {layout : Layout} : ∀ c ∈ layout.display, Text.isBlank c = true := fun _ =>
    Layout.isBlank_of_mem_display
  -- only a type has something to close
  by_cases isType : kind = .typeAlias
  · subst isType
    cases ending with
    | call _ _ _ _ | block _ _ => cases fits
    | value assigned =>
      refine ⟨assigned.before.display ++ ['='], assigned.after.display ++ assigned.value.display,
        by simp [segments, assigned.displayOf_segments],
        assigned.before.display, [], [], blank, .inl rfl, by simp, rfl⟩
    | parameters before inner allowed assigned =>
      have inside : ';' ∉ inner := fun member => absurd (allowed ';' member) (by decide)
      refine ⟨before.display ++ ('<' :: (inner ++ ['>']) ++ (assigned.before.display ++ ['='])),
        assigned.after.display ++ assigned.value.display,
        by simp [segments, assigned.displayOf_segments],
        before.display, _, assigned.before.display, blank, .inr ⟨inner, inside, rfl⟩, blank, rfl⟩
  · refine ⟨[], _, rfl, ?_⟩
    cases kind <;> first | rfl | exact absurd rfl isType

theorem Named.heads (named : Named) (back : List Char) :
    named.kind.Heads named.bound.text (displayOf named.heading ++ back) := by
  obtain ⟨closing, rest, shown, closes⟩ := Ending.exists_closing named.ends
  obtain ⟨pad, mark, more, begins, blank, outside⟩ := named.ending.exists_mark
  refine ⟨named.word, named.known, displayOf named.separator.segments, closing, rest ++ back,
    Separator.separates named.separates, named.bound.bindable, ?_, closes, ?_⟩
  · rw [← List.append_assoc, ← shown, begins, List.append_assoc, List.cons_append]
    exact Name.head?_isTail_of_padded blank outside _
  · rw [named.displayOf_heading, shown]
    simp

theorem Named.mem_declaredIn (named : Named) {front : List Char} (settled : Settled front)
    (back : List Char) :
    named.bound.name ∈ declaredIn (front ++ (displayOf named.segments ++ back)) := by
  have split : front ++ (displayOf named.segments ++ back) =
      front ++ displayOf (leadSegments named.leads) ++ (displayOf named.heading ++ back) := by
    simp [segments]
  rw [split]
  exact Kind.mem_declaredIn_of_mem_namesOf ((named.heads back).mem_namesOf
    (settled.getLast?_isTail named.leads) (settled.isOpen_eq_false named.ordered))

/-! ## Destructuring declarations -/

namespace Destructured

variable (destructured : Destructured)

/-- What a declaration shows from its keyword to its equals sign. -/
def shownStart : List Char :=
  destructured.word.toList ++ (destructured.between.display ++ destructured.bracket.opening ::
    (destructured.bodyText ++ destructured.bracket.closing ::
      (destructured.assigned.before.display ++ ['='])))

theorem displayOf_segments :
    displayOf destructured.segments = displayOf (leadSegments destructured.leads) ++
      (destructured.shownStart ++
        (destructured.assigned.after.display ++ destructured.assigned.value.display)) := by
  simp [segments, shownStart, destructured.displayOf_heading,
    destructured.assigned.displayOf_segments]

theorem destructures :
    Destructures destructured.bracket destructured.bodyText destructured.shownStart := by
  refine ⟨not_mem_bodyText ?_ ?_, destructured.word, destructured.known,
    destructured.between.display, destructured.assigned.before.display,
    fun _ => Layout.isBlank_of_mem_display, fun _ => Layout.isBlank_of_mem_display, rfl⟩
  · cases destructured.bracket <;> decide
  · cases destructured.bracket <;> decide

theorem mem_declaredIn {front : List Char} (settled : Settled front) (back : List Char)
    {name : String}
    (declares : name ∈ destructured.elements.map fun element => element.bound.name) :
    name ∈ declaredIn (front ++ (displayOf destructured.segments ++ back)) := by
  have answers : Answers (front ++ displayOf (leadSegments destructured.leads)) :=
    settled.toAnswers.append (answers_of_plain fun _ => isPlain_of_mem_leads)
  obtain ⟨found, member, said⟩ := destructured.destructures.exists_mem_allMatches
    (settled.getLast?_isTail destructured.leads) answers (destructured.assigned.after.display ++
      (destructured.assigned.value.display ++ back))
  have split : front ++ (displayOf destructured.segments ++ back) =
      front ++ displayOf (leadSegments destructured.leads) ++ (destructured.shownStart ++
        (destructured.assigned.after.display ++
          (destructured.assigned.value.display ++ back))) := by
    simp [destructured.displayOf_segments]
  rw [split]
  refine List.mem_append_right _ (List.mem_flatMap.mpr ⟨found, member, ?_⟩)
  rwa [said, destructured.ofDestructuring_bodyText]

end Destructured

/-! ## Scripts -/

/-- A declaration behind a settled text is found. -/
theorem Declaration.mem_declaredIn (declaration : Declaration) {front : List Char}
    (settled : Settled front) (back : List Char) {name : String}
    (declares : name ∈ declaration.names) :
    name ∈ declaredIn (front ++ (displayOf declaration.segments ++ back)) := by
  cases declaration with
  | named declaration =>
    rw [List.mem_singleton.mp declares]
    exact declaration.mem_declaredIn settled back
  | destructured declaration => exact declaration.mem_declaredIn settled back declares

/-- Every name that a script of declarations declares is found in it. -/
theorem mem_declared_script (leading : Layout) {lines : List DeclarationLine}
    {line : DeclarationLine} (listed : line ∈ lines) {name : String}
    (declares : name ∈ line.declaration.names) :
    name ∈ declared (textOf (declarationScript leading lines)) := by
  obtain ⟨before, after, rfl⟩ := List.append_of_mem listed
  have settled : Settled (leading.display ++ before.flatMap fun line => displayOf line.segments) :=
    (settled_of_isBlank fun _ => Layout.isBlank_of_mem_display).append
      (Settled.flatMap fun line _ => line.settled)
  have shown : displayOf (declarationScript leading (before ++ line :: after)) =
      (leading.display ++ before.flatMap fun line => displayOf line.segments) ++
        (displayOf line.declaration.segments ++ (line.trailing.display ++
          displayOf (after.flatMap DeclarationLine.segments))) := by
    simp [declarationScript, displayOf_flatMap, DeclarationLine.segments]
  rw [declared, mask_textOf, shown]
  exact line.declaration.mem_declaredIn settled _ declares

/-- A script of declarations withdraws every name that it declares, whatever the candidates are, and
keeps the candidates that are not declared in the masked script. -/
theorem withoutDeclared_declarationScript (leading : Layout) (lines : List DeclarationLine)
    (candidates : List String) :
    List.Disjoint (lines.flatMap fun line => line.declaration.names)
        (withoutDeclared (textOf (declarationScript leading lines)) candidates) ∧
      ∀ name ∈ candidates,
        name ∈ withoutDeclared (textOf (declarationScript leading lines)) candidates ∨
          Declares (displayOf (declarationScript leading lines)) name.toList := by
  refine ⟨fun name declares kept => ?_, fun name candidate => ?_⟩
  · obtain ⟨line, listed, declares⟩ := List.mem_flatMap.mp declares
    exact (mem_withoutDeclared.mp kept).2 (mem_declared_script leading listed declares)
  · by_cases found : name ∈ declared (textOf (declarationScript leading lines))
    · rw [declared, mask_textOf] at found
      exact .inr (declares_of_mem_declaredIn found)
    · exact .inl (mem_withoutDeclared.mpr ⟨candidate, found⟩)

example : withoutDeclared
    ("export type N<P, Q = R<P>> = 'v' // type M = 1\n".toList ++
      "const \x7b a, b: c = 'd', ...r \x7d = 'v'\nfunction* g() \x7b\x7d".toList)
    ["N", "P", "M", "a", "b", "c", "d", "r", "g"] = ["P", "M", "b", "d"] := by
  decide +kernel

end ImportSupply.Binding
