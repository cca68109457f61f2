import ImportSupply.Export
import ImportSupply.Proofs.Pattern.Spelling
import ImportSupply.Proofs.Text.Cutting

/-!
# Names in export lists

The name that one specifier of an export list makes an entry of is what stands behind its last cut:
behind the word `type`, behind `as`, or all of it. So it stands at the end of the specifier, with a
blank or nothing before it, and if it holds no blank itself it is the specifier's last word.
-/

namespace ImportSupply.Export

open Pattern

/-! ## Ends of a specifier -/

/-- An end of a text that starts at the text's start or behind a blank. -/
def EndOf (tail text : List Char) : Prop :=
  ∃ front, text = front ++ tail ∧ front.getLast?.all Text.isBlank = true

section

variable {tail middle text : List Char}

theorem EndOf.refl (text : List Char) : EndOf text text :=
  ⟨[], rfl, rfl⟩

theorem EndOf.trans (first : EndOf tail middle) (second : EndOf middle text) : EndOf tail text := by
  obtain ⟨front, rfl, blank⟩ := first
  obtain ⟨front', rfl, blank'⟩ := second
  refine ⟨front' ++ front, by simp, ?_⟩
  by_cases empty : front = []
  · simpa [empty] using blank'
  · rwa [List.getLast?_append_of_ne_nil _ empty]

/-- An end of a text that does not end with a blank does not end with one. -/
theorem getLast?_isBlank_of_append {front : List Char}
    (visible : (front ++ tail).getLast?.any Text.isBlank = false) :
    tail.getLast?.any Text.isBlank = false := by
  by_cases empty : tail = []
  · rw [empty]
    rfl
  · rwa [List.getLast?_append_of_ne_nil _ empty] at visible

theorem getLast?_isBlank_trim (text : List Char) :
    (Text.trim text).getLast?.any Text.isBlank = false := by
  rw [Text.trim, Text.dropEnds, Text.dropEnd, List.getLast?_reverse, Option.any_eq_false]
  intro c first
  simpa [first] using
    List.head?_dropWhile_not Text.isBlank (Text.dropStart Text.isBlank text).reverse

/-- Trimming a text that does not end with a blank takes blanks off its start. -/
theorem endOf_trim (visible : text.getLast?.any Text.isBlank = false) :
    EndOf (Text.trim text) text := by
  have split := (List.takeWhile_append_dropWhile (p := Text.isBlank) (l := text)).symm
  have trimmed : Text.trim text = text.dropWhile Text.isBlank := by
    rw [split] at visible
    rw [Text.trim, Text.dropEnds, Text.dropEnd, Text.dropStart, Text.dropWhile_eq_self_of_head?,
      List.reverse_reverse]
    rw [List.head?_reverse]
    exact getLast?_isBlank_of_append visible
  refine ⟨text.takeWhile Text.isBlank, ?_, ?_⟩
  · rw [trimmed, ← split]
  · rw [Option.all_eq_true]
    intro c last
    exact List.mem_takeWhile_imp (List.mem_of_getLast? last)

theorem endOf_of_append {front : List Char} (blank : front.getLast?.all Text.isBlank = true) :
    EndOf tail (front ++ tail) :=
  ⟨front, rfl, blank⟩

theorem endOf_cutFirst {separator : List Char} {c : Char} (last : separator.getLast? = some c)
    (blank : Text.isBlank c = true) {sides : List Char × List Char}
    (cut : Text.cutFirst separator text = some sides) : EndOf sides.2 text := by
  refine ⟨sides.1 ++ separator, ?_, ?_⟩
  · rw [List.append_assoc]
    exact Text.eq_append_of_cutFirst cut
  · rw [List.getLast?_append, last]
    exact blank

/-- An end without blanks is the only one. -/
theorem EndOf.unique (first : EndOf tail text) (second : EndOf middle text)
    (solid : ∀ c ∈ tail, Text.isBlank c = false) (solid' : ∀ c ∈ middle, Text.isBlank c = false) :
    tail = middle := by
  obtain ⟨front, rfl, blank⟩ := first
  obtain ⟨front', same, blank'⟩ := second
  have stops {front : List Char} (blank : front.getLast?.all Text.isBlank = true) :
      front.reverse.head?.any (fun c => !Text.isBlank c) = false := by
    rw [List.head?_reverse]
    cases last : front.getLast? with
    | none => rfl
    | some c => simpa [last] using blank
  have reversed : tail.reverse ++ front.reverse = middle.reverse ++ front'.reverse := by
    rw [← List.reverse_append, same, List.reverse_append]
  have equal := @Text.eq_of_append_run (fun c => !Text.isBlank c) _ _ _ _ (by simpa using solid)
    (stops blank) (by simpa using solid') (stops blank') reversed
  exact List.reverse_injective equal.1

end

/-! ## Specifiers -/

/-- A trimmed specifier without the word `type`, and whether that or its list makes it a type. -/
def untyped (listIsType : Bool) (trimmed : List Char) : Bool × List Char :=
  match "type ".toList.isPrefixOf? trimmed with
  | some rest => (true, Text.trim rest)
  | none => (listIsType, trimmed)

/-- What a specifier without the word `type` exports. -/
def exportedOf (bare : List Char) : List Char :=
  match Text.cutFirst " as ".toList bare with
  | some sides => Text.trim sides.2
  | none => bare

theorem ofSpecifier_eq (source : String) (listIsType types : Bool) (specifier : List Char) :
    ofSpecifier source listIsType types specifier =
      let trimmed := Text.trim specifier
      let exported := exportedOf (untyped listIsType trimmed).2
      if trimmed.isEmpty || exported == "default".toList || exported.isEmpty then none
      else if (untyped listIsType trimmed).1 then
        if types then some (.type (String.ofList exported) source) else none
      else some (.value (String.ofList exported) source) :=
  rfl

theorem endOf_untyped {trimmed : List Char} (visible : trimmed.getLast?.any Text.isBlank = false)
    (listIsType : Bool) :
    EndOf (untyped listIsType trimmed).2 trimmed ∧
      (untyped listIsType trimmed).2.getLast?.any Text.isBlank = false := by
  rw [untyped]
  split
  next rest starts =>
    rw [List.isPrefixOf?_eq_some_iff_append_eq] at starts
    subst starts
    have last := getLast?_isBlank_of_append visible
    exact ⟨(endOf_trim last).trans (endOf_of_append rfl), getLast?_isBlank_trim rest⟩
  next => exact ⟨EndOf.refl _, visible⟩

theorem endOf_exportedOf {bare : List Char} (visible : bare.getLast?.any Text.isBlank = false) :
    EndOf (exportedOf bare) bare := by
  rw [exportedOf]
  split
  next sides cut =>
    have last : sides.2.getLast?.any Text.isBlank = false := by
      rw [Text.eq_append_of_cutFirst cut, ← List.append_assoc] at visible
      exact getLast?_isBlank_of_append visible
    exact (endOf_trim last).trans (endOf_cutFirst rfl (by decide) cut)
  next => exact EndOf.refl _

/-- The entry of a specifier is provided under what the specifier exports, which is never `default`. -/
theorem eq_of_ofSpecifier {source : String} {listIsType types : Bool} {specifier : List Char}
    {entry : Entry} (found : ofSpecifier source listIsType types specifier = some entry) :
    exportedOf (untyped listIsType (Text.trim specifier)).2 ≠ "default".toList ∧
      ∃ isType, entry =
        ⟨String.ofList (exportedOf (untyped listIsType (Text.trim specifier)).2), none, source,
          isType⟩ := by
  rw [ofSpecifier_eq] at found
  simp only [Bool.or_eq_true, beq_iff_eq, List.isEmpty_iff] at found
  split at found
  next => cases found
  next kept =>
    refine ⟨fun same => kept (.inl (.inr same)), ?_⟩
    split at found
    · split at found
      · exact ⟨true, (Option.some.inj found).symm⟩
      · cases found
    · exact ⟨false, (Option.some.inj found).symm⟩

/-- The name of a specifier's entry stands at the specifier's end. -/
theorem endOf_ofSpecifier {source : String} {listIsType types : Bool} {specifier : List Char}
    {entry : Entry} (found : ofSpecifier source listIsType types specifier = some entry) :
    EndOf entry.localName.toList (Text.trim specifier) ∧ entry.localName ≠ "default" := by
  obtain ⟨bare, visible⟩ := endOf_untyped (getLast?_isBlank_trim specifier) listIsType
  have ends := (endOf_exportedOf visible).trans bare
  obtain ⟨other, isType, rfl⟩ := eq_of_ofSpecifier found
  simp only [Entry.localName, Option.getD_none, String.toList_ofList]
  refine ⟨ends, fun same => other ?_⟩
  rw [← same, String.toList_ofList]

/-! ## Lists -/

/-- What the pattern of a list passes, and what it remembers as the list. -/
theorem exists_of_spells_listExport {before : Option Char} {piece rest : List Char}
    {captures : List (Capture Char)} (spells : listExport.Spells before piece rest captures) :
    ∃ gap typed list back, IsGap gap ∧
      (typed = [] ∨ ∃ gap', IsGap gap' ∧ typed = "type".toList ++ gap') ∧ '\x7d' ∉ list ∧
      piece = "export".toList ++ (gap ++ (typed ++ '\x7b' :: (list ++ '\x7d' :: back))) ∧
      ∀ index length, (Match.mk index length captures).piece? 2 = some list := by
  obtain ⟨_, _, _, _, edge, behindEdge, rfl, rfl⟩ := spells_all_cons.mp spells
  obtain ⟨-, rfl, rfl⟩ := spells_wordEdge.mp edge
  obtain ⟨_, _, _, _, word, behindWord, rfl, rfl⟩ := spells_all_cons.mp behindEdge
  obtain ⟨rfl, rfl⟩ := spells_text.mp word
  obtain ⟨gap, _, _, _, blank, behindGap, rfl, rfl⟩ := spells_all_cons.mp behindWord
  obtain ⟨isGap, -, rfl⟩ := spells_gap.mp blank
  obtain ⟨typed, _, _, _, isTyped, behindType, rfl, rfl⟩ := spells_all_cons.mp behindGap
  obtain ⟨_, back, _, later, braces, isBack, rfl, rfl⟩ := spells_all_cons.mp behindType
  obtain ⟨list, inside, rfl, rfl⟩ := spells_bracketed.mp braces
  refine ⟨gap, typed, list, back, isGap, ?_, inside, by simp, fun index length => ?_⟩
  · rcases isTyped with ⟨_, isTyped, -⟩ | ⟨rfl, -⟩
    · have passes := (passes_text "type").all_cons (passes_gap.all_cons passes_all_nil)
      obtain ⟨⟨_, _, rfl, rfl, gap', _, rfl, ⟨isGap', -⟩, rfl⟩, -⟩ := (passes _ _ _ _).mp isTyped
      exact .inr ⟨gap', isGap', by simp⟩
    · exact .inl rfl
  · -- behind the list only the word `from` is remembered
    have other : (later.find? fun capture => capture.group == 2) = none := by
      rw [List.find?_eq_none]
      intro capture member
      have group : capture.group ∈ [3] := group_mem_of_spells isBack capture member
      simp [List.mem_singleton.mp group]
    simp [Match.piece?, Capture.piece, List.find?_append, other]

end ImportSupply.Export
