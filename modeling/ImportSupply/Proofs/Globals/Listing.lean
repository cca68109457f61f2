import ImportSupply.Proofs.Options.RoundTrip
import ImportSupply.Proofs.Pattern.Spelling
import ImportSupply.Proofs.Use.Words

/-!
# The globals file lists the declared names

A globals file is made from any text that is not blank, be it a generated declaration file, an
edited one or something else. It reads back as an object that gives every declared name once, at its
first place, with the setting (`globalsText_lists_names`). Names are declared in a global block
only, so a text without a complete one has none (`names_eq_nil`).
-/

namespace ImportSupply.Globals

open Pattern Json

/-- A complete global block stands in a text. -/
def HasBlock (text : List Char) : Prop :=
  ∃ front gap space body rest, IsGap gap ∧ (∀ c ∈ space, Text.isBlank c = true) ∧ '}' ∉ body ∧
    text = front ++ ("declare".toList ++ (gap ++ ("global".toList ++ (space ++
      '{' :: (body ++ '}' :: rest)))))

/-- A list without the repetitions of its items: each at its first place. -/
structure FirstsOf (kept list : List String) : Prop where
  nodup : kept.Nodup
  mem_iff : ∀ item, item ∈ kept ↔ item ∈ list
  order : kept.Pairwise fun earlier later => list.idxOf earlier < list.idxOf later

theorem firstsOf_eraseDups (list : List String) : FirstsOf list.eraseDups list :=
  ⟨nodup_eraseDups list, fun _ => List.mem_eraseDups, pairwise_idxOf_eraseDups list⟩

/-! ## Texts without names -/

theorem hasBlock_of_mem_allMatches {text : List Char} {found : Match Char}
    (member : found ∈ globalBlock.allMatches text) : HasBlock text := by
  obtain ⟨front, piece, rest, captures, rfl, spells, -⟩ := exists_spells_of_mem_allMatches member
  simp only [globalBlock, spells_all_cons, spells_all_nil, spells_seq, spells_text, spells_gap,
    spells_blanks, spells_bracketed] at spells
  obtain ⟨_, _, _, _, ⟨rfl, -⟩, ⟨gap, _, _, _, ⟨isGap, -, -⟩, ⟨_, _, _, _, ⟨rfl, -⟩,
    ⟨space, _, _, _, ⟨blank, -, -⟩, ⟨_, _, _, _, ⟨body, inside, rfl, -⟩, ⟨rfl, -⟩, rfl, -⟩,
    rfl, -⟩, rfl, -⟩, rfl, -⟩, rfl, -⟩ := spells
  exact ⟨front, gap, space, body, rest, isGap, blank, inside, by simp⟩

/-- Without a complete global block nothing is declared. -/
theorem names_eq_nil {text : List Char} (without : ¬HasBlock text) : names text = [] := by
  have nowhere : globalBlock.allMatches text = [] := by
    rw [List.eq_nil_iff_forall_not_mem]
    exact fun found member => without (hasBlock_of_mem_allMatches member)
  rw [names, firstMatch?, nowhere]
  rfl

theorem isBlankText_iff {text : List Char} :
    Text.isBlankText text = true ↔ ∀ c ∈ text, Text.isBlank c = true :=
  List.all_eq_true

theorem not_hasBlock_of_isBlankText {text : List Char} (blank : Text.isBlankText text = true) :
    ¬HasBlock text := by
  rintro ⟨front, gap, space, body, rest, -, -, -, rfl⟩
  have letter := isBlankText_iff.mp blank 'd' (by simp)
  exact absurd letter (by decide)

/-! ## Reading the globals file back -/

theorem fits_toJson (setting : Setting) (names : List String) : (toJson setting names).Fits 2 := by
  refine .object (List.forall_mem_singleton.mpr (.object ?_))
  rw [List.forall_mem_map]
  exact fun name _ => setting.fits_toJson 0

/-- The globals file of some names is read as the value it was written from. -/
theorem readText_toJson (setting : Setting) (names : List String) :
    readText (Outline.read depthLimit) ((toJson setting names).indented 0) =
      .ok (toJson setting names) := by
  have fits := fits_toJson setting names
  have read := (fits.written_indented 0).readText_eq spaces_nil spaces_nil (Outline.read depthLimit)
  rw [List.nil_append, List.append_nil] at read
  rw [read]
  exact fits.read_outline (by decide)

theorem globalsText_of_isBlankText (setting : Setting) {text : String}
    (blank : Text.isBlankText text.toList = true) :
    Setup.globalsText setting text = .error .emptyDeclarations := by
  rw [Setup.globalsText, text?, if_pos blank]

theorem globalsText_of_not_isBlankText (setting : Setting) {text : String}
    (visible : Text.isBlankText text.toList = false) :
    Setup.globalsText setting text =
      .ok (String.ofList ((toJson setting (names text.toList)).indented 0)) := by
  rw [Setup.globalsText, text?, if_neg (by simp [visible])]

/-- **The globals file agrees with the names.** There is none exactly for a blank text, which
declares nothing. Otherwise its text reads as an object with the one key `globals`, and the keys of
that are the declared names without their repetitions, each with the setting. A text without a
complete global block gives an empty object. -/
theorem globalsText_lists_names (setting : Setting) (text : String) :
    (Setup.globalsText setting text = .error .emptyDeclarations ↔
      ∀ c ∈ text.toList, Text.isBlank c = true) ∧
    ((∀ c ∈ text.toList, Text.isBlank c = true) → names text.toList = []) ∧
    ((∃ c ∈ text.toList, Text.isBlank c = false) →
      ∃ json members, Setup.globalsText setting text = .ok json ∧
        readText (Outline.read depthLimit) json.toList =
          .ok (.object [("globals", .object members)]) ∧
        FirstsOf (members.map Prod.fst) (names text.toList) ∧
        (∀ member ∈ members, member.2 = setting.toJson ∧
          Options.readSetting depthLimit member.2.outline = .ok setting) ∧
        (¬HasBlock text.toList → members = [])) := by
  refine ⟨⟨fun fails => ?_, fun blank => ?_⟩, fun blank => ?_, ?_⟩
  · rw [← isBlankText_iff, ← Bool.not_eq_false]
    intro visible
    rw [globalsText_of_not_isBlankText setting visible] at fails
    cases fails
  · exact globalsText_of_isBlankText setting (isBlankText_iff.mpr blank)
  · exact names_eq_nil (not_hasBlock_of_isBlankText (isBlankText_iff.mpr blank))
  · rintro ⟨c, member, shown⟩
    have visible : Text.isBlankText text.toList = false := by
      rw [← Bool.not_eq_true, isBlankText_iff]
      intro blank
      rw [blank c member] at shown
      cases shown
    have read := readText_toJson setting (names text.toList)
    refine ⟨_, _, globalsText_of_not_isBlankText setting visible, by rwa [String.toList_ofList],
      ?_, ?_, fun without => ?_⟩
    · rw [List.map_map, show (Prod.fst ∘ fun name => (name, setting.toJson)) = id from rfl,
        List.map_id]
      exact firstsOf_eraseDups (names text.toList)
    · rw [List.forall_mem_map]
      exact fun name _ => ⟨rfl, Options.readsBack_setting (by decide) setting⟩
    · rw [names_eq_nil without]
      rfl

/-- A text as someone may have edited it: without line ends, and with a name declared twice. -/
theorem globalsText_lists_names_edited :
    names "declare\tglobal\x7bconst b : 1, const é: 2 type b= 3 type $=4\x7d type c = 5".toList =
      ["b", "é", "b", "$"] ∧
    ∃ json members,
      Setup.globalsText (.access .writable)
        "declare\tglobal\x7bconst b : 1, const é: 2 type b= 3 type $=4\x7d type c = 5" = .ok json ∧
      readText (Outline.read depthLimit) json.toList =
        .ok (.object [("globals", .object members)]) ∧
      FirstsOf (members.map Prod.fst) ["b", "é", "b", "$"] := by
  have listed :
      names "declare\tglobal\x7bconst b : 1, const é: 2 type b= 3 type $=4\x7d type c = 5".toList =
        ["b", "é", "b", "$"] := by
    decide +kernel
  obtain ⟨-, -, lists⟩ := globalsText_lists_names (.access .writable)
    "declare\tglobal\x7bconst b : 1, const é: 2 type b= 3 type $=4\x7d type c = 5"
  obtain ⟨json, members, made, read, firsts, -, -⟩ := lists ⟨'d', by decide, by decide⟩
  rw [listed] at firsts
  exact ⟨listed, json, members, made, read, firsts⟩

end ImportSupply.Globals
