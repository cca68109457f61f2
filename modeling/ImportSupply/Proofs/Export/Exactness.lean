import ImportSupply.Proofs.Export.Quietness
import ImportSupply.Proofs.Order.Stable

/-!
# Exports are found exactly

A script of export statements makes the entries of its statements, in their order and nothing else
(`entries_exportScript`). Eight patterns search the script. Each says of a statement of its own form
what the statement exports and of every other one nothing (`findsAt_line`), so together they find
the entries of the statements in some order (`placed_perm`). The places of the entries increase along
the script (`pairwise_placed`), so sorting by place restores the order of the statements.
-/

namespace ImportSupply.Export

open Pattern Literal

/-! ## What the patterns say -/

namespace Form

/-- The forms, in the order in which they are searched for. -/
def all : List Form :=
  [declared .binding, declared .function, declared .objectClass, declared .enumeration, default,
    declared .typeAlias, declared .interface, list]

theorem mem_all (form : Form) : form ∈ all := by
  rcases form with kind | _ | _
  · cases kind <;> decide
  · decide
  · decide

/-- The entry that a pattern makes of a name: that of its form, unless it takes the word `enum` for a
variable. -/
def ofName (source : String) (types : Bool) (form : Form) (name : String) : Option Entry :=
  if form = declared .binding ∧ name = "enum" then none
  else Naming.entryOf? source types form name

/-- The entries that a match of a form's pattern makes. -/
def ofMatch (source : String) (types : Bool) (form : Form) (found : Match Char) : List Entry :=
  if form = list then
    if (found.piece? 3).isSome then []
    else ofList source (found.piece? 1).isSome types ((found.piece? 2).getD [])
  else ((found.piece? 1).bind fun named => form.ofName source types (String.ofList named)).toList

end Form

/-- Entries at a place, counting on from it. -/
def spread (place : Nat) (entries : List Entry) : List Found :=
  entries.zipIdx.map fun (entry, k) => ⟨place + k, entry⟩

theorem collect_eq (masked : List Char) (source : String) (types : Bool) {form : Form}
    (names : form ≠ .list) {entryOf : String → Option Entry}
    (same : ∀ name, entryOf name = form.ofName source types name) :
    collect masked form.pattern entryOf = (form.pattern.allMatches masked).flatMap fun found =>
      spread (placeOf masked found) (form.ofMatch source types found) := by
  rw [collect, List.filterMap_eq_flatMap_toList]
  refine List.flatMap_congr fun found _ => ?_
  rw [Form.ofMatch, if_neg names]
  cases found.piece? 1 with
  | none => rfl
  | some named =>
    simp only [Option.bind_eq_bind, Option.bind_some, same]
    cases form.ofName source types (String.ofList named) <;> rfl

theorem found_eq (masked : List Char) (source : String) (types : Bool) :
    found masked source types = Form.all.flatMap fun form =>
      (form.pattern.allMatches masked).flatMap fun found =>
        spread (placeOf masked found) (form.ofMatch source types found) := by
  have lists : (listExport.allMatches masked).flatMap (ofListMatch masked source types) =
      (listExport.allMatches masked).flatMap fun found =>
        spread (placeOf masked found) (Form.list.ofMatch source types found) := by
    refine List.flatMap_congr fun found _ => ?_
    rw [ofListMatch, Form.ofMatch, if_pos rfl]
    split <;> rfl
  -- The search for variables is the only one that leaves a name out, as it also reads `const enum`.
  have binding (name : String) : (if name == "enum" then none else some (Entry.value name source)) =
      Form.ofName source types (.declared .binding) name := by
    simp [Form.ofName, Naming.entryOf?]
  have other {form : Form} (isOther : form ≠ .declared .binding) (name : String) :
      Naming.entryOf? source types form name = form.ofName source types name := by
    rw [Form.ofName, if_neg fun both => isOther both.1]
  simp only [found, lists, Form.all, List.flatMap_cons, List.flatMap_nil, List.append_nil,
    List.append_assoc]
  rw [← @collect_eq masked source types (.declared .binding) (by decide) _ binding,
    ← @collect_eq masked source types (.declared .function) (by decide) _ (other (by decide)),
    ← @collect_eq masked source types (.declared .objectClass) (by decide) _ (other (by decide)),
    ← @collect_eq masked source types (.declared .enumeration) (by decide) _ (other (by decide)),
    ← @collect_eq masked source types .default (by decide) _ (other (by decide)),
    ← @collect_eq masked source types (.declared .typeAlias) (by decide) _ (other (by decide)),
    ← @collect_eq masked source types (.declared .interface) (by decide) _ (other (by decide))]
  rfl

/-! ## What they say of a statement -/

section

variable {source : String} {types : Bool} {before : Option Char} {index : Nat} {back : List Char}
  {found : Match Char}

theorem index_of_matchAt {pattern : Pattern Char} {place : Place Char}
    (starts : pattern.matchAt place = some found) : found.index = place.index := by
  obtain ⟨_, _, _, -, -, rfl⟩ := exists_spells_of_matchAt starts
  rfl

/-- What the patterns of names say of an export of one name. -/
theorem Naming.said (naming : Naming) {form : Form} (names : form ≠ .list)
    (starts : form.pattern.matchAt
      ⟨before, index, displayOf (Statement.named naming).segments ++ back⟩ = some found) :
    found.length ≤ (displayOf (Statement.named naming).segments).length ∧
      form.ofMatch source types found =
        if naming.form = form then (Statement.named naming).entries source types else [] := by
  obtain ⟨piece, rest, captures, split, spells, rfl⟩ := exists_spells_of_matchAt starts
  obtain ⟨named, tail, rfl, reads, more, rfl⟩ := naming.reads_of_spells names spells split
  have remembered : (Match.mk index piece.length
      [⟨1, named ++ tail, named.length⟩]).piece? 1 = some named := by
    simp [Match.piece?, Capture.piece]
  constructor
  · have total := congrArg List.length split
    simp only [List.length_append] at total
    show piece.length ≤ _
    omega
  · rw [Form.ofMatch, if_neg names, remembered, Option.bind_some]
    -- Either the match has the statement's form and name, or it is a variable `enum` that is read
    -- where an enumeration of constants stands.
    rcases reads with ⟨rfl, rfl⟩ | ⟨rfl, isEnum, rfl⟩
    · have ordinary : String.ofList naming.bound.text ≠ "enum" := by
        intro same
        apply naming.ordinary.ne_enum
        rw [← same, String.toList_ofList]
      rw [if_pos rfl, Form.ofName, if_neg fun both => ordinary both.2]
      rfl
    · rw [if_neg (by rw [isEnum]; decide), Form.ofName, if_pos ⟨rfl, rfl⟩]
      rfl

/-- What the pattern of lists says of a list. -/
theorem Listing.said (listing : Listing) (reads : listing.Reads found) :
    Form.list.ofMatch source types found = (Statement.listed listing).entries source types := by
  rw [Form.ofMatch, if_pos rfl, reads.typed, reads.list, reads.origin, Option.getD_some,
    ofList_listText]
  cases origin_eq : listing.origin <;> simp [Statement.entries, Listing.entries, origin_eq]

/-- A match at the start of a statement says what the statement exports in the form of the match. -/
theorem Statement.said (statement : Statement) {form : Form} {trailing : Layout}
    (free : back.head?.any goesOn = false)
    (starts : form.pattern.matchAt ⟨before, index,
      displayOf statement.segments ++ (trailing.display ++ back)⟩ = some found) :
    found.length ≤ (displayOf statement.segments).length ∧
      form.ofMatch source types found =
        if statement.form? = some form then statement.entries source types else [] := by
  by_cases isList : form = .list
  · subst isList
    cases statement with
    | named naming =>
      rw [Form.pattern, naming.matchAt_listExport] at starts
      cases starts
    | listed listing =>
      have reads := listing.reads_of_matchAt free starts
      exact ⟨reads.length, by rw [listing.said reads]; exact (if_pos rfl).symm⟩
    | everything gap origin =>
      rw [Form.pattern, matchAt_listExport_everything] at starts
      cases starts
  · cases statement with
    | named naming => simpa [form?] using naming.said isList starts
    | listed listing =>
      rw [listing.matchAt_pattern isList] at starts
      cases starts
    | everything gap origin =>
      rw [matchAt_pattern_everything gap origin isList] at starts
      cases starts

/-- A statement that has a form is found by the pattern of that form. -/
theorem Statement.exists_matchAt (statement : Statement) {form : Form}
    (isForm : statement.form? = some form) (outside : before.any Text.isWord = false)
    (index : Nat) (back : List Char) :
    ∃ found, form.pattern.matchAt ⟨before, index, displayOf statement.segments ++ back⟩ =
      some found := by
  cases statement with
  | named naming =>
    obtain rfl := Option.some.inj isForm
    obtain ⟨piece, rest, captures, split, spells⟩ := naming.exists_spells outside back
    exact @exists_matchAt_of_spells _ _ ⟨before, index, _⟩ _ _ _ split spells
  | listed listing =>
    obtain rfl := Option.some.inj isForm
    exact listing.exists_matchAt outside index back
  | everything gap origin => cases isForm

end

/-! ## What they say of a script -/

theorem StatementLine.displayOf_segments (line : StatementLine) :
    displayOf line.segments = displayOf line.statement.segments ++ line.trailing.display := by
  simp [StatementLine.segments]

theorem StatementLine.exists_cons (line : StatementLine) :
    ∃ text, displayOf line.segments = 'e' :: text ∧ Silent text := by
  have body := line.statement.silent_body
    (silent_nil.append_outside (@isWord_of_mem_layout line.trailing))
  have gap := @isWord_of_mem_layout line.statement.gap.layout
  have whole := (body.append_outside gap).append_word
    (by decide : ∀ c ∈ "xport".toList, Text.isWord c = true) (by decide)
    (apart_of_outside line.statement.gap.display_ne_nil gap _)
  exact ⟨_, by simp [StatementLine.segments, Statement.segments, Spacing.display], whole⟩

theorem getLast?_isWord_layout (layout : Layout) :
    layout.display.getLast?.any Text.isWord = false := by
  rw [Option.any_eq_false]
  intro c last
  simpa using isWord_of_mem_layout c (List.mem_of_getLast? last)

theorem exists_end_origin (origin : Origin) :
    ∃ front tail, displayOf (Listing.originSegments (some origin)) = front ++ tail ∧ tail ≠ [] ∧
      ∀ c ∈ tail, Text.isWord c = false :=
  ⟨origin.before.display ++ ("from".toList ++ origin.after.display), origin.source.display,
    by rw [displayOf_origin]; simp, by simp [Quoted.display], isWord_of_mem_quoted⟩

/-- A statement ends with marks and blanks. -/
theorem Statement.exists_end (statement : Statement) :
    ∃ front tail, displayOf statement.body = front ++ tail ∧ tail ≠ [] ∧
      ∀ c ∈ tail, Text.isWord c = false := by
  cases statement with
  | named naming =>
    obtain ⟨pad, mark, more, begins, -, -⟩ := naming.ending.exists_mark
    refine ⟨displayOf naming.opening ++ naming.bound.text, displayOf naming.ending.segments,
      by simp [body, naming.displayOf_body], by simp [begins], naming.isWord_of_mem_ending⟩
  | listed listing =>
    cases origin_eq : listing.origin with
    | none =>
      exact ⟨displayOf (Listing.typeSegments listing.typed) ++
        '\x7b' :: Binding.listText listing.slots, ['\x7d'],
        by simp [body, Listing.body, Binding.displayOf_listSegments, origin_eq,
          Listing.originSegments], by simp, by decide⟩
    | some origin =>
      obtain ⟨front, tail, shown, nonempty, outside⟩ := exists_end_origin origin
      exact ⟨displayOf (Listing.typeSegments listing.typed) ++
        '\x7b' :: (Binding.listText listing.slots ++ '\x7d' :: front), tail,
        by simp [body, Listing.body, Binding.displayOf_listSegments, origin_eq, shown], nonempty,
        outside⟩
  | everything gap origin =>
    obtain ⟨front, tail, shown, nonempty, outside⟩ := exists_end_origin origin
    exact ⟨'*' :: front, tail, by simp [body, shown], nonempty, outside⟩

theorem StatementLine.getLast?_isWord (line : StatementLine) :
    (displayOf line.segments).getLast?.any Text.isWord = false := by
  obtain ⟨front, tail, shown, nonempty, outside⟩ := line.statement.exists_end
  have statement := @Text.getLast?_any_append Text.isWord ("export".toList ++
    (line.statement.gap.display ++ front)) tail nonempty outside
  have both := Text.getLast?_any_append_both statement (getLast?_isWord_layout line.trailing)
  have split : displayOf line.segments = "export".toList ++ (line.statement.gap.display ++ front) ++
      tail ++ line.trailing.display := by
    simp [StatementLine.segments, Statement.segments, shown]
  rwa [split]

/-- The entries of a statement that have a form. -/
def Statement.entriesOf (source : String) (types : Bool) (form : Form) (statement : Statement) :
    List Entry :=
  if statement.form? = some form then statement.entries source types else []

theorem findsAt_line (masked : List Char) (source : String) (types : Bool) (form : Form)
    (line : StatementLine) :
    FindsAt form.pattern
      (fun found => spread (placeOf masked found) (form.ofMatch source types found)) goesOn
      (displayOf line.segments) fun index => spread (Text.byteLength (masked.take index))
        (line.statement.entriesOf source types form) := by
  obtain ⟨text, cons, silent⟩ := line.exists_cons
  have edge := line.getLast?_isWord
  have whole (back : List Char) : 'e' :: text ++ back =
      displayOf line.statement.segments ++ (line.trailing.display ++ back) := by
    rw [← cons, line.displayOf_segments, List.append_assoc]
  rw [cons] at edge ⊢
  -- Behind its first character no export starts in the line, so all it says is said by a match at
  -- its start.
  refine findsAt_of_start edge (silent.quiet
    (@Text.any_isWord_getLast?_of_append ['e'] text edge) form _) ?_ ?_
  · intro before index back outside free missing
    rw [whole] at missing
    have formless : line.statement.form? ≠ some form := by
      intro isForm
      obtain ⟨found, starts⟩ := line.statement.exists_matchAt isForm outside index
        (line.trailing.display ++ back)
      rw [missing] at starts
      cases starts
    rw [Statement.entriesOf, if_neg formless]
    rfl
  · intro before index back found outside free starts
    rw [whole] at starts
    obtain ⟨within, said⟩ := @Statement.said source types _ _ _ _ line.statement _ _ free starts
    constructor
    · have total := congrArg List.length cons
      rw [line.displayOf_segments, List.length_append, List.length_cons] at total
      omega
    · rw [said, placeOf, index_of_matchAt starts]
      rfl

/-- The entries that statements make, each at its place. -/
def placed (masked : List Char) (said : Statement → List Entry) :
    Nat → List StatementLine → List Found
  | _, [] => []
  | index, line :: lines =>
      spread (Text.byteLength (masked.take index)) (said line.statement) ++
        placed masked said (index + (displayOf line.segments).length) lines

theorem head?_lines (lines : List StatementLine) :
    (displayOf (lines.flatMap StatementLine.segments)).head?.any goesOn = false := by
  cases lines with
  | nil => rfl
  | cons line lines =>
    obtain ⟨text, cons, -⟩ := line.exists_cons
    rw [List.flatMap_cons, displayOf_append, cons]
    rfl

theorem findsAt_lines (masked : List Char) (source : String) (types : Bool) (form : Form)
    (lines : List StatementLine) :
    FindsAt form.pattern
      (fun found => spread (placeOf masked found) (form.ofMatch source types found)) goesOn
      (displayOf (lines.flatMap StatementLine.segments)) fun index =>
        placed masked (Statement.entriesOf source types form) index lines := by
  induction lines with
  | nil =>
    exact findsAt_nil rfl fun before _ => silent_nil.quiet rfl form before
  | cons line lines ih =>
    rw [List.flatMap_cons, displayOf_append]
    exact (findsAt_line masked source types form line).append ih (head?_lines lines)

/-- What a pattern says of a script are the entries of its form. -/
theorem flatMap_allMatches_script (source : String) (types : Bool) (form : Form) (leading : Layout)
    (lines : List StatementLine) :
    (form.pattern.allMatches (displayOf (exportScript leading lines))).flatMap (fun found =>
      spread (placeOf (displayOf (exportScript leading lines)) found)
        (form.ofMatch source types found)) =
      placed (displayOf (exportScript leading lines)) (Statement.entriesOf source types form)
        leading.display.length lines := by
  have edge := getLast?_isWord_layout leading
  have silent : Silent leading.display := by
    have blank := silent_nil.append_outside (@isWord_of_mem_layout leading)
    rwa [List.append_nil] at blank
  have both := FindsAt.append (findsAt_nil edge fun before _ => silent.quiet edge form before)
    (findsAt_lines (displayOf (exportScript leading lines)) source types form lines)
    (head?_lines lines)
  have shown : displayOf (exportScript leading lines) =
      leading.display ++ displayOf (lines.flatMap StatementLine.segments) := by
    simp [exportScript]
  rw [← shown] at both
  simpa using both.flatMap_allMatches

/-! ## The order of the entries -/

section

variable {place : Nat} {entries : List Entry}

theorem map_entry_spread : (spread place entries).map Found.entry = entries := by
  rw [spread, List.map_map]
  exact List.zipIdx_map_fst 0 entries

theorem place_of_mem_spread {item : Found} (member : item ∈ spread place entries) :
    place ≤ item.place ∧ item.place < place + entries.length := by
  obtain ⟨⟨entry, k⟩, indexed, rfl⟩ := List.mem_map.mp member
  have bound := List.snd_lt_of_mem_zipIdx indexed
  constructor
  · exact Nat.le_add_right place k
  · show place + k < place + entries.length
    omega

theorem pairwise_spread : (spread place entries).Pairwise fun a b => a.place < b.place := by
  have increasing : (entries.zipIdx.map Prod.snd).Pairwise (· < ·) := by
    rw [List.zipIdx_map_snd]
    exact List.pairwise_lt_range'
  rw [spread, List.pairwise_map]
  rw [List.pairwise_map] at increasing
  refine increasing.imp fun less => ?_
  exact Nat.add_lt_add_left less place

end

theorem map_entry_placed (masked : List Char) (said : Statement → List Entry) (index : Nat)
    (lines : List StatementLine) :
    (placed masked said index lines).map Found.entry =
      lines.flatMap fun line => said line.statement := by
  induction lines generalizing index with
  | nil => rfl
  | cons line lines ih =>
    rw [placed, List.map_append, map_entry_spread, ih, List.flatMap_cons]

/-- Every statement that makes entries has one of the forms, once. -/
theorem flatMap_entriesOf (source : String) (types : Bool) (place : Nat) (statement : Statement) :
    (Form.all.flatMap fun form => spread place (statement.entriesOf source types form)) =
      spread place (statement.entries source types) := by
  cases form_eq : statement.form? with
  | none =>
    cases statement with
    | named naming => cases form_eq
    | listed listing => cases form_eq
    | everything gap origin => rfl
  | some form =>
    have single : ∀ other, spread place (statement.entriesOf source types other) =
        if other = form then spread place (statement.entries source types) else [] := by
      intro other
      rw [Statement.entriesOf, form_eq]
      by_cases same : other = form
      · rw [if_pos same, if_pos (by rw [same])]
      · rw [if_neg same, if_neg fun wrong => same (Option.some.inj wrong).symm]
        rfl
    simp only [single]
    rcases form with kind | _ | _
    · cases kind <;> simp [Form.all]
    · simp [Form.all]
    · simp [Form.all]

theorem placed_perm (masked : List Char) (source : String) (types : Bool) (index : Nat)
    (lines : List StatementLine) :
    (Form.all.flatMap fun form =>
      placed masked (Statement.entriesOf source types form) index lines).Perm
        (placed masked (Statement.entries source types) index lines) := by
  induction lines generalizing index with
  | nil =>
    simp only [placed]
    exact .refl _
  | cons line lines ih =>
    simp only [placed]
    refine (List.flatMap_append_perm Form.all _ _).symm.trans ?_
    rw [flatMap_entriesOf]
    exact (ih _).append_left _

theorem length_le_byteLength (text : List Char) : text.length ≤ Text.byteLength text := by
  induction text with
  | nil => exact Nat.le_refl 0
  | cons c text ih =>
    have size := c.utf8Size_pos
    rw [List.length_cons, Text.byteLength_cons]
    omega

theorem length_slots_le (slots : List Binding.Slot) :
    slots.length ≤ (Binding.listText slots).length + 1 := by
  induction slots with
  | nil => exact Nat.zero_le _
  | cons slot slots ih =>
    cases slots with
    | nil => exact Nat.le_add_left 1 _
    | cons next slots =>
      have longer : (Binding.listText (slot :: next :: slots)).length =
          (displayOf slot.segments).length + ((Binding.listText (next :: slots)).length + 1) := by
        simp only [Binding.listText, List.map_cons, List.intercalate_cons_cons, List.length_append,
          List.length_cons, List.length_nil]
        omega
      simp only [List.length_cons] at ih ⊢
      omega

/-- A statement makes fewer entries than it has characters. -/
theorem Statement.length_entries_le (statement : Statement) (source : String) (types : Bool) :
    (statement.entries source types).length ≤ (displayOf statement.segments).length := by
  have nonempty : 1 ≤ (displayOf statement.segments).length := by
    simp [segments]
  cases statement with
  | named naming =>
    rw [entries, Option.length_toList]
    split <;> omega
  | listed listing =>
    have total := congrArg List.length (listing.displayOf_segments_append [])
    have slots := length_slots_le listing.slots
    have filtered : (listing.entries source types).length ≤ listing.slots.length := by
      rw [Listing.entries]
      split
      · exact List.length_filterMap_le _ _
      · exact Nat.zero_le _
    simp only [List.append_nil, List.length_append, List.length_cons] at total
    show (listing.entries source types).length ≤ _
    omega
  | everything gap origin => exact Nat.zero_le _

/-- Along a script the places of the entries increase. -/
theorem pairwise_placed {masked : List Char} {source : String} {types : Bool} {front : List Char}
    {lines : List StatementLine}
    (split : masked = front ++ displayOf (lines.flatMap StatementLine.segments)) :
    (∀ item ∈ placed masked (Statement.entries source types) front.length lines,
      Text.byteLength front ≤ item.place) ∧
      (placed masked (Statement.entries source types) front.length lines).Pairwise
        fun a b => a.place < b.place := by
  induction lines generalizing front with
  | nil => exact ⟨by simp [placed], List.Pairwise.nil⟩
  | cons line lines ih =>
    rw [List.flatMap_cons, displayOf_append, ← List.append_assoc] at split
    obtain ⟨later, sorted⟩ := ih split
    rw [List.length_append] at later sorted
    have here : Text.byteLength (masked.take front.length) = Text.byteLength front := by
      rw [split, List.append_assoc, List.take_left]
    -- A statement has no more entries than bytes, so the places of its entries stay in front of the
    -- next line.
    have count := line.statement.length_entries_le source types
    have size := length_le_byteLength (displayOf line.segments)
    have longer := congrArg List.length line.displayOf_segments
    rw [List.length_append] at longer
    rw [placed, here]
    constructor
    · intro item member
      rcases List.mem_append.mp member with member | member
      · exact (place_of_mem_spread member).1
      · have behind := later item member
        rw [Text.byteLength_append] at behind
        omega
    · rw [List.pairwise_append]
      refine ⟨pairwise_spread, sorted, fun item member other member' => ?_⟩
      have first := place_of_mem_spread member
      have second := later other member'
      rw [Text.byteLength_append] at second
      omega

/-- Sorting by places restores a list whose places increase. -/
theorem mergeSort_eq {items sorted : List Found} (perm : items.Perm sorted)
    (increasing : sorted.Pairwise fun a b => a.place < b.place) :
    items.mergeSort (fun a b => decide (a.place ≤ b.place)) = sorted := by
  have ordered := pairwise_mergeSort_key Found.place items
  have same := (List.mergeSort_perm items fun a b => decide (a.place ≤ b.place)).trans perm
  have distinct : (sorted.map Found.place).Nodup :=
    List.pairwise_map.mpr (increasing.imp Nat.ne_of_lt)
  refine List.Perm.eq_of_pairwise (fun a b member member' less less' => ?_) ordered
    (increasing.imp Nat.le_of_lt) same
  exact List.inj_on_of_nodup_map distinct (same.mem_iff.mp member) member'
    (Nat.le_antisymm less less')

/-- A script of exports makes the entries of its statements, in their order. -/
theorem entries_exportScript (leading : Layout) (lines : List StatementLine) (source : String)
    (types : Bool) :
    entries (Literal.textOf (exportScript leading lines)) source types =
      lines.flatMap fun line => line.statement.entries source types := by
  have perm : (found (displayOf (exportScript leading lines)) source types).Perm
      (placed (displayOf (exportScript leading lines)) (Statement.entries source types)
        leading.display.length lines) := by
    rw [found_eq]
    simp only [flatMap_allMatches_script]
    exact placed_perm _ source types _ lines
  have shown : displayOf (exportScript leading lines) =
      leading.display ++ displayOf (lines.flatMap StatementLine.segments) := by
    simp [exportScript]
  rw [entries, mask_textOf, mergeSort_eq perm (pairwise_placed shown).2, map_entry_placed]

end ImportSupply.Export
