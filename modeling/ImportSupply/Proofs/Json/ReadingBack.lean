import ImportSupply.Proofs.Json.Layout
import ImportSupply.Proofs.Text.Cutting
import Mathlib.Data.List.TakeWhile

/-!
# Reading back what was written

A text that writes a value is read as the outline of that value, whatever follows it
(`Written.readValue_eq`). The fuel that the reader is given, three times the length of the text, is
more than it needs: what is written in so many characters is read by no more calls inside one
another.
-/

namespace ImportSupply.Json

namespace Reader

/-! ## Strings -/

section Strings

variable {c letter meant : Char} {rest : List Char}

theorem readString_quote (rest : List Char) :
    readString false ('"' :: rest) = ⟨.ok [], .ok rest⟩ := by
  rw [readString.eq_def]
  rfl

theorem readString_letter (stands : escaped? letter = some meant) (named : letter ≠ 'u') :
    readString false ('\\' :: letter :: rest) = (readString false rest).push meant := by
  rw [readString.eq_def]
  simp [stands, named]

theorem readString_unit {high upper lower low : Char} {unit : Nat}
    (number : hexUnit? high upper lower low = some unit) (notTrailing : isTrailing unit = false)
    (notLeading : isLeading unit = false) :
    readString false ('\\' :: 'u' :: high :: upper :: lower :: low :: rest) =
      (readString false rest).push (Char.ofNat unit) := by
  rw [readString.eq_def]
  simp [number, notTrailing, notLeading]

theorem readString_plain (notQuote : c ≠ '"') (notBackslash : c ≠ '\\')
    (notControl : ¬ c.toNat < 0x20) :
    readString false (c :: rest) = (readString false rest).push c := by
  rw [readString.eq_def]
  simp [notQuote, notBackslash, notControl]

theorem hexValue?_hexDigit : ∀ n < 16, hexValue? (hexDigit n) = some n := by
  decide

theorem hexUnit?_hexDigits {n : Nat} (small : n < 0x20) :
    hexUnit? '0' '0' (hexDigit (n / 16)) (hexDigit (n % 16)) = some n := by
  have zero : hexValue? '0' = some 0 := by decide
  have lower := hexValue?_hexDigit (n / 16) (by omega)
  have low := hexValue?_hexDigit (n % 16) (by omega)
  rw [hexUnit?, zero, lower, low]
  show some (((0 * 16 + 0) * 16 + n / 16) * 16 + n % 16) = some n
  congr 1
  omega

/-- A character is read back from its escaped form. -/
theorem readString_escapeChar (c : Char) (rest : List Char) :
    readString false (escapeChar c ++ rest) = (readString false rest).push c := by
  unfold escapeChar
  split
  next quote => subst quote; exact readString_letter (by decide) (by decide)
  split
  next backslash => subst backslash; exact readString_letter (by decide) (by decide)
  split
  next backspace => subst backspace; exact readString_letter (by decide) (by decide)
  split
  next tab => subst tab; exact readString_letter (by decide) (by decide)
  split
  next lineEnd => subst lineEnd; exact readString_letter (by decide) (by decide)
  split
  next formFeed => subst formFeed; exact readString_letter (by decide) (by decide)
  split
  next carriageReturn => subst carriageReturn; exact readString_letter (by decide) (by decide)
  split
  next control =>
    -- a number below 32 is no half of a pair
    have notTrailing : isTrailing c.toNat = false := by
      simp only [isTrailing, Bool.and_eq_false_iff, decide_eq_false_iff_not]
      omega
    have notLeading : isLeading c.toNat = false := by
      simp only [isLeading, Bool.and_eq_false_iff, decide_eq_false_iff_not]
      omega
    calc
      _ = (readString false rest).push (Char.ofNat c.toNat) :=
        readString_unit (hexUnit?_hexDigits control) notTrailing notLeading
      _ = (readString false rest).push c := by rw [Char.ofNat_toNat]
  next notQuote notBackslash _ _ _ _ _ notControl =>
    exact readString_plain notQuote notBackslash notControl

theorem readString_flatMap (text rest : List Char) :
    readString false (text.flatMap escapeChar ++ '"' :: rest) = ⟨.ok text, .ok rest⟩ := by
  induction text with
  | nil => exact readString_quote rest
  | cons c text ih =>
    rw [List.flatMap_cons, List.append_assoc, readString_escapeChar, ih]
    rfl

end Strings

/-! ## One call of each reader -/

theorem skipSpace_append {space : List Char} {c : Char} {rest : List Char} (blank : Spaces space)
    (token : isSpace c = false) : skipSpace (space ++ c :: rest) = c :: rest :=
  Text.dropWhile_append_run blank (by simpa using token)

section Calls

variable {space lead tail rest : List Char} {first : Bool} (fuel : Nat)

theorem readValue_null (blank : Spaces space) :
    readValue (fuel + 1) (space ++ ("null".toList ++ rest)) = (.null, rest) := by
  show readValue (fuel + 1) (space ++ 'n' :: 'u' :: 'l' :: 'l' :: rest) = _
  rw [readValue, skipSpace_append blank (by decide)]
  rfl

theorem readValue_bool (blank : Spaces space) (value : Bool) :
    readValue (fuel + 1) (space ++ (writeBool value ++ rest)) = (.bool value, rest) := by
  cases value with
  | true =>
    show readValue (fuel + 1) (space ++ 't' :: 'r' :: 'u' :: 'e' :: rest) = _
    rw [readValue, skipSpace_append blank (by decide)]
    rfl
  | false =>
    show readValue (fuel + 1) (space ++ 'f' :: 'a' :: 'l' :: 's' :: 'e' :: rest) = _
    rw [readValue, skipSpace_append blank (by decide)]
    rfl

theorem readValue_string (blank : Spaces space) (text : String) :
    readValue (fuel + 1) (space ++ (writeString text ++ rest)) = (.string (.ok text), rest) := by
  have opened : writeString text ++ rest =
      '"' :: (text.toList.flatMap escapeChar ++ '"' :: rest) := by
    simp [writeString]
  rw [opened, readValue, skipSpace_append blank (by decide)]
  show readStringValue _ = _
  rw [readStringValue, readString_flatMap]
  show (Outline.string (.ok (String.ofList text.toList)), rest) = _
  rw [String.ofList_toList]

theorem readValue_array (blank : Spaces space) :
    readValue (fuel + 1) (space ++ '[' :: rest) =
      (.array (readItems fuel true rest).1, (readItems fuel true rest).2) := by
  rw [readValue, skipSpace_append blank (by decide)]
  rfl

theorem readValue_object (blank : Spaces space) :
    readValue (fuel + 1) (space ++ '\x7b' :: rest) =
      (.object (readMembers fuel true rest).1, (readMembers fuel true rest).2) := by
  rw [readValue, skipSpace_append blank (by decide)]
  rfl

theorem readItems_done (blank : Spaces space) :
    readItems (fuel + 1) first (space ++ ']' :: rest) = (.done, rest) := by
  rw [readItems, skipSpace_append blank (by decide)]
  rfl

/-- An item is read from behind what leads to it, or with the space before it. -/
theorem readItems_more {text : List Char} (leads : Lead first lead)
    (starts : ∃ c tail, text = c :: tail ∧ isSpace c = false ∧ c ≠ ']') :
    ∃ space, Spaces space ∧ ∀ item after, readValue fuel (space ++ (text ++ rest)) = (item, after) →
      readItems (fuel + 1) first (lead ++ (text ++ rest)) =
        (.more item (readItems fuel false after).1, (readItems fuel false after).2) := by
  obtain ⟨c, tail, rfl, token, opens⟩ := starts
  rw [List.cons_append]
  cases leads with
  | first blank =>
    refine ⟨[], spaces_nil, fun item after read => ?_⟩
    rw [List.nil_append] at read
    rw [readItems, skipSpace_append blank token]
    simp [opens, read]
  | @later before behind blank blank' =>
    refine ⟨behind, blank', fun item after read => ?_⟩
    rw [List.append_assoc, List.cons_append, readItems, skipSpace_append blank (by decide)]
    simp [skipSpace_append blank' token, opens, read]

theorem readMembers_done (blank : Spaces space) :
    readMembers (fuel + 1) first (space ++ '\x7d' :: rest) = (.done, rest) := by
  rw [readMembers, skipSpace_append blank (by decide)]
  rfl

theorem readMembers_more (leads : Lead first lead) :
    readMembers (fuel + 1) first (lead ++ '"' :: tail) = readMember fuel tail := by
  cases leads with
  | first blank =>
    rw [readMembers, skipSpace_append blank (by decide)]
    rfl
  | later blank blank' =>
    rw [List.append_assoc, List.cons_append, readMembers, skipSpace_append blank (by decide)]
    simp [skipSpace_append blank' (show isSpace '"' = false by decide)]

theorem readMember_pair (blank : Spaces space) (key : String) {value : Outline} {after : List Char}
    (read : readValue fuel tail = (value, after)) :
    readMember (fuel + 1) (key.toList.flatMap escapeChar ++ '"' :: (space ++ ':' :: tail)) =
      (.more (.ok key) value (readMembers fuel false after).1,
        (readMembers fuel false after).2) := by
  rw [readMember, readString_flatMap]
  simp [skipSpace_append blank (show isSpace ':' = false by decide), read, Except.map]

end Calls

end Reader

/-! ## Written texts -/

/-- A written value starts with a token that does not close an array. -/
theorem Written.exists_cons {value : Value} {text : List Char} (written : Written value text) :
    ∃ c tail, text = c :: tail ∧ Reader.isSpace c = false ∧ c ≠ ']' := by
  cases written with
  | null => exact ⟨'n', _, rfl, by decide, by decide⟩
  | bool value =>
    cases value with
    | true => exact ⟨'t', _, rfl, by decide, by decide⟩
    | false => exact ⟨'f', _, rfl, by decide, by decide⟩
  | string text => exact ⟨'"', _, rfl, by decide, by decide⟩
  | array _ => exact ⟨'[', _, rfl, by decide, by decide⟩
  | object _ => exact ⟨'\x7b', _, rfl, by decide, by decide⟩

theorem Written.length_pos {value : Value} {text : List Char} (written : Written value text) :
    0 < text.length := by
  obtain ⟨c, tail, rfl, -, -⟩ := written.exists_cons
  exact Nat.succ_pos _

theorem WrittenItems.length_pos {first : Bool} {items : List Value} {inside : List Char}
    (written : WrittenItems first items inside) : 0 < inside.length := by
  cases written with
  | done _ => simp
  | more _ item _ =>
    have := item.length_pos
    simp only [List.length_append]
    omega

theorem WrittenMember.length_ge {member : String × Value} {text : List Char}
    (written : WrittenMember member text) : 2 ≤ text.length := by
  cases written with
  | pair _ _ value =>
    simp only [writeString, List.length_append, List.length_cons, List.cons_append]
    omega

theorem WrittenMembers.length_pos {first : Bool} {members : List (String × Value)}
    {inside : List Char} (written : WrittenMembers first members inside) : 0 < inside.length := by
  cases written with
  | done _ => simp
  | more _ member _ =>
    have := member.length_ge
    simp only [List.length_append]
    omega

mutual

/-- **A written value is read back**, with the space before it, whatever follows. -/
theorem Written.readValue_eq {value : Value} {text : List Char} :
    Written value text → ∀ {fuel : Nat} {space rest : List Char}, Spaces space →
      text.length ≤ fuel → Reader.readValue fuel (space ++ (text ++ rest)) = (value.outline, rest)
  | written, 0, _, _, _, enough => absurd written.length_pos (Nat.not_lt.mpr enough)
  | .null, fuel + 1, _, _, blank, _ => Reader.readValue_null fuel blank
  | .bool value, fuel + 1, _, _, blank, _ => Reader.readValue_bool fuel blank value
  | .string text, fuel + 1, _, _, blank, _ => Reader.readValue_string fuel blank text
  | .array items, fuel + 1, _, rest, blank, enough => by
    rw [List.cons_append, Reader.readValue_array fuel blank,
      items.readItems_eq (Nat.le_of_succ_le_succ enough)]
    rfl
  | .object members, fuel + 1, _, rest, blank, enough => by
    rw [List.cons_append, Reader.readValue_object fuel blank,
      members.readMembers_eq (Nat.le_of_succ_le_succ enough)]
    rfl

theorem WrittenItems.readItems_eq {first : Bool} {items : List Value} {inside : List Char} :
    WrittenItems first items inside → ∀ {fuel : Nat} {rest : List Char}, inside.length ≤ fuel →
      Reader.readItems fuel first (inside ++ rest) = (outlineItems items, rest)
  | written, 0, _, enough => absurd written.length_pos (Nat.not_lt.mpr enough)
  | .done blank, fuel + 1, rest, _ => by
    rw [List.append_assoc]
    exact Reader.readItems_done fuel blank
  | .more leads item items, fuel + 1, rest, enough => by
    -- one call is used up here, and each side leaves at least one character to the other
    have positive := item.length_pos
    have positive' := items.length_pos
    simp only [List.length_append] at enough
    obtain ⟨space, blank, call⟩ := Reader.readItems_more fuel leads item.exists_cons
    rw [List.append_assoc, List.append_assoc,
      call _ _ (item.readValue_eq blank (by omega)), items.readItems_eq (by omega)]
    rfl

/-- A member is read from behind its key's opening quote, together with the members after it. -/
theorem WrittenMember.readMember_eq {member : String × Value} {text : List Char} :
    WrittenMember member text → ∀ (fuel : Nat) (rest : List Char), text.length ≤ fuel + 1 →
      ∃ tail, text = '"' :: tail ∧ Reader.readMember (fuel + 1) (tail ++ rest) =
        (.more (.ok member.1) member.2.outline (Reader.readMembers fuel false rest).1,
          (Reader.readMembers fuel false rest).2)
  | @WrittenMember.pair key _ before behind text blank blank' value, fuel, rest, enough => by
    refine ⟨key.toList.flatMap escapeChar ++ '"' :: (before ++ ':' :: (behind ++ text)),
      by simp [writeString], ?_⟩
    simp only [List.length_append, List.length_cons] at enough
    simp only [List.append_assoc, List.cons_append]
    exact Reader.readMember_pair fuel blank key (value.readValue_eq blank' (by omega))

theorem WrittenMembers.readMembers_eq {first : Bool} {members : List (String × Value)}
    {inside : List Char} : WrittenMembers first members inside →
    ∀ {fuel : Nat} {rest : List Char}, inside.length ≤ fuel →
      Reader.readMembers fuel first (inside ++ rest) = (outlineMembers members, rest)
  | written, 0, _, enough => absurd written.length_pos (Nat.not_lt.mpr enough)
  | .done blank, fuel + 1, rest, _ => by
    rw [List.append_assoc]
    exact Reader.readMembers_done fuel blank
  | .more leads member members, fuel + 1, rest, enough => by
    have long := member.length_ge
    have positive := members.length_pos
    simp only [List.length_append] at enough
    -- a member takes two calls, and is at least two characters long
    obtain ⟨fuel, rfl⟩ : ∃ less, fuel = less + 1 := ⟨fuel - 1, by omega⟩
    obtain ⟨tail, text_eq, call⟩ := member.readMember_eq fuel _ (by omega)
    rw [List.append_assoc, List.append_assoc, text_eq, List.cons_append,
      Reader.readMembers_more _ leads, call, members.readMembers_eq (by omega)]
    rfl

end

/-- A text that holds nothing but a written value is read by what reads its outline. -/
theorem Written.readText_eq {α : Type} {value : Value} {before text behind : List Char}
    (written : Written value text) (blank : Spaces before) (blank' : Spaces behind)
    (read : Outline → Except Complaint α) :
    readText read (before ++ (text ++ behind)) = read value.outline := by
  have outlined : outlineOf (before ++ (text ++ behind)) = (value.outline, behind) := by
    apply written.readValue_eq blank
    simp only [List.length_append]
    omega
  have ended : Reader.skipSpace behind = [] := by
    rw [Reader.skipSpace, List.dropWhile_eq_nil_iff]
    exact blank'
  rw [readText, outlined]
  simp only [ended, List.isEmpty_nil, if_true]
  exact bind_pure _

end ImportSupply.Json
