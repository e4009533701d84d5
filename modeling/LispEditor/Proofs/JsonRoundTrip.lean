import LispEditor.Proofs.JsonMembers
import LispEditor.Proofs.JsonScalar

/-!
# Documents are read as they were written

Not every value can be read. A whole number may have too many digits, containers may lie too deep in
each other, and of members with the same key only one is read. Whatever has been read once, though,
is read again when it was written, and is the same.

* `JsonValue.Readable`: the values that a document can hold.
* `JsonValue.readable_of_read`: what is read is such a value.
* `JsonValue.read_text`: such a value is read as it was written.
* `JsonValue.not_mem_textAt`: a written value has no carriage returns.
-/

namespace LispEditor

/-! ### Results -/

theorem exists_of_map_eq_ok {ε α β : Type} {x : Except ε α} {f : α → β} {b : β}
    (done : x.map f = .ok b) : ∃ a, x = .ok a ∧ f a = b := by
  cases x with
  | error cause => exact nomatch done
  | ok a => exact ⟨a, rfl, Except.ok.inj done⟩

theorem exists_of_bind_eq_ok {ε α β : Type} {x : Except ε α} {f : α → Except ε β} {b : β}
    (done : x.bind f = .ok b) : ∃ a, x = .ok a ∧ f a = .ok b := by
  cases x with
  | error cause => exact nomatch done
  | ok a => exact ⟨a, rfl, done⟩

theorem ofOption_eq_ok {α : Type} {x : Option α} {a : α} (done : JsonError.ofOption x = .ok a) :
    x = some a := by
  cases x with
  | none => exact nomatch done
  | some found => exact congrArg some (Except.ok.inj done)

namespace JsonValue

/-! ### What can be read -/

/-- The values that are read where so many containers may still be opened inside each other. -/
inductive Readable : (room : Nat) → JsonValue → Prop
  | null {room : Nat} : Readable room null
  | bool {room : Nat} (value : Bool) : Readable room (bool value)
  | integer {room : Nat} {n : Int} :
      n.natAbs < 10 ^ Numeral.maxDigits → Readable room (integer n)
  | float {room : Nat} {x : Binary64} : x.Exact → Readable room (float x)
  | string {room : Nat} (s : String) : Readable room (string s)
  | array {room : Nat} {items : List JsonValue} :
      (∀ item ∈ items, Readable room item) → Readable (room + 1) (array items)
  | object {room : Nat} {members : JsonMembers} : members.Distinct →
      (∀ member ∈ members, Readable room member.2) → Readable (room + 1) (object members)

theorem readable_of_readWord {text rest : Text} {value : JsonValue}
    (found : readWord text = some (value, rest)) (room : Nat) : Readable room value := by
  obtain ⟨⟨word, known⟩, listed, taken⟩ := List.exists_of_findSome?_eq_some found
  have same : known = value := by
    dsimp only at taken
    split at taken
    · exact (Prod.mk.inj (Option.some.inj taken)).1
    · exact nomatch taken
  rw [← same]
  simp only [wordValues, List.mem_cons, Prod.mk.injEq, List.not_mem_nil, or_false] at listed
  rcases listed with ⟨-, rfl⟩ | ⟨-, rfl⟩ | ⟨-, rfl⟩ | ⟨-, rfl⟩ | ⟨-, rfl⟩ | ⟨-, rfl⟩
  · exact .null
  · exact .bool true
  · exact .bool false
  · exact .float trivial
  · exact .float trivial
  · exact .float trivial

theorem ofDigits_lt {digits : List Nat} (small : ∀ digit ∈ digits, digit < 10) :
    Numeral.ofDigits digits < 10 ^ digits.length := by
  have general {n k : Nat} (below : n < 10 ^ k) :
      digits.foldl (fun n digit => 10 * n + digit) n < 10 ^ (k + digits.length) := by
    induction digits generalizing n k with
    | nil => exact below
    | cons digit rest ih =>
        have less := small digit List.mem_cons_self
        have next : 10 * n + digit < 10 ^ (k + 1) := by
          rw [pow_succ]
          omega
        have later := ih (fun d member => small d (List.mem_cons_of_mem digit member)) next
        rw [List.foldl_cons, List.length_cons]
        rwa [Nat.add_assoc, Nat.add_comm 1] at later
  have all := general (n := 0) (k := 0) Nat.one_pos
  rwa [Nat.zero_add] at all

theorem lt_of_mem_leadingDigits {text : Text} {digit : Nat} (member : digit ∈ leadingDigits text) :
    digit < 10 := by
  obtain ⟨c, taken, rfl⟩ := List.mem_map.mp member
  obtain ⟨-, most⟩ := Char.isDigit_iff_toNat.mp (List.all_eq_true.mp List.all_takeWhile c taken)
  have nine : '9'.toNat = '0'.toNat + 9 := rfl
  omega

theorem lt_of_wholeDigits? {text rest : Text} {digits : List Nat}
    (found : wholeDigits? text = some (digits, rest)) : ∀ digit ∈ digits, digit < 10 := by
  intro digit member
  unfold wholeDigits? at found
  split at found
  next =>
    cases found
    rw [List.mem_singleton.mp member]
    decide
  next =>
    split at found
    next => exact nomatch found
    next =>
      rw [← (Prod.mk.inj (Option.some.inj found)).1] at member
      exact lt_of_mem_leadingDigits member

theorem readable_of_readNumber {text rest : Text} {value : JsonValue}
    (found : readNumber text = some (value, rest)) (room : Nat) : Readable room value := by
  have unsigned {negative : Bool} {text : Text}
      (found : readUnsigned negative text = some (value, rest)) : Readable room value := by
    obtain ⟨⟨whole, behind⟩, digits, taken⟩ := Option.bind_eq_some_iff.mp found
    dsimp only at taken
    split at taken
    · split at taken
      · exact nomatch taken
      · next short =>
          rw [← (Prod.mk.inj (Option.some.inj taken)).1]
          have below := ofDigits_lt (lt_of_wholeDigits? digits)
          have most : 10 ^ whole.length ≤ 10 ^ Numeral.maxDigits :=
            Nat.pow_le_pow_right (by decide) (Nat.le_of_not_lt short)
          refine .integer ?_
          cases negative <;> simpa using below.trans_le most
    · rw [← (Prod.mk.inj (Option.some.inj taken)).1]
      exact .float (Binary64.exact_ofDecimal _ _ _)
  unfold readNumber at found
  split at found
  · exact unsigned found
  · exact unsigned found

/-- What each of the three readers finds with some fuel. -/
structure FindsReadable (fuel : Nat) : Prop where
  value : ∀ {room : Nat} {text rest : Text} {value : JsonValue},
    readValue fuel room text = .ok (value, rest) → Readable room value
  items : ∀ {room : Nat} {text rest : Text} {items : List JsonValue},
    readItems fuel room text = .ok (items, rest) → ∀ item ∈ items, Readable room item
  members : ∀ {room : Nat} {text rest : Text} {members : JsonMembers},
    readMembers fuel room text = .ok (members, rest) → ∀ member ∈ members, Readable room member.2

theorem FindsReadable.readValue {fuel room : Nat} {text rest : Text} {value : JsonValue}
    (less : FindsReadable fuel) (found : readValue (fuel + 1) room text = .ok (value, rest)) :
    Readable room value := by
  unfold JsonValue.readValue at found
  split at found
  next =>
    obtain ⟨⟨name, after⟩, -, same⟩ := Option.map_eq_some_iff.mp (ofOption_eq_ok found)
    cases same
    exact .string name
  next =>
    split at found
    · exact nomatch found
    · split at found
      · cases found
        exact .array fun item member => nomatch member
      · obtain ⟨⟨items, after⟩, read, same⟩ := exists_of_map_eq_ok found
        cases same
        exact .array (less.items read)
  next =>
    split at found
    · exact nomatch found
    · split at found
      · cases found
        exact .object List.nodup_nil fun member present => nomatch present
      · obtain ⟨⟨written, after⟩, read, same⟩ := exists_of_map_eq_ok found
        cases same
        have none : JsonMembers.Distinct [] := List.nodup_nil
        refine .object (JsonMembers.distinct_update none written) fun member present => ?_
        rcases JsonMembers.mem_update present with old | new
        · exact nomatch old
        · exact less.members read member new
  next =>
    rcases Option.or_eq_some_iff.mp (ofOption_eq_ok found) with word | ⟨-, number⟩
    · exact readable_of_readWord word room
    · exact readable_of_readNumber number room

theorem FindsReadable.readItems {fuel room : Nat} {text rest : Text} {items : List JsonValue}
    (less : FindsReadable fuel) (found : readItems (fuel + 1) room text = .ok (items, rest)) :
    ∀ item ∈ items, Readable room item := by
  unfold JsonValue.readItems at found
  obtain ⟨⟨first, after⟩, read, next⟩ := exists_of_bind_eq_ok found
  have readable := less.value read
  dsimp only at next
  split at next
  next =>
    cases next
    intro item member
    rw [List.mem_singleton.mp member]
    exact readable
  next =>
    obtain ⟨⟨others, behind⟩, readOthers, same⟩ := exists_of_map_eq_ok next
    cases same
    intro item member
    rcases List.mem_cons.mp member with rfl | later
    · exact readable
    · exact less.items readOthers item later
  next => exact nomatch next

theorem FindsReadable.readMembers {fuel room : Nat} {text rest : Text} {members : JsonMembers}
    (less : FindsReadable fuel) (found : readMembers (fuel + 1) room text = .ok (members, rest)) :
    ∀ member ∈ members, Readable room member.2 := by
  unfold JsonValue.readMembers at found
  split at found
  next =>
    obtain ⟨⟨key, after⟩, -, next⟩ := exists_of_bind_eq_ok found
    dsimp only at next
    split at next
    next =>
      obtain ⟨⟨value, behind⟩, read, last⟩ := exists_of_bind_eq_ok next
      have readable := less.value read
      dsimp only at last
      split at last
      next =>
        cases last
        intro member present
        rw [List.mem_singleton.mp present]
        exact readable
      next =>
        obtain ⟨⟨others, end'⟩, readOthers, same⟩ := exists_of_map_eq_ok last
        cases same
        intro member present
        rcases List.mem_cons.mp present with rfl | later
        · exact readable
        · exact less.members readOthers member later
      next => exact nomatch last
    next => exact nomatch next
  next => exact nomatch found

theorem findsReadable (fuel : Nat) : FindsReadable fuel := by
  induction fuel with
  | zero =>
      constructor
      · exact fun found => nomatch found
      · exact fun found => nomatch found
      · exact fun found => nomatch found
  | succ fuel ih => exact ⟨ih.readValue, ih.readItems, ih.readMembers⟩

/-- **What is read is a value that a document can hold.** -/
theorem readable_of_read {depth : Nat} {text : Text} {value : JsonValue}
    (found : read depth text = .ok value) : Readable depth value := by
  obtain ⟨⟨value, rest⟩, here, ends⟩ := exists_of_bind_eq_ok found
  dsimp only at ends
  split at ends
  · cases ends
    exact (findsReadable _).value here
  · exact nomatch ends

/-! ### Between values -/

theorem skipSpace_lineBreak (depth : Nat) (text : Text) :
    skipSpace (lineBreak depth ++ text) = skipSpace text := by
  have blank : ∀ c ∈ lineBreak depth, isSpace c = true := by
    intro c member
    rcases List.mem_cons.mp member with rfl | space
    · rfl
    · rw [List.eq_of_mem_replicate space]
      rfl
  exact List.dropWhile_append_of_pos blank

theorem skipSpace_of_head {c : Char} (dark : isSpace c = false) (tail : Text) :
    skipSpace (c :: tail) = c :: tail :=
  List.dropWhile_cons_of_neg (Bool.eq_false_iff.mp dark)

theorem ends_lineBreak (depth : Nat) (text : Text) : Ends (lineBreak depth ++ text) := by
  intro c first
  exact .inr (Option.some.inj first).symm

/-- What follows the first of some parts on lines of their own, up to the closing bracket. -/
def partsTail (closing : Char) (depth : Nat) (parts : List Text) : Text :=
  parts.flatMap (fun part => ',' :: (lineBreak (depth + 1) ++ part)) ++ lineBreak depth ++ [closing]

theorem bracketed_cons (opening closing : Char) (depth : Nat) (part : Text) (parts : List Text) :
    bracketed opening closing depth (part :: parts) =
      opening :: (lineBreak (depth + 1) ++ part ++ partsTail closing depth parts) := by
  have joined (first : Text) (others : List Text) : List.intercalate [','] (first :: others) =
      first ++ others.flatMap fun part => ',' :: part := by
    induction others generalizing first with
    | nil => simp
    | cons second others ih =>
        rw [List.intercalate_cons_cons, ih, List.flatMap_cons]
        simp only [List.append_assoc, List.cons_append, List.nil_append]
  rw [bracketed, List.map_cons, joined, partsTail, List.flatMap_map]
  simp only [List.append_assoc]

theorem itemTexts_eq (depth : Nat) (items : List JsonValue) :
    itemTexts depth items = items.map (textAt depth) := by
  induction items with
  | nil => rfl
  | cons item items ih => rw [itemTexts, ih, List.map_cons]

/-- A member on its line. -/
def memberText (depth : Nat) (member : String × JsonValue) : Text :=
  stringText member.1 ++ ':' :: ' ' :: textAt depth member.2

theorem memberTexts_eq (depth : Nat) (members : JsonMembers) :
    memberTexts depth members = members.map (memberText depth) := by
  induction members with
  | nil => rfl
  | cons member members ih => rw [memberTexts, ih, List.map_cons, memberText]

/-- How much fuel it takes to read some parts. -/
def partsFuel : List Text → Nat
  | [] => 0
  | part :: parts => 2 * part.length + 1 + partsFuel parts

theorem partsTail_cons (closing : Char) (depth : Nat) (part : Text) (parts : List Text) :
    partsTail closing depth (part :: parts) =
      ',' :: (lineBreak (depth + 1) ++ (part ++ partsTail closing depth parts)) := by
  simp only [partsTail, List.flatMap_cons, List.append_assoc, List.cons_append]

/-- The fuel that a document provides for its characters is enough for the parts of a bracket. -/
theorem partsFuel_lt (opening closing : Char) (depth : Nat) (part : Text) (parts : List Text) :
    partsFuel (part :: parts) < 2 * (bracketed opening closing depth (part :: parts)).length := by
  have tail (parts : List Text) :
      partsFuel parts + 2 ≤ 2 * (partsTail closing depth parts).length := by
    induction parts with
    | nil =>
        simp only [partsFuel, partsTail, lineBreak, List.flatMap_nil, List.nil_append,
          List.length_append, List.length_cons, List.length_nil, List.length_replicate]
        omega
    | cons part parts ih =>
        simp only [partsFuel, partsTail_cons, List.length_append, List.length_cons]
        omega
  have behind := tail parts
  simp only [bracketed_cons, partsFuel, List.length_append, List.length_cons]
  omega

/-! ### Reading back -/

/-- The first character of a text is neither a space nor a closing bracket. -/
def Visible (text : Text) : Prop :=
  ∃ c tail, text = c :: tail ∧ isSpace c = false ∧ c ≠ ']'

theorem Visible.skipSpace_eq {text : Text} (visible : Visible text) (rest : Text) :
    skipSpace (text ++ rest) = text ++ rest := by
  obtain ⟨c, tail, rfl, dark, -⟩ := visible
  exact skipSpace_of_head dark _

/-- A value is read as it was written, at any depth and whatever stands behind it. -/
structure ReadsBack (room : Nat) (value : JsonValue) : Prop where
  visible : ∀ depth, Visible (textAt depth value)
  read : ∀ (depth fuel : Nat) (rest : Text), 2 * (textAt depth value).length ≤ fuel → Ends rest →
    readValue fuel room (textAt depth value ++ rest) = .ok (value, rest)

/-- Words and numbers. -/
theorem Spells.readsBack {value : JsonValue} (spells : ∀ depth, Spells (textAt depth value) value)
    (room : Nat) : ReadsBack room value := by
  have ordinary {c : Char} (first : c.isAlphanum = true ∨ c = '-') :
      c ∉ [' ', '\t', '\n', '\r', ']', '"', '[', '{'] := by
    intro member
    rcases first with alphanumeric | rfl
    · simp only [List.mem_cons, List.not_mem_nil, or_false] at member
      rcases member with rfl | rfl | rfl | rfl | rfl | rfl | rfl | rfl <;>
        exact nomatch alphanumeric
    · exact absurd member (by decide)
  constructor
  · intro depth
    obtain ⟨c, tail, text, first⟩ := (spells depth).first
    have other := ordinary first
    simp only [List.mem_cons, List.not_mem_nil, or_false, not_or] at other
    refine ⟨c, tail, text, ?_, other.2.2.2.2.1⟩
    simp [isSpace, other]
  · intro depth fuel rest enough ends
    obtain ⟨c, tail, text, first⟩ := (spells depth).first
    have read := (spells depth).read rest ends
    have other := ordinary first
    simp only [List.mem_cons, List.not_mem_nil, or_false, not_or] at other
    rw [text] at enough read ⊢
    cases fuel with
    | zero => exact nomatch enough
    | succ fuel =>
        rw [List.cons_append] at read ⊢
        unfold readValue
        split
        next same => exact absurd (List.cons.inj same).1 other.2.2.2.2.2.1
        next same => exact absurd (List.cons.inj same).1 other.2.2.2.2.2.2.1
        next same => exact absurd (List.cons.inj same).1 other.2.2.2.2.2.2.2
        next =>
          rw [read]
          rfl

theorem readsBack_string (s : String) (room : Nat) : ReadsBack room (string s) := by
  constructor
  · intro depth
    exact ⟨'"', _, rfl, rfl, by decide⟩
  · intro depth fuel rest enough ends
    cases fuel with
    | zero => exact nomatch enough
    | succ fuel =>
        have whole : textAt depth (string s) ++ rest =
            '"' :: (s.toList.flatMap escapeChar ++ '"' :: rest) := by
          rw [textAt, stringText, List.cons_append, List.append_assoc, List.singleton_append]
        rw [whole, readValue, readString_stringText]
        rfl

theorem ends_partsTail (closing : Char) (depth : Nat) (parts : List Text) (rest : Text) :
    Ends (partsTail closing depth parts ++ rest) := by
  cases parts with
  | nil =>
      rw [partsTail, List.flatMap_nil, List.nil_append, List.append_assoc]
      exact ends_lineBreak depth _
  | cons part parts =>
      rw [partsTail_cons]
      intro c first
      exact .inl (Option.some.inj first).symm

theorem skipSpace_partsTail_nil {closing : Char} (dark : isSpace closing = false) (depth : Nat)
    (rest : Text) : skipSpace (partsTail closing depth [] ++ rest) = closing :: rest := by
  rw [partsTail, List.flatMap_nil, List.nil_append, List.append_assoc, skipSpace_lineBreak]
  exact skipSpace_of_head dark rest

theorem skipSpace_partsTail_cons (closing : Char) (depth : Nat) (part : Text) (parts : List Text)
    (rest : Text) : skipSpace (partsTail closing depth (part :: parts) ++ rest) =
      ',' :: (lineBreak (depth + 1) ++ (part ++ (partsTail closing depth parts ++ rest))) := by
  rw [partsTail_cons, List.cons_append, List.append_assoc, List.append_assoc]
  exact skipSpace_of_head rfl _

section Steps

variable {fuel room : Nat} {text after next rest : Text}

theorem readItems_last {item : JsonValue} (read : readValue fuel room text = .ok (item, after))
    (closes : skipSpace after = ']' :: rest) :
    readItems (fuel + 1) room text = .ok ([item], rest) := by
  simp only [readItems, read, Except.bind, closes]

theorem readItems_next {item : JsonValue} {items : List JsonValue}
    (read : readValue fuel room text = .ok (item, after)) (goesOn : skipSpace after = ',' :: next)
    (others : readItems fuel room (skipSpace next) = .ok (items, rest)) :
    readItems (fuel + 1) room text = .ok (item :: items, rest) := by
  simp only [readItems, read, Except.bind, goesOn, others, Except.map]

variable {key : String} {value : JsonValue} {quoted body : Text}

theorem readMembers_last (name : readString quoted = some (key, ':' :: body))
    (read : readValue fuel room (skipSpace body) = .ok (value, after))
    (closes : skipSpace after = '}' :: rest) :
    readMembers (fuel + 1) room ('"' :: quoted) = .ok ([(key, value)], rest) := by
  have colon : skipSpace (':' :: body) = ':' :: body := skipSpace_of_head rfl body
  simp only [readMembers, name, JsonError.ofOption, Except.bind, colon, read, closes]

theorem readMembers_next {members : JsonMembers}
    (name : readString quoted = some (key, ':' :: body))
    (read : readValue fuel room (skipSpace body) = .ok (value, after))
    (goesOn : skipSpace after = ',' :: next)
    (others : readMembers fuel room (skipSpace next) = .ok (members, rest)) :
    readMembers (fuel + 1) room ('"' :: quoted) = .ok ((key, value) :: members, rest) := by
  have colon : skipSpace (':' :: body) = ':' :: body := skipSpace_of_head rfl body
  simp only [readMembers, name, JsonError.ofOption, Except.bind, colon, read, goesOn, others,
    Except.map]

end Steps

/-- The items of an array, one after the other. -/
theorem readItems_texts {room fuel : Nat} (depth : Nat) {item : JsonValue} {items : List JsonValue}
    (back : ∀ value ∈ item :: items, ReadsBack room value)
    (enough : partsFuel ((item :: items).map (textAt (depth + 1))) ≤ fuel) (rest : Text) :
    readItems fuel room (textAt (depth + 1) item ++
        (partsTail ']' depth (items.map (textAt (depth + 1))) ++ rest)) =
      .ok (item :: items, rest) := by
  induction items generalizing item fuel with
  | nil =>
      rw [List.map_cons, partsFuel] at enough
      obtain ⟨fuel, rfl⟩ : ∃ less, fuel = less + 1 := ⟨fuel - 1, by omega⟩
      have read := (back item List.mem_cons_self).read (depth + 1) fuel _ (by omega)
        (ends_partsTail ']' depth [] rest)
      exact readItems_last read (skipSpace_partsTail_nil rfl depth rest)
  | cons second items ih =>
      rw [List.map_cons, partsFuel] at enough
      obtain ⟨fuel, rfl⟩ : ∃ less, fuel = less + 1 := ⟨fuel - 1, by omega⟩
      have read := (back item List.mem_cons_self).read (depth + 1) fuel _ (by omega)
        (ends_partsTail ']' depth ((second :: items).map (textAt (depth + 1))) rest)
      have present : second ∈ item :: second :: items :=
        List.mem_cons_of_mem item List.mem_cons_self
      have visible := (back second present).visible (depth + 1)
      refine readItems_next read (skipSpace_partsTail_cons ..) ?_
      rw [skipSpace_lineBreak, visible.skipSpace_eq]
      exact ih (fun value member => back value (List.mem_cons_of_mem item member)) (by omega)

/-- A member is a quote, the rest of its key, and its value behind a colon. -/
theorem memberText_append (depth : Nat) (member : String × JsonValue) (rest : Text) :
    memberText depth member ++ rest = '"' :: (member.1.toList.flatMap escapeChar ++
      '"' :: ':' :: ' ' :: (textAt depth member.2 ++ rest)) := by
  simp only [memberText, stringText, List.cons_append, List.append_assoc, List.nil_append]

/-- The members of an object, one after the other. -/
theorem readMembers_texts {room fuel : Nat} (depth : Nat) {member : String × JsonValue}
    {members : JsonMembers} (back : ∀ each ∈ member :: members, ReadsBack room each.2)
    (enough : partsFuel ((member :: members).map (memberText (depth + 1))) ≤ fuel) (rest : Text) :
    readMembers fuel room (memberText (depth + 1) member ++
        (partsTail '}' depth (members.map (memberText (depth + 1))) ++ rest)) =
      .ok (member :: members, rest) := by
  have long (member : String × JsonValue) :
      (textAt (depth + 1) member.2).length ≤ (memberText (depth + 1) member).length := by
    simp only [memberText, List.length_append, List.length_cons]
    omega
  -- The value of a member stands behind a space.
  have value {member : String × JsonValue} {fuel : Nat} {after : Text}
      (back : ReadsBack room member.2) (enough : 2 * (memberText (depth + 1) member).length ≤ fuel)
      (ends : Ends after) :
      readValue fuel room (skipSpace (' ' :: (textAt (depth + 1) member.2 ++ after))) =
        .ok (member.2, after) := by
    have space : skipSpace (' ' :: (textAt (depth + 1) member.2 ++ after)) =
        textAt (depth + 1) member.2 ++ after := (back.visible (depth + 1)).skipSpace_eq after
    have shorter := long member
    rw [space]
    exact back.read (depth + 1) fuel after (by omega) ends
  induction members generalizing member fuel with
  | nil =>
      rw [List.map_cons, partsFuel] at enough
      obtain ⟨fuel, rfl⟩ : ∃ less, fuel = less + 1 := ⟨fuel - 1, by omega⟩
      have read := value (back member List.mem_cons_self) (by omega : _ ≤ fuel)
        (ends_partsTail '}' depth [] rest)
      rw [memberText_append]
      exact readMembers_last (readString_stringText ..) read
        (skipSpace_partsTail_nil rfl depth rest)
  | cons second members ih =>
      rw [List.map_cons, partsFuel] at enough
      obtain ⟨fuel, rfl⟩ : ∃ less, fuel = less + 1 := ⟨fuel - 1, by omega⟩
      have read := value (back member List.mem_cons_self) (by omega : _ ≤ fuel)
        (ends_partsTail '}' depth ((second :: members).map (memberText (depth + 1))) rest)
      have visible : Visible (memberText (depth + 1) second) := ⟨'"', _, rfl, rfl, by decide⟩
      rw [memberText_append]
      refine readMembers_next (readString_stringText ..) read (skipSpace_partsTail_cons ..) ?_
      rw [skipSpace_lineBreak, visible.skipSpace_eq]
      exact ih (fun each present => back each (List.mem_cons_of_mem member present)) (by omega)

theorem readsBack_array {room : Nat} {items : List JsonValue}
    (back : ∀ item ∈ items, ReadsBack room item) : ReadsBack (room + 1) (array items) := by
  constructor
  · intro depth
    cases items <;> exact ⟨'[', _, rfl, rfl, by decide⟩
  · intro depth fuel rest enough ends
    cases fuel with
    | zero => cases items <;> exact nomatch enough
    | succ fuel =>
        cases items with
        | nil => rfl
        | cons item items =>
            rw [textAt, itemTexts_eq, List.map_cons] at enough ⊢
            have least := partsFuel_lt '[' ']' depth (textAt (depth + 1) item)
              (items.map (textAt (depth + 1)))
            have read : readItems fuel room _ = _ :=
              readItems_texts depth back (by rw [List.map_cons]; omega) rest
            have visible := (back item List.mem_cons_self).visible (depth + 1)
            obtain ⟨c, tail, shown, dark, other⟩ := visible
            rw [shown, List.cons_append] at read
            simp only [bracketed_cons, shown, List.cons_append, List.append_assoc, readValue,
              skipSpace_lineBreak, skipSpace_of_head dark]
            split
            next same => exact absurd (List.cons.inj same).1 other
            next => rw [read]; rfl

theorem readsBack_object {room : Nat} {members : JsonMembers} (distinct : members.Distinct)
    (back : ∀ member ∈ members, ReadsBack room member.2) :
    ReadsBack (room + 1) (object members) := by
  constructor
  · intro depth
    cases members <;> exact ⟨'{', _, rfl, rfl, by decide⟩
  · intro depth fuel rest enough ends
    cases fuel with
    | zero => cases members <;> exact nomatch enough
    | succ fuel =>
        cases members with
        | nil => rfl
        | cons member members =>
            rw [textAt, memberTexts_eq, List.map_cons] at enough ⊢
            have least := partsFuel_lt '{' '}' depth (memberText (depth + 1) member)
              (members.map (memberText (depth + 1)))
            have read : readMembers fuel room _ = _ :=
              readMembers_texts depth back (by rw [List.map_cons]; omega) rest
            have merged : JsonMembers.update [] (member :: members) = member :: members :=
              JsonMembers.update_of_distinct distinct
            simp only [bracketed_cons, List.cons_append, List.append_assoc, readValue,
              skipSpace_lineBreak]
            rw [memberText_append] at read ⊢
            rw [skipSpace_of_head rfl]
            split
            next same => exact absurd (List.cons.inj same).1 (by decide)
            next => rw [read, Except.map, merged]

/-- Every readable value is read as it was written. -/
theorem Readable.readsBack {room : Nat} {value : JsonValue} (readable : Readable room value) :
    ReadsBack room value := by
  induction readable with
  | null => exact Spells.readsBack (fun _ => ⟨⟨'n', _, rfl, .inl rfl⟩, fun _ _ => rfl⟩) _
  | bool truth =>
      refine Spells.readsBack (fun _ => ?_) _
      cases truth with
      | false => exact ⟨⟨'f', _, rfl, .inl rfl⟩, fun _ _ => rfl⟩
      | true => exact ⟨⟨'t', _, rfl, .inl rfl⟩, fun _ _ => rfl⟩
  | integer short =>
      refine Spells.readsBack (fun depth => ?_) _
      rw [textAt]
      exact spells_integer short
  | float exact =>
      refine Spells.readsBack (fun depth => ?_) _
      rw [textAt]
      exact spells_float exact
  | string s => exact readsBack_string s _
  | array items ih => exact readsBack_array ih
  | object distinct members ih => exact readsBack_object distinct ih

/-- **A readable value is read as it was written.** -/
theorem read_text {depth : Nat} {value : JsonValue} (readable : Readable depth value) :
    read depth value.text = .ok value := by
  have back := readable.readsBack
  have visible : skipSpace (value.text ++ []) = value.text ++ [] := (back.visible 0).skipSpace_eq []
  have found : readValue (2 * value.text.length + 2) depth (value.text ++ []) =
      .ok (value, []) := back.read 0 _ [] (Nat.le_add_right _ 2) nofun
  rw [List.append_nil] at visible found
  simp only [read, visible, found, Except.bind]
  rfl

/-! ### Carriage returns

A file is read with its carriage returns turned into newlines, so it matters that none is
written. -/

theorem AllDigits.not_mem {digits : Text} (all : AllDigits digits) : '\r' ∉ digits := fun member =>
  absurd (all '\r' member) (by decide)

theorem not_mem_signed (negative : Bool) {text : Text} (free : '\r' ∉ text) :
    '\r' ∉ Binary64.text.signed negative text := by
  cases negative with
  | false => exact free
  | true => exact List.not_mem_cons_of_ne_of_not_mem (by decide) free

theorem not_mem_positional {digits : Text} (all : AllDigits digits) (whole : Int) :
    '\r' ∉ Binary64.positional digits whole := by
  have zeros (count : Nat) : '\r' ∉ List.replicate count '0' := (allDigits_replicate count).not_mem
  have left (count : Nat) : '\r' ∉ digits.take count := mt List.mem_of_mem_take all.not_mem
  have right (count : Nat) : '\r' ∉ digits.drop count := mt List.mem_of_mem_drop all.not_mem
  unfold Binary64.positional
  split
  · simp [all.not_mem]
  · dsimp only
    split
    · simp [all.not_mem]
    · simp [left, right]

theorem not_mem_scientific {digits : Text} (all : AllDigits digits) (exponent : Int) :
    '\r' ∉ Binary64.scientific digits exponent := by
  have left : '\r' ∉ digits.take 1 := mt List.mem_of_mem_take all.not_mem
  have power : '\r' ∉ Binary64.exponentText exponent := by
    have own : '\r' ∉ Binary64.digitText exponent.natAbs := (allDigits_toDigits _).not_mem
    unfold Binary64.exponentText
    split <;> simp [own]
  unfold Binary64.scientific
  split
  · simp [left, power]
  next rest =>
    have right : '\r' ∉ digits.tail := mt List.mem_of_mem_tail all.not_mem
    simp [left, right, power]

theorem not_mem_float (x : Binary64) : '\r' ∉ x.text specialNames := by
  have decimal (decimal : Binary64.Decimal) : '\r' ∉ decimal.text := by
    have all : AllDigits (Binary64.digitText decimal.digits) := allDigits_toDigits decimal.digits
    unfold Binary64.Decimal.text
    dsimp only
    split
    · exact not_mem_positional all _
    · exact not_mem_scientific all _
  unfold Binary64.text
  split
  · decide
  · exact not_mem_signed _ (by decide)
  · exact not_mem_signed _ (by decide)
  · exact not_mem_signed _ (decimal _)

theorem not_mem_unitEscape (n : Nat) : '\r' ∉ unitEscape n := by
  have digit : ∀ n : Fin 16, '\r' ≠ Text.hexDigit n := by decide
  have own (n : Nat) : '\r' ≠ Text.hexDigit (n % 16) := digit ⟨n % 16, Nat.mod_lt n (by decide)⟩
  simp [unitEscape, Text.hexDigits, own]

theorem not_mem_stringText (s : String) : '\r' ∉ stringText s := by
  have char (c : Char) : '\r' ∉ escapeChar c := by
    unfold escapeChar
    grind [not_mem_unitEscape]
  simp [stringText, char]

theorem not_mem_lineBreak (depth : Nat) : '\r' ∉ lineBreak depth := by
  simp [lineBreak]

theorem not_mem_bracketed {opening closing : Char} (opens : '\r' ≠ opening)
    (closes : '\r' ≠ closing) (depth : Nat) {parts : List Text} (free : ∀ part ∈ parts, '\r' ∉ part) :
    '\r' ∉ bracketed opening closing depth parts := by
  cases parts with
  | nil => simp [bracketed, not_mem_lineBreak, opens, closes]
  | cons part parts =>
      simp only [bracketed_cons, partsTail, List.mem_cons, List.mem_append, List.mem_flatMap]
      grind [not_mem_lineBreak]

/-- No carriage return is written. -/
theorem not_mem_textAt {room : Nat} {value : JsonValue} (readable : Readable room value)
    (depth : Nat) : '\r' ∉ textAt depth value := by
  induction readable generalizing depth with
  | null => simp [textAt]
  | bool truth => cases truth <;> simp [textAt]
  | @integer _ n short =>
      rw [textAt, integerText]
      have own : '\r' ∉ Nat.toDigits 10 n.natAbs := (allDigits_toDigits _).not_mem
      split <;> simp [own]
  | float exact =>
      rw [textAt]
      exact not_mem_float _
  | string s =>
      rw [textAt]
      exact not_mem_stringText s
  | @array _ items inside ih =>
      cases items with
      | nil => simp [textAt]
      | cons item items =>
          rw [textAt, itemTexts_eq]
          refine not_mem_bracketed (by decide) (by decide) depth fun part written => ?_
          obtain ⟨value, member, rfl⟩ := List.mem_map.mp written
          exact ih value member (depth + 1)
  | @object _ members distinct inside ih =>
      cases members with
      | nil => simp [textAt]
      | cons first members =>
          rw [textAt, memberTexts_eq]
          refine not_mem_bracketed (by decide) (by decide) depth fun part written => ?_
          obtain ⟨member, present, rfl⟩ := List.mem_map.mp written
          have free := ih member present (depth + 1)
          simp [memberText, not_mem_stringText, free]

end JsonValue

end LispEditor
