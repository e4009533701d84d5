import Mathlib.Data.List.Pairwise
import LispEditor.Proofs.DefinitionHead
import LispEditor.Proofs.ScanMode

/-!
# Hidden definitions

The search for definitions takes no notice of strings and comments. A match that begins in one is
discarded afterwards, and what it has taken is not searched again. So a match that begins in a comment
can hide a definition in code. A match takes a bracket only in a map of its metadata, which goes on over
newlines up to the next brace. There, and nowhere else, definitions are hidden.

* `inMap_of_overtaken`: a match that goes beyond a definition has it in a map.
* `InMap.size_lt`: a definition in a map lies in it as a whole.
* `mem_ofText_iff_not_inMap`: a definition in code is listed unless it lies in a map of some match.
* `listed_iff_not_hidden`: so it is listed unless a discarded match hides it.
-/

namespace LispEditor

namespace Definition

/-- Everything that the search for definitions comes to, listed or not. -/
abbrev finds (text : Text) : List (Nat × Match) :=
  search (fun _ => match?) text

/-- How many characters a match takes. -/
def Match.size (m : Match) : Nat :=
  m.distance + m.name.length

/-- A match that has an offset in a map of its metadata, and the text divided at the offset. -/
structure Surrounds (text : Text) (find : Nat × Match) (offset : Nat)
    (front lead inner outer rest : Text) : Prop where
  text_eq : text =
    front ++ '(' :: (find.2.form ++ (lead ++ '^' :: '{' :: (inner ++ (outer ++ '}' :: rest))))
  place_eq : find.1 = front.length
  offset_eq : offset = (front ++ '(' :: (find.2.form ++ (lead ++ '^' :: '{' :: inner))).length
  leads : Leads Text.isBlank IsPiece lead
  noBrace : ∀ c ∈ inner ++ outer, c ≠ '{' ∧ c ≠ '}'
  beforeName : offset + outer.length < find.1 + find.2.distance

/-- Whether an offset lies in a map of the metadata of a match. -/
def InMap (text : Text) (find : Nat × Match) (offset : Nat) : Prop :=
  ∃ front lead inner outer rest, Surrounds text find offset front lead inner outer rest

/-! ### Brackets and braces of a head -/

theorem isBlank_of_isBracket {c : Char} (bracket : isBracket c = true) : Text.isBlank c = false := by
  simp only [isBracket, isOpener, isCloser, Bool.or_eq_true, decide_eq_true_eq, List.mem_cons,
    List.not_mem_nil, or_false] at bracket
  rcases bracket with (rfl | rfl | rfl) | (rfl | rfl | rfl) <;> rfl

/-- A bracket in what leads to a name stands in a map, or it is one of the braces of the map. -/
theorem Leads.exists_map {between : Text} (leads : Leads Text.isBlank IsPiece between) {c : Char}
    (bracket : isBracket c = true) {front back : Text} (split : between = front ++ c :: back) :
    ∃ lead body inMap rest after, Leads Text.isBlank IsPiece lead ∧
      (∀ c ∈ body, c ≠ '{' ∧ c ≠ '}') ∧ '{' :: (body ++ ['}']) = inMap ++ c :: rest ∧
      front = lead ++ '^' :: inMap ∧ back = rest ++ after := by
  have notBlank {gap : Text} (isGap : IsRun Text.isBlank gap) : c ∉ gap := by
    intro member
    cases (isBlank_of_isBracket bracket).symm.trans (isGap.all c member)
  induction leads generalizing back with
  | gap isGap => exact absurd (by simp [split]) (notBlank isGap)
  | @metadata lead word gap leads isPiece isGap ih =>
      rcases in_or_behind split with ⟨rest, inLead, rfl⟩ | ⟨more, rfl, inPiece⟩
      · obtain ⟨lead', body, inMap, rest', after, leads', noBrace, map, rfl, rfl⟩ := ih inLead
        exact ⟨lead', body, inMap, rest', after ++ '^' :: (word ++ gap), leads', noBrace, map, rfl,
          by simp⟩
      · obtain ⟨inWord, rfl, inRest⟩ := exists_behind_cons inPiece (by
          rintro rfl
          cases bracket)
        rcases in_or_behind inRest with ⟨rest, rfl, rfl⟩ | ⟨later, -, inGap⟩
        · rcases isPiece with ⟨body, map, noBrace⟩ | isWord
          · exact ⟨lead, body, inWord, rest, gap, leads, noBrace, map.symm, rfl, rfl⟩
          · have noBracket := isWord.all c (by simp)
            simp [bracket] at noBracket
        · exact absurd (by simp [inGap]) (notBlank isGap)

/-- Where an opening bracket stands in a map, the map is divided at it. -/
theorem exists_division_of_map {body inMap rest : Text}
    (map : '{' :: (body ++ ['}']) = inMap ++ '(' :: rest) :
    ∃ inner outer, inMap = '{' :: inner ∧ body = inner ++ '(' :: outer ∧ rest = outer ++ ['}'] := by
  obtain ⟨inner, rfl, inBody⟩ := exists_behind_cons map (by decide)
  rcases in_or_behind inBody with ⟨outer, rfl, rfl⟩ | ⟨_, -, last⟩
  · exact ⟨inner, outer, rfl, rfl, rfl⟩
  · have closer : '(' ∈ ['}'] := by simp [last]
    exact absurd closer (by decide)

/-- A head closes no brace that it has not opened. -/
theorem Divides.mem_of_closer {text form between name rest : Text}
    (divides : Divides isFormChar Text.isBlank isNameChar IsPiece text form between name rest)
    {front back : Text} (split : '(' :: (form ++ (between ++ name)) = front ++ '}' :: back) :
    '{' ∈ front := by
  obtain ⟨behindBracket, rfl, inHead⟩ := exists_behind_cons split (by decide)
  obtain ⟨behindForm, rfl, inEnd⟩ := exists_behind inHead (divides.isForm.not_mem (by decide))
  rcases in_or_behind inEnd with ⟨rest, inBetween, -⟩ | ⟨_, -, inName⟩
  · obtain ⟨lead, body, inMap, rest, after, -, -, map, rfl, -⟩ :=
      divides.leads.exists_map rfl inBetween
    obtain ⟨inner, rfl, -⟩ := exists_behind_cons map (by decide)
    simp
  · cases divides.isName.all '}' (by simp [inName])

/-! ### Matches around others -/

/-- **A match that goes beyond a later bracket has it in a map.** -/
theorem inMap_of_overtaken (early : Text) {late tail : Text} (nonempty : late ≠ []) {other : Match}
    {beyond : Nat} (overtakes : match? (late ++ '(' :: tail) = some (other, beyond))
    (passes : late.length < beyond) :
    InMap (early ++ (late ++ '(' :: tail)) (early.length, other) (early ++ late).length := by
  obtain ⟨between, rest, divides, distance, rfl⟩ := exists_of_match? overtakes
  obtain ⟨c, behind, rfl⟩ := List.exists_cons_of_ne_nil nonempty
  obtain ⟨rfl, behindBracket⟩ := List.cons.inj divides.text_eq
  -- A form and a name have no bracket, so what leads to the name is the only part to hold one.
  obtain ⟨front, rfl, same⟩ := exists_behind behindBracket.symm (divides.isForm.not_mem (by decide))
  rcases in_or_behind same with ⟨back, inBetween, rfl⟩ | ⟨more, rfl, inName⟩
  · obtain ⟨lead, body, inMap, rest', after, leads, noBrace, map, rfl, rfl⟩ :=
      divides.leads.exists_map rfl inBetween
    obtain ⟨inner, outer, rfl, rfl, rfl⟩ := exists_division_of_map map
    refine ⟨early, lead, inner, '(' :: outer, after ++ (other.name ++ rest), ?_, rfl, rfl, leads,
      noBrace, ?_⟩
    · simp
    · rw [distance, inBetween]
      simp only [List.length_append, List.length_cons, List.length_nil]
      omega
  · have noBracket : '(' ∉ other.name := by
      intro member
      cases divides.isName.all '(' member
    obtain ⟨_, rfl, -⟩ := exists_behind inName noBracket
    rw [distance] at passes
    simp only [List.length_append, List.length_cons] at passes
    omega

namespace InMap

variable {text : Text} {find : Nat × Match} {offset : Nat}

theorem lt (inMap : InMap text find offset) : find.1 < offset := by
  obtain ⟨front, lead, inner, outer, rest, surrounds⟩ := inMap
  rw [surrounds.place_eq, surrounds.offset_eq, List.length_append, List.length_cons]
  omega

/-- **A head that begins in a map ends in it.** -/
theorem size_lt (inMap : InMap text find offset) {m : Match} {taken : Nat}
    (reads : match? (text.drop offset) = some (m, taken)) :
    offset + m.size < find.1 + find.2.distance := by
  obtain ⟨front, lead, inner, outer, rest, surrounds⟩ := inMap
  have before : text = front ++ '(' :: (find.2.form ++ (lead ++ '^' :: '{' :: inner)) ++
      (outer ++ '}' :: rest) := by
    rw [surrounds.text_eq]
    simp
  rw [before, surrounds.offset_eq, List.drop_left] at reads
  obtain ⟨between, rest', divides, distance, -⟩ := exists_of_match? reads
  have division : '(' :: (m.form ++ (between ++ m.name)) ++ rest' = outer ++ '}' :: rest := by
    rw [divides.text_eq]
    simp
  rcases in_or_behind division with ⟨back, inHead, -⟩ | ⟨more, rfl, -⟩
  · have opener := divides.mem_of_closer inHead
    exact absurd rfl (surrounds.noBrace _ (List.mem_append_right inner opener)).1
  · have beforeName := surrounds.beforeName
    rw [Match.size, distance]
    simp only [List.length_append, List.length_cons] at beforeName ⊢
    omega

end InMap

/-! ### Finds that do not overlap -/

/-- Two finds that have no character in common. -/
def Apart (a b : Nat × Match) : Prop :=
  a.1 + a.2.size ≤ b.1 ∨ b.1 + b.2.size ≤ a.1

instance : Std.Symm Apart := ⟨fun _ _ => Or.symm⟩

theorem pairwise_finds (text : Text) :
    (finds text).Pairwise fun a b => a.1 < b.1 ∧ a.1 + a.2.size ≤ b.1 := by
  refine pairwise_search (fun _ target found taken reads => ?_) text
  obtain ⟨_, _, _, _, size⟩ := exists_of_match? reads
  exact size

theorem apart_of_ne {text : Text} {a b : Nat × Match} (aFound : a ∈ finds text)
    (bFound : b ∈ finds text) (different : a ≠ b) : Apart a b := by
  have apart : (finds text).Pairwise Apart := (pairwise_finds text).imp fun behind => .inl behind.2
  exact apart.forall aFound bFound different

/-! ### Definitions that are not listed -/

/-- The matches of which the definitions are made: those whose bracket is code. -/
def listed (text : Text) : List (Nat × Match) :=
  (finds text).filter fun find => (Snapshot.ofText text).kindAt? find.1 == some .code

/-- The matches that begin in a string, a comment or a literal. -/
def discarded (text : Text) : List (Nat × Match) :=
  (finds text).filter fun find => (Snapshot.ofText text).kindAt? find.1 != some .code

theorem mem_listed {text : Text} {find : Nat × Match} :
    find ∈ listed text ↔
      find ∈ finds text ∧ (Snapshot.ofText text).kindAt? find.1 = some .code := by
  rw [listed, List.mem_filter, beq_iff_eq]

theorem mem_discarded {text : Text} {find : Nat × Match} :
    find ∈ discarded text ↔
      find ∈ finds text ∧ (Snapshot.ofText text).kindAt? find.1 ≠ some .code := by
  rw [discarded, List.mem_filter, bne_iff_ne]

theorem ofText_eq_map_listed (text : Text) :
    ofText text = (listed text).map fun find => ofMatch text find.1 find.2 := rfl

variable {text : Text} {offset taken : Nat} {m : Match}

/-- A definition in a map is not found at any place. -/
theorem InMap.ne_of_mem {find : Nat × Match} (inMap : InMap text find offset)
    (isFound : find ∈ finds text) (reads : match? (text.drop offset) = some (m, taken))
    {other : Nat × Match} (otherFound : other ∈ finds text) :
    other.1 + other.2.distance ≠ offset + m.distance := by
  intro same
  have before := inMap.lt
  have inside := inMap.size_lt reads
  -- The map ends before the name of `find`, and finds do not overlap.
  by_cases equal : other = find
  · rw [equal] at same
    rw [Match.size] at inside
    omega
  · have apart := apart_of_ne otherFound isFound equal
    simp only [Apart, Match.size] at apart inside
    omega

/-- What is read at an offset of a text begins with a bracket there. -/
theorem exists_bracket (reads : match? (text.drop offset) = some (m, taken)) :
    ∃ front tail, text = front ++ '(' :: tail ∧ offset = front.length ∧
      match? ('(' :: tail) = some (m, taken) := by
  obtain ⟨between, rest, divides, -⟩ := exists_of_match? reads
  have behind := divides.text_eq
  have inText : offset < text.length := by
    have nonempty : text.drop offset ≠ [] := by simp [behind]
    simpa using nonempty
  refine ⟨text.take offset, m.form ++ (between ++ (m.name ++ rest)), ?_, ?_, ?_⟩
  · rw [← behind, List.take_append_drop]
  · rw [List.length_take_of_le inText.le]
  · rw [← behind, reads]

/-- **A definition in code is listed unless it lies in a map of some match.** -/
theorem mem_ofText_iff_not_inMap (isCode : (Snapshot.ofText text).kindAt? offset = some .code)
    (reads : match? (text.drop offset) = some (m, taken)) :
    ofMatch text offset m ∈ ofText text ↔ ∀ find ∈ finds text, ¬ InMap text find offset := by
  constructor
  · intro listed find isFound inMap
    obtain ⟨other, isListed, same⟩ := List.mem_map.mp listed
    exact inMap.ne_of_mem isFound reads (mem_listed.mp isListed).1 (congrArg Definition.position same)
  · intro outside
    obtain ⟨front, tail, rfl, rfl, readsTail⟩ := exists_bracket reads
    rcases @mem_search_or_overtaken _ (fun _ => match?) m taken front _ (List.cons_ne_nil _ _)
      readsTail with
      here | ⟨early, late, other, beyond, rfl, nonempty, overtakes, passes, isFound⟩
    · exact List.mem_map.mpr ⟨_, mem_listed.mpr ⟨here, isCode⟩, rfl⟩
    · have inMap := inMap_of_overtaken early nonempty overtakes passes
      rw [← List.append_assoc] at inMap
      exact absurd inMap (outside _ isFound)

/-- **A definition in code that no listed match takes is listed unless a discarded match has it in a
map.** -/
theorem listed_iff_not_hidden (isCode : (Snapshot.ofText text).kindAt? offset = some .code)
    (reads : match? (text.drop offset) = some (m, taken))
    (clear : ∀ find ∈ listed text, find.1 < offset → find.1 + find.2.size ≤ offset) :
    ofMatch text offset m ∈ ofText text ↔ ∀ find ∈ discarded text, ¬ InMap text find offset := by
  rw [mem_ofText_iff_not_inMap isCode reads]
  constructor
  · intro outside find isDiscarded
    exact outside find (mem_discarded.mp isDiscarded).1
  · intro outside find isFound inMap
    by_cases bracketCode : (Snapshot.ofText text).kindAt? find.1 = some .code
    · have before := clear find (mem_listed.mpr ⟨isFound, bracketCode⟩) inMap.lt
      have inside := inMap.size_lt reads
      rw [Match.size] at before
      omega
    · exact outside find (mem_discarded.mpr ⟨isFound, bracketCode⟩) inMap

/-- A definition behind a comment with a map in it. -/
def mapInComment : Text :=
  "(ns a) ; (def ^\x7b\x7d x\n(defn f [] 1)".toList

/-- A map that ends in its comment hides nothing. -/
theorem listed_iff_not_hidden_comment :
    (Snapshot.ofText mapInComment).kindAt? 20 = some .code ∧
      match? (mapInComment.drop 20) = some (⟨"defn".toList, ['f'], 6⟩, 7) ∧
      (∀ find ∈ listed mapInComment, find.1 < 20 → find.1 + find.2.size ≤ 20) ∧
      discarded mapInComment = [(9, ⟨"def".toList, ['x'], 9⟩)] ∧
      ¬ InMap mapInComment (9, ⟨"def".toList, ['x'], 9⟩) 20 := by
  have isCode : (Snapshot.ofText mapInComment).kindAt? (20 : Nat) = some .code := by
    rw [Snapshot.ofText_eq_snapshot]
    decide +kernel
  have reads : match? (mapInComment.drop 20) = some (⟨"defn".toList, ['f'], 6⟩, 7) := by
    decide +kernel
  have clear : ∀ find ∈ listed mapInComment, find.1 < 20 → find.1 + find.2.size ≤ 20 := by
    rw [listed, Snapshot.ofText_eq_snapshot]
    decide +kernel
  have outside : discarded mapInComment = [(9, ⟨"def".toList, ['x'], 9⟩)] := by
    rw [discarded, Snapshot.ofText_eq_snapshot]
    decide +kernel
  refine ⟨isCode, reads, clear, outside, (listed_iff_not_hidden isCode reads clear).mp ?_ _ ?_⟩
  · simp only [ofText, Snapshot.ofText_eq_snapshot]
    decide +kernel
  · rw [outside]
    exact List.mem_singleton_self _

/-- A definition in a map that one comment opens and another one closes. -/
def mapBetweenComments : Text :=
  "; (def ^\x7b\n(defn f [] 1)\n; \x7d x".toList

/-- **A map that goes on behind its comment hides a definition in code.** -/
theorem not_mem_ofText_behind_comment :
    (Snapshot.ofText mapBetweenComments).kindAt? 10 = some .code ∧
      match? (mapBetweenComments.drop 10) = some (⟨"defn".toList, ['f'], 6⟩, 7) ∧
      listed mapBetweenComments = [] ∧
      ofMatch mapBetweenComments 10 ⟨"defn".toList, ['f'], 6⟩ ∉ ofText mapBetweenComments := by
  have none : listed mapBetweenComments = [] := by
    rw [listed, Snapshot.ofText_eq_snapshot]
    decide +kernel
  refine ⟨?_, by decide +kernel, none, ?_⟩
  · rw [Snapshot.ofText_eq_snapshot]
    decide +kernel
  · rw [ofText_eq_map_listed, none]
    exact List.not_mem_nil

end Definition

end LispEditor
