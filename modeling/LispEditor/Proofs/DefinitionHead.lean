import LispEditor.Colour.Rule
import LispEditor.Proofs.PatternReading

/-!
# Heads of definitions

The menu of definitions and the colouring of lines read the head of a definition with patterns of one
shape and with classes of their own. `Divides` says what such a head is without patterns: a bracket, a
form, what leads to the name, and the name, which is as long as it can be.

* `exists_divides`: whatever is read as a head divides the text so.
* `exists_of_mem_matches`: the matches of which the menu is made.
* `ColourRule.definitionHead?_of_isHead`: colouring prefers a head whose name is no metadata.
* `ColourRule.LeadsToName.join`: a head that begins in the metadata of another one has the same name.
* `ColourRule.mem_definitionNames`: so colouring finds the names of all heads.
-/

namespace LispEditor

namespace Definition

/-! ### Divisions -/

/-- At least one character, and all of a class. -/
structure IsRun (accepts : Char → Bool) (run : Text) : Prop where
  nonempty : run ≠ []
  all : ∀ c ∈ run, accepts c = true

/-- Whether a text does not go on with a character of a class. -/
def Stops (accepts : Char → Bool) (rest : Text) : Prop :=
  ∀ c ∈ rest.head?, accepts c = false

/-- A defining form: `ns`, or `def` and characters of a class that do not begin with `ault`. -/
def IsForm (formChar : Char → Bool) (form : Text) : Prop :=
  form = ['n', 's'] ∨
    ∃ tail, form = 'd' :: 'e' :: 'f' :: tail ∧ (∀ c ∈ tail, formChar c = true) ∧
      ¬ ['a', 'u', 'l', 't'] <+: tail

/-- What stands between a form and a name: blanks, and pieces of metadata with blanks behind them. -/
inductive Leads (blank : Char → Bool) (piece : Text → Prop) : Text → Prop where
  | gap {gap : Text} : IsRun blank gap → Leads blank piece gap
  | metadata {lead word gap : Text} : Leads blank piece lead → piece word → IsRun blank gap →
      Leads blank piece (lead ++ '^' :: (word ++ gap))

/-- A text that begins with the head of a definition, divided into the parts of the head and a rest. -/
structure Divides (formChar blank accepts : Char → Bool) (piece : Text → Prop)
    (text form between name rest : Text) : Prop where
  text_eq : text = '(' :: (form ++ (between ++ (name ++ rest)))
  isForm : IsForm formChar form
  leads : Leads blank piece between
  isName : IsRun accepts name
  stops : Stops accepts rest

section Reading

variable {formChar blank accepts : Char → Bool} {piece : Text → Prop} {metadata : Pattern}
  {text rest : Text}

theorem exists_isForm (member : rest ∈ form formChar text) :
    ∃ f, IsForm formChar f ∧ text = f ++ rest := by
  rcases List.mem_append.mp member with short | long
  · exact ⟨_, .inl rfl, Pattern.mem_word.mp short⟩
  · obtain ⟨behindDef, isDef, behind⟩ := Pattern.mem_andThen.mp long
    obtain ⟨_, absent, chars⟩ := Pattern.mem_andThen.mp behind
    obtain ⟨noDefault, rfl⟩ := Pattern.mem_absent.mp absent
    obtain ⟨tail, rfl, accepted⟩ := Pattern.mem_many.mp chars
    rw [Pattern.mem_word] at isDef
    refine ⟨'d' :: 'e' :: 'f' :: tail, .inr ⟨tail, rfl, accepted, ?_⟩, isDef⟩
    rintro ⟨others, rfl⟩
    have default : others ++ rest ∈ Pattern.word ['a', 'u', 'l', 't']
        (['a', 'u', 'l', 't'] ++ others ++ rest) := by
      rw [Pattern.mem_word, List.append_assoc]
    rw [noDefault] at default
    cases default

/-- A form has characters of its class only, if those of `ns` and `def` are of the class. -/
theorem IsForm.all {f : Text} (isForm : IsForm formChar f)
    (letters : (['n', 's'] ++ ['d', 'e', 'f']).all formChar = true) : ∀ c ∈ f, formChar c = true := by
  intro c member
  rcases isForm with rfl | ⟨tail, rfl, formChars, -⟩
  · exact List.all_eq_true.mp letters c (List.mem_append_left _ member)
  · rcases List.mem_append.mp (show c ∈ ['d', 'e', 'f'] ++ tail from member) with inDef | inTail
    · exact List.all_eq_true.mp letters c (List.mem_append_right _ inDef)
    · exact formChars c inTail

/-- A chain of pieces of metadata leads on. -/
theorem Leads.of_reaches
    (pieces : ∀ text rest, rest ∈ metadata text →
      ∃ word gap, text = '^' :: (word ++ (gap ++ rest)) ∧ piece word ∧ IsRun blank gap)
    {lead : Text} (leads : Leads blank piece lead) (reaches : Pattern.Reaches metadata text rest) :
    ∃ between, Leads blank piece between ∧ lead ++ text = between ++ rest := by
  induction reaches with
  | refl => exact ⟨lead, leads, rfl⟩
  | tail _ next ih =>
      obtain ⟨between, leads, same⟩ := ih
      obtain ⟨word, gap, rfl, isPiece, isGap⟩ := pieces _ _ next
      refine ⟨_, .metadata leads isPiece isGap, ?_⟩
      rw [same]
      simp only [List.append_assoc, List.cons_append]

theorem exists_of_head?_flatMap {α β : Type} {items : List α} {f : α → List β} {value : β}
    (found : (items.flatMap f).head? = some value) :
    ∃ item ∈ items, (f item).head? = some value := by
  rw [List.head?_flatMap] at found
  exact List.exists_of_findSome?_eq_some found

/-- **What is read as a head divides the text.** -/
theorem exists_divides
    (pieces : ∀ text rest, rest ∈ metadata text →
      ∃ word gap, text = '^' :: (word ++ (gap ++ rest)) ∧ piece word ∧ IsRun blank gap)
    {head : Head}
    (found : (heads (form formChar) (Pattern.oneOrMore blank) metadata (Pattern.oneOrMore accepts)
      text).head? = some head) :
    ∃ f between name rest, Divides formChar blank accepts piece text f between name rest ∧
      head = ⟨f ++ (between ++ (name ++ rest)), between ++ (name ++ rest), name ++ rest, rest⟩ := by
  obtain ⟨atForm, bracket, found⟩ := exists_of_head?_flatMap found
  obtain ⟨afterForm, readForm, found⟩ := exists_of_head?_flatMap found
  obtain ⟨atName, leads, found⟩ := exists_of_head?_flatMap found
  rw [List.head?_map, Option.map_eq_some_iff] at found
  obtain ⟨afterName, isName, rfl⟩ := found
  obtain ⟨c, rfl, isBracket⟩ := Pattern.mem_char.mp bracket
  obtain rfl : c = '(' := by simpa using isBracket
  obtain ⟨f, isForm, rfl⟩ := exists_isForm readForm
  obtain ⟨atPieces, blanks, later⟩ := Pattern.mem_andThen.mp leads
  obtain ⟨gap, nonempty, rfl, isGap⟩ := Pattern.mem_oneOrMore.mp blanks
  obtain ⟨between, leads, same⟩ :=
    Leads.of_reaches pieces (.gap ⟨nonempty, isGap⟩) (Pattern.reaches_of_mem_star later)
  obtain ⟨⟨c, first, accepted⟩, rfl⟩ := Pattern.head?_oneOrMore_eq_some.mp isName
  have name : atName = atName.takeWhile accepts ++ atName.dropWhile accepts :=
    List.takeWhile_append_dropWhile.symm
  refine ⟨f, between, atName.takeWhile accepts, atName.dropWhile accepts, ⟨?_, isForm, leads,
    ⟨?_, fun c member => List.mem_takeWhile_imp member⟩, fun c => eq_false_of_mem_head?_dropWhile⟩, ?_⟩
  · rw [← name, ← same]
  · obtain ⟨others, rfl⟩ := List.head?_eq_some_iff.mp first
    simp [accepted]
  · rw [← name, ← same]

/-- What leads to a name begins with a blank. -/
theorem Leads.exists_blank {between : Text} (leads : Leads blank piece between) :
    ∃ c others, between = c :: others ∧ blank c = true := by
  induction leads with
  | gap isGap =>
      obtain ⟨c, others, rfl⟩ := List.exists_cons_of_ne_nil isGap.nonempty
      exact ⟨c, others, rfl, isGap.all c List.mem_cons_self⟩
  | metadata _ _ _ ih =>
      obtain ⟨c, others, rfl, isBlank⟩ := ih
      exact ⟨c, _, rfl, isBlank⟩

/-- What leads to a name ends with a blank. -/
theorem Leads.exists_last_blank {between : Text} (leads : Leads blank piece between) :
    ∃ front c, between = front ++ [c] ∧ blank c = true := by
  have last {gap : Text} (isGap : IsRun blank gap) : ∃ front c, gap = front ++ [c] ∧ blank c = true := by
    rcases List.eq_nil_or_concat gap with rfl | ⟨front, c, rfl⟩
    · exact absurd rfl isGap.nonempty
    · exact ⟨front, c, List.concat_eq_append, isGap.all c (by simp)⟩
  cases leads with
  | gap isGap => exact last isGap
  | @metadata lead word gap _ _ isGap =>
      obtain ⟨front, c, rfl, isBlank⟩ := last isGap
      exact ⟨lead ++ '^' :: (word ++ front), c, by simp, isBlank⟩

end Reading

/-! ### The heads that the menu reads -/

/-- A map without maps in it. -/
def IsPlainMap (word : Text) : Prop :=
  ∃ body, word = '{' :: (body ++ ['}']) ∧ ∀ c ∈ body, c ≠ '{' ∧ c ≠ '}'

/-- A piece of metadata: a plain map, or a word without brackets. -/
def IsPiece (word : Text) : Prop :=
  IsPlainMap word ∨ IsRun (fun c => !(Text.isBlank c || isBracket c)) word

theorem exists_isPlainMap {text rest : Text} (member : rest ∈ plainMap text) :
    ∃ word, IsPlainMap word ∧ text = word ++ rest := by
  obtain ⟨atBody, opens, later⟩ := Pattern.mem_andThen.mp member
  obtain ⟨c, rfl, isOpener⟩ := Pattern.mem_char.mp opens
  obtain ⟨atCloser, readBody, closes⟩ := Pattern.mem_andThen.mp later
  obtain ⟨body, rfl, noBrace⟩ := Pattern.mem_many.mp readBody
  obtain ⟨d, rfl, isCloser⟩ := Pattern.mem_char.mp closes
  obtain rfl : c = '{' := by simpa using isOpener
  obtain rfl : d = '}' := by simpa using isCloser
  refine ⟨'{' :: (body ++ ['}']), ⟨body, rfl, fun c inBody => ?_⟩, by simp⟩
  simpa using noBrace c inBody

theorem pieces_metadata (text rest : Text) (member : rest ∈ metadata text) :
    ∃ word gap, text = '^' :: (word ++ (gap ++ rest)) ∧ IsPiece word ∧ IsRun Text.isBlank gap := by
  obtain ⟨atWord, mark, later⟩ := Pattern.mem_andThen.mp member
  obtain ⟨c, rfl, isMark⟩ := Pattern.mem_char.mp mark
  obtain rfl : c = '^' := by simpa using isMark
  obtain ⟨atGap, readWord, readGap⟩ := Pattern.mem_andThen.mp later
  obtain ⟨gap, someGap, rfl, blank⟩ := Pattern.mem_oneOrMore.mp readGap
  rcases List.mem_append.mp readWord with readMap | readName
  · obtain ⟨word, isMap, rfl⟩ := exists_isPlainMap readMap
    exact ⟨word, gap, rfl, .inl isMap, someGap, blank⟩
  · obtain ⟨word, someWord, rfl, noBlank⟩ := Pattern.mem_oneOrMore.mp readName
    exact ⟨word, gap, rfl, .inr ⟨someWord, noBlank⟩, someGap, blank⟩

theorem upToRest_append (front rest : Text) : upToRest (front ++ rest) rest = front := by
  rw [upToRest, List.length_append, Nat.add_sub_cancel, List.take_left]

/-- A form holds none of the characters that matter to a scan, and no bracket. -/
theorem isFormChar_eq_false {c : Char} (other : c ∈ [';', '"', '\\', '(', '{', '}']) :
    isFormChar c = false := by
  simp only [List.mem_cons, List.not_mem_nil, or_false] at other
  rcases other with rfl | rfl | rfl | rfl | rfl | rfl <;> decide +kernel

theorem IsForm.not_mem {f : Text} (isForm : IsForm isFormChar f) {c : Char}
    (other : c ∈ [';', '"', '\\', '(', '{', '}']) : c ∉ f := by
  intro member
  cases (isFormChar_eq_false other).symm.trans (isForm.all rfl c member)

/-- How a match divides the text that it begins. -/
theorem exists_of_match? {text : Text} {m : Match} {taken : Nat} (reads : match? text = some (m, taken)) :
    ∃ between rest, Divides isFormChar Text.isBlank isNameChar IsPiece text m.form between m.name rest ∧
      m.distance = ('(' :: (m.form ++ between)).length ∧ taken = m.distance + m.name.length := by
  obtain ⟨head, readHead, same⟩ := Option.map_eq_some_iff.mp reads
  obtain ⟨rfl, rfl⟩ := Prod.mk.inj same
  obtain ⟨form, between, name, rest, divides, rfl⟩ := exists_divides pieces_metadata readHead
  obtain rfl := divides.text_eq
  simp only [upToRest_append]
  refine ⟨between, rest, divides, ?_, ?_⟩
  · simp only [List.length_cons, List.length_append]
    omega
  · simp only [List.length_cons, List.length_append]
    omega

/-- **How a match divides the text that is searched.** -/
theorem exists_of_mem_matches {text : Text} {place : Nat} {m : Match}
    (found : (place, m) ∈ search (fun _ => match?) text) :
    ∃ front between rest, text = front ++ '(' :: (m.form ++ (between ++ (m.name ++ rest))) ∧
      place = front.length ∧ m.distance = ('(' :: (m.form ++ between)).length ∧
      Divides isFormChar Text.isBlank isNameChar IsPiece
        ('(' :: (m.form ++ (between ++ (m.name ++ rest)))) m.form between m.name rest := by
  obtain ⟨front, target, taken, rfl, rfl, reads⟩ := exists_of_mem_search found
  obtain ⟨between, rest, divides, distance, -⟩ := exists_of_match? reads
  obtain rfl := divides.text_eq
  exact ⟨front, between, rest, rfl, rfl, distance, divides⟩

/-- A match divides its text: what leads to the name, the name, and a rest. -/
theorem exists_name_of_mem_matches {text : Text} {place : Nat} {m : Match}
    (found : (place, m) ∈ search (fun _ => match?) text) :
    ∃ lead rest, text = lead ++ (m.name ++ rest) ∧ place + m.distance = lead.length ∧
      IsRun isNameChar m.name ∧ Stops isNameChar rest := by
  obtain ⟨front, between, rest, rfl, rfl, distance, divides⟩ := exists_of_mem_matches found
  refine ⟨front ++ '(' :: (m.form ++ between), rest, ?_, ?_, divides.isName, divides.stops⟩
  · simp only [List.append_assoc, List.cons_append]
  · simp only [distance, List.length_append]

theorem exists_name_of_mem_ofText {text : Text} {d : Definition} (member : d ∈ ofText text) :
    ∃ lead rest, text = lead ++ (d.name ++ rest) ∧ d.position = lead.length ∧
      IsRun isNameChar d.name ∧ Stops isNameChar rest := by
  obtain ⟨found, filtered, rfl⟩ := List.mem_map.mp member
  exact exists_name_of_mem_matches (List.mem_filter.mp filtered).1

end Definition

/-! ### The heads that colouring reads -/

namespace ColourRule

open Definition

variable {text form between name rest : Text}

/-- A word of metadata: anything without blanks. -/
abbrev IsWord (word : Text) : Prop :=
  IsRun (fun c => !Text.isAsciiBlank c) word

/-- What leads to a name on a line. -/
abbrev LeadsToName (between : Text) : Prop :=
  Leads Text.isAsciiBlank IsWord between

/-- The head of a definition on a line. -/
abbrev IsHead (text form between name rest : Text) : Prop :=
  Divides isFormChar Text.isAsciiBlank (fun c => !canFollow c) IsWord text form between name rest

theorem mem_of_isAsciiBlank {c : Char} (blank : Text.isAsciiBlank c = true) :
    c ∈ ['\t', '\n', '\x0b', '\x0c', '\r', ' '] := by
  have bounds : 9 ≤ c.toNat ∧ c.toNat ≤ 13 ∨ c.toNat = 32 := by
    simp only [Text.isAsciiBlank, Text.inRanges, List.any_cons, List.any_nil, Bool.or_false,
      Bool.or_eq_true, decide_eq_true_eq] at blank
    omega
  have same : c = Char.ofNat c.toNat := (Char.ofNat_toNat c).symm
  generalize c.toNat = code at bounds same
  subst same
  obtain rfl | rfl | rfl | rfl | rfl | rfl :
      code = 9 ∨ code = 10 ∨ code = 11 ∨ code = 12 ∨ code = 13 ∨ code = 32 := by omega
  all_goals decide

theorem isFormChar_of_isAsciiBlank {c : Char} (blank : Text.isAsciiBlank c = true) :
    isFormChar c = false := by
  have member := mem_of_isAsciiBlank blank
  simp only [List.mem_cons, List.not_mem_nil, or_false] at member
  rcases member with rfl | rfl | rfl | rfl | rfl | rfl <;> rfl

theorem canFollow_of_isAsciiBlank {c : Char} (blank : Text.isAsciiBlank c = true) :
    canFollow c = true := by
  simp [canFollow, isDivider, blank]

theorem isAsciiBlank_of_not_canFollow {c : Char} (part : (!canFollow c) = true) :
    Text.isAsciiBlank c = false := by
  cases blank : Text.isAsciiBlank c with
  | false => rfl
  | true => simp [canFollow_of_isAsciiBlank blank] at part

theorem pieces_metadata (text rest : Text) (member : rest ∈ metadata text) :
    ∃ word gap, text = '^' :: (word ++ (gap ++ rest)) ∧ IsWord word ∧
      IsRun Text.isAsciiBlank gap := by
  obtain ⟨atWord, mark, later⟩ := Pattern.mem_andThen.mp member
  obtain ⟨c, rfl, isMark⟩ := Pattern.mem_char.mp mark
  obtain ⟨atGap, readWord, readGap⟩ := Pattern.mem_andThen.mp later
  obtain ⟨word, someWord, rfl, noBlank⟩ := Pattern.mem_oneOrMore.mp readWord
  obtain ⟨gap, someGap, rfl, blank⟩ := Pattern.mem_oneOrMore.mp readGap
  obtain rfl : c = '^' := by simpa using isMark
  exact ⟨word, gap, rfl, ⟨someWord, noBlank⟩, someGap, blank⟩

theorem exists_isHead {head : Head} (found : definitionHead? text = some head) :
    ∃ form between name rest, IsHead text form between name rest ∧
      head = ⟨form ++ (between ++ (name ++ rest)), between ++ (name ++ rest), name ++ rest, rest⟩ :=
  exists_divides pieces_metadata found

/-! ### The head that colouring prefers -/

theorem head?_form (isForm : IsForm isFormChar form) (leads : LeadsToName between) (tail : Text) :
    (Definition.form isFormChar (form ++ (between ++ tail))).head? = some (between ++ tail) := by
  obtain ⟨c, others, rfl, blank⟩ := leads.exists_blank
  have stops : ∀ d ∈ (c :: others ++ tail).head?, isFormChar d = false := by
    rintro d ⟨⟩
    exact isFormChar_of_isAsciiBlank blank
  rcases isForm with rfl | ⟨letters, rfl, formChars, noDefault⟩
  · rfl
  · have absent : Pattern.word ['a', 'u', 'l', 't'] (letters ++ (c :: others ++ tail)) = [] := by
      refine List.eq_nil_iff_forall_not_mem.mpr fun rest member => ?_
      have starts : ['a', 'u', 'l', 't'] <+: letters ++ (c :: others ++ tail) :=
        ⟨rest, (Pattern.mem_word.mp member).symm⟩
      have upToBlank : letters ++ [c] <+: letters ++ (c :: others ++ tail) := ⟨others ++ tail, by simp⟩
      have notLetter : c ∉ ['a', 'u', 'l', 't'] := by
        intro letter
        simp only [List.mem_cons, List.not_mem_nil, or_false] at letter
        rcases letter with rfl | rfl | rfl | rfl <;> cases blank
      rcases List.prefix_or_prefix_of_prefix starts upToBlank with within | beyond
      · rcases List.prefix_concat_iff.mp within with same | inLetters
        · exact notLetter (by rw [same]; simp)
        · exact noDefault inLetters
      · exact notLetter (beyond.subset (by simp))
    have notShort : Pattern.word ['n', 's'] ('d' :: 'e' :: 'f' :: letters ++ (c :: others ++ tail)) = [] :=
      rfl
    have isDef : (Pattern.word ['d', 'e', 'f']
        ('d' :: 'e' :: 'f' :: letters ++ (c :: others ++ tail))).head? =
          some (letters ++ (c :: others ++ tail)) := rfl
    have notDefault : (Pattern.absent (Pattern.word ['a', 'u', 'l', 't'])
        (letters ++ (c :: others ++ tail))).head? = some (letters ++ (c :: others ++ tail)) := by
      rw [Pattern.absent, absent]
      rfl
    have chars : (Pattern.many isFormChar (letters ++ (c :: others ++ tail))).head? =
        some (c :: others ++ tail) := by
      rw [Pattern.head?_many, dropWhile_append_eq formChars stops]
    rw [Definition.form, Pattern.orElse, notShort, List.nil_append]
    exact Pattern.head?_andThen isDef (Pattern.head?_andThen notDefault chars)

theorem head?_metadata {word gap tail : Text} (isWord : IsWord word)
    (isGap : IsRun Text.isAsciiBlank gap) (stops : Stops Text.isAsciiBlank tail) :
    (metadata ('^' :: (word ++ (gap ++ tail)))).head? = some tail := by
  have mark : (Pattern.char (· == '^') ('^' :: (word ++ (gap ++ tail)))).head? =
      some (word ++ (gap ++ tail)) := rfl
  have wordEnds : Stops (fun c => !Text.isAsciiBlank c) (gap ++ tail) := by
    obtain ⟨c, others, rfl⟩ := List.exists_cons_of_ne_nil isGap.nonempty
    rintro d ⟨⟩
    simp [isGap.all c List.mem_cons_self]
  have readWord := Pattern.head?_oneOrMore_append isWord.nonempty isWord.all wordEnds
  have readGap := Pattern.head?_oneOrMore_append isGap.nonempty isGap.all stops
  exact Pattern.head?_andThen mark (Pattern.head?_andThen readWord readGap)

/-- Behind a form colouring reads blanks and metadata as far as they go. -/
theorem exists_limit (isForm : IsForm isFormChar form) (leads : LeadsToName between) {tail : Text}
    (stops : Stops Text.isAsciiBlank tail) :
    ∃ limit, tail.length ≤ limit ∧ ∀ atName afterName,
      (Pattern.upTo metadata limit tail).head? = some atName →
      (Pattern.oneOrMore (fun c => !canFollow c) atName).head? = some afterName →
        definitionHead? ('(' :: (form ++ (between ++ tail))) =
          some ⟨form ++ (between ++ tail), between ++ tail, atName, afterName⟩ := by
  -- Metadata is added behind what leads already, so the tail grows while the limit shrinks.
  induction leads generalizing tail with
  | @gap gap isGap =>
      refine ⟨tail.length, Nat.le_refl _, fun atName afterName pieces isName => ?_⟩
      have blanks : (Pattern.oneOrMore Text.isAsciiBlank (gap ++ tail)).head? = some tail :=
        Pattern.head?_oneOrMore_append isGap.nonempty isGap.all stops
      have bracket : (Pattern.char (· == '(') ('(' :: (form ++ (gap ++ tail)))).head? =
          some (form ++ (gap ++ tail)) := rfl
      refine Pattern.head?_flatMap_of_head? bracket ?_
      refine Pattern.head?_flatMap_of_head? (head?_form isForm (.gap isGap) tail) ?_
      refine Pattern.head?_flatMap_of_head? (Pattern.head?_andThen blanks pieces) ?_
      rw [List.head?_map, isName]
      rfl
  | @metadata lead word gap _ isWord isGap ih =>
      have mark : Stops Text.isAsciiBlank ('^' :: (word ++ (gap ++ tail))) := by
        rintro c ⟨⟩
        rfl
      obtain ⟨limit, enough, reads⟩ := ih mark
      obtain ⟨less, rfl⟩ : ∃ less, limit = less + 1 := ⟨limit - 1, by
        simp only [List.length_cons] at enough
        omega⟩
      refine ⟨less, ?_, fun atName afterName pieces isName => ?_⟩
      · simp only [List.length_cons, List.length_append] at enough
        omega
      · have reading := reads atName afterName
          (Pattern.head?_upTo (head?_metadata isWord isGap stops) pieces) isName
        simpa only [List.append_assoc, List.cons_append] using reading

theorem stops_of_isName (isName : IsRun (fun c => !canFollow c) name) (rest : Text) :
    Stops Text.isAsciiBlank (name ++ rest) := by
  obtain ⟨c, others, rfl⟩ := List.exists_cons_of_ne_nil isName.nonempty
  rintro d ⟨⟩
  exact isAsciiBlank_of_not_canFollow (isName.all c List.mem_cons_self)

/-- **Colouring prefers a head whose name is no metadata.** -/
theorem definitionHead?_of_isHead (isHead : IsHead text form between name rest)
    (plain : name.head? ≠ some '^') :
    definitionHead? text =
      some ⟨form ++ (between ++ (name ++ rest)), between ++ (name ++ rest), name ++ rest, rest⟩ := by
  obtain ⟨rfl, isForm, leads, isName, stops⟩ := isHead
  obtain ⟨limit, -, reads⟩ := exists_limit isForm leads (stops_of_isName isName rest)
  have noMetadata : metadata (name ++ rest) = [] := by
    obtain ⟨c, others, rfl⟩ := List.exists_cons_of_ne_nil isName.nonempty
    have other : (c == '^') = false := by simpa using plain
    simp [metadata, Pattern.andThen, Pattern.char, other]
  exact reads (name ++ rest) rest (Pattern.head?_upTo_of_fails noMetadata limit)
    (Pattern.head?_oneOrMore_append isName.nonempty isName.all stops)

/-! ### Heads in the metadata of others -/

theorem isFormChar_of_mem (isForm : IsForm isFormChar form) {c : Char} (member : c ∈ form) :
    isFormChar c = true :=
  isForm.all rfl c member

theorem isAsciiBlank_of_isForm (isForm : IsForm isFormChar form) :
    ∀ c ∈ form, Text.isAsciiBlank c = false := by
  intro c member
  cases blank : Text.isAsciiBlank c with
  | false => rfl
  | true => cases (isFormChar_of_mem isForm member).symm.trans (isFormChar_of_isAsciiBlank blank)

/-- A word and the blanks behind it are determined by the text. -/
theorem word_gap_unique {word gap after word' gap' after' : Text}
    (same : word ++ (gap ++ after) = word' ++ (gap' ++ after'))
    (noBlank : ∀ c ∈ word, Text.isAsciiBlank c = false)
    (noBlank' : ∀ c ∈ word', Text.isAsciiBlank c = false)
    (isGap : IsRun Text.isAsciiBlank gap) (isGap' : IsRun Text.isAsciiBlank gap')
    (stops : Stops Text.isAsciiBlank after) (stops' : Stops Text.isAsciiBlank after') :
    word = word' ∧ gap = gap' := by
  have wordOf {word gap after : Text} (noBlank : ∀ c ∈ word, Text.isAsciiBlank c = false)
      (isGap : IsRun Text.isAsciiBlank gap) :
      (word ++ (gap ++ after)).takeWhile (fun c => !Text.isAsciiBlank c) = word := by
    refine takeWhile_append_eq (fun c member => by simp [noBlank c member]) ?_
    obtain ⟨c, others, rfl⟩ := List.exists_cons_of_ne_nil isGap.nonempty
    rintro d ⟨⟩
    simp [isGap.all c List.mem_cons_self]
  obtain rfl : word = word' :=
    calc word
      _ = (word ++ (gap ++ after)).takeWhile (fun c => !Text.isAsciiBlank c) :=
        (wordOf noBlank isGap).symm
      _ = (word' ++ (gap' ++ after')).takeWhile (fun c => !Text.isAsciiBlank c) := by rw [same]
      _ = word' := wordOf noBlank' isGap'
  refine ⟨rfl, ?_⟩
  calc gap
    _ = (gap ++ after).takeWhile Text.isAsciiBlank := (takeWhile_append_eq isGap.all stops).symm
    _ = (gap' ++ after').takeWhile Text.isAsciiBlank := by rw [List.append_cancel_left same]
    _ = gap' := takeWhile_append_eq isGap'.all stops'

theorem bracket_not_mem_gap {gap : Text} (isGap : IsRun Text.isAsciiBlank gap) : '(' ∉ gap :=
  fun member => nomatch isGap.all _ member

/-- What leads to a name, up to the blanks behind a form that begins in it. -/
theorem LeadsToName.upTo_gap {outer after front gap tail : Text} (leads : LeadsToName outer)
    (isForm : IsForm isFormChar form) (isGap : IsRun Text.isAsciiBlank gap)
    (same : outer ++ after = front ++ '(' :: (form ++ (gap ++ tail)))
    (inside : front.length < outer.length) (afterStops : Stops Text.isAsciiBlank after)
    (tailStops : Stops Text.isAsciiBlank tail) :
    LeadsToName (front ++ '(' :: (form ++ gap)) := by
  -- The bracket can stand in a word of metadata only; this word then ends with the form.
  induction leads generalizing after with
  | gap isBlank =>
      obtain ⟨more, rfl, -⟩ := exists_behind same (bracket_not_mem_gap isBlank)
      simp only [List.length_append] at inside
      omega
  | @metadata lead word blanks leads isWord isBlank ih =>
      have division : lead ++ '^' :: (word ++ (blanks ++ after)) =
          front ++ '(' :: (form ++ (gap ++ tail)) := by
        simpa only [List.append_assoc, List.cons_append] using same
      rcases in_or_behind division with ⟨rest, rfl, -⟩ | ⟨more, rfl, inPiece⟩
      · have earlier : front.length < (front ++ '(' :: rest).length := by simp
        refine ih division earlier ?_
        rintro c ⟨⟩
        rfl
      · have inMark : ['^'] ++ (word ++ (blanks ++ after)) = more ++ '(' :: (form ++ (gap ++ tail)) :=
          inPiece
        obtain ⟨inWord, rfl, behindMark⟩ := exists_behind inMark (by decide)
        rcases in_or_behind behindMark with ⟨rest, rfl, sameRest⟩ | ⟨later, rfl, inGap⟩
        · have noBlank : ∀ c ∈ rest, Text.isAsciiBlank c = false := fun c member => by
            simpa using isWord.all c (List.mem_append_right inWord (List.mem_cons_of_mem _ member))
          obtain ⟨rfl, rfl⟩ := word_gap_unique sameRest (isAsciiBlank_of_isForm isForm) noBlank isGap
            isBlank tailStops afterStops
          have whole : LeadsToName (lead ++ '^' :: (inWord ++ '(' :: form ++ gap)) :=
            .metadata leads isWord isGap
          simpa only [List.append_assoc, List.cons_append, List.nil_append] using whole
        · obtain ⟨last, rfl, -⟩ := exists_behind inGap (bracket_not_mem_gap isBlank)
          simp only [List.length_append, List.length_cons, List.length_nil] at inside
          omega

/-- **What leads to the name of a head that begins in metadata** leads to it from the start of the
outer head too. -/
theorem LeadsToName.join {outer after front tail : Text} (leads : LeadsToName outer)
    (isForm : IsForm isFormChar form) (inner : LeadsToName between)
    (same : outer ++ after = front ++ '(' :: (form ++ (between ++ tail)))
    (inside : front.length < outer.length) (afterStops : Stops Text.isAsciiBlank after)
    (tailStops : Stops Text.isAsciiBlank tail) :
    LeadsToName (front ++ '(' :: (form ++ between)) := by
  induction inner generalizing tail with
  | gap isGap => exact leads.upTo_gap isForm isGap same inside afterStops tailStops
  | @metadata lead word gap _ isWord isGap ih =>
      have division : outer ++ after =
          front ++ '(' :: (form ++ (lead ++ '^' :: (word ++ (gap ++ tail)))) := by
        simpa only [List.append_assoc, List.cons_append] using same
      have upToLead : LeadsToName (front ++ '(' :: (form ++ lead)) := by
        refine ih division ?_
        rintro c ⟨⟩
        rfl
      have whole := upToLead.metadata isWord isGap
      simpa only [List.append_assoc, List.cons_append] using whole

/-! ### The names that colouring finds -/

/-- A head that an earlier one goes beyond lies in the metadata of that one, and they have one name. -/
theorem exists_outer {late : Text} {head : Head} (isHead : IsHead text form between name rest)
    (nonempty : late ≠ []) (found : definitionHead? (late ++ text) = some head)
    (passes : late.length < (late ++ text).length - head.afterName.length) :
    ∃ form' between', IsHead (late ++ text) form' between' name rest ∧
      '(' :: (form' ++ between') = late ++ '(' :: (form ++ between) := by
  obtain ⟨rfl, isForm, leads, isName, stops⟩ := isHead
  obtain ⟨form', outer, name', rest', ⟨division, isForm', leads', isName', -⟩, rfl⟩ :=
    exists_isHead found
  obtain ⟨c, behind, rfl⟩ := List.exists_cons_of_ne_nil nonempty
  obtain ⟨rfl, behindBracket⟩ := List.cons.inj division
  have noBracket : '(' ∉ form' := fun member => nomatch isFormChar_of_mem isForm' member
  obtain ⟨front, rfl, same⟩ := exists_behind behindBracket.symm noBracket
  have inside : front.length < outer.length := by
    by_contra beyond
    rcases in_or_behind same with ⟨_, rfl, -⟩ | ⟨more, rfl, inName⟩
    · simp at beyond
    · have noBracket' : '(' ∉ name' := fun member => nomatch isName'.all _ member
      obtain ⟨_, rfl, -⟩ := exists_behind inName noBracket'
      rw [division] at passes
      simp only [List.length_cons, List.length_append] at passes
      omega
  refine ⟨form', front ++ '(' :: (form ++ between), ⟨?_, isForm', ?_, isName, stops⟩, ?_⟩
  · simp only [List.append_assoc, List.cons_append]
  · exact LeadsToName.join leads' isForm leads same inside (stops_of_isName isName' rest')
      (stops_of_isName isName rest)
  · simp only [List.append_assoc, List.cons_append]

theorem attempt_of_isHead (isHead : IsHead text form between name rest) (plain : name.head? ≠ some '^')
    (last : Option Char) :
    definitionNames.attempt last text =
      some (⟨('(' :: (form ++ between)).length, ('(' :: (form ++ (between ++ name))).length⟩,
        ('(' :: (form ++ (between ++ name))).length) := by
  have upToName : text.length - (name ++ rest).length = ('(' :: (form ++ between)).length := by
    rw [isHead.text_eq]
    simp only [List.length_cons, List.length_append]
    omega
  have upToRest : text.length - rest.length = ('(' :: (form ++ (between ++ name))).length := by
    rw [isHead.text_eq]
    simp only [List.length_cons, List.length_append]
    omega
  rw [definitionNames.attempt, definitionHead?_of_isHead isHead plain, Option.map_some, upToName,
    upToRest]

/-- A text behind which colouring expects a name: it ends with a bracket, a form and what leads on. -/
def Introduces (text : Text) : Prop :=
  ∃ front form between, text = front ++ '(' :: (form ++ between) ∧ IsForm isFormChar form ∧
    LeadsToName between

theorem Introduces.exists_last_blank {lead : Text} (introduces : Introduces lead) :
    ∃ front c, lead = front ++ [c] ∧ Text.isAsciiBlank c = true := by
  obtain ⟨front, form, between, rfl, -, leads⟩ := introduces
  obtain ⟨last, c, rfl, blank⟩ := leads.exists_last_blank
  exact ⟨front ++ '(' :: (form ++ last), c, by simp, blank⟩

/-- **Colouring finds every name that is introduced**, also one that an earlier find goes beyond. -/
theorem mem_definitionNames {lead : Text} (introduces : Introduces lead)
    (isName : IsRun (fun c => !canFollow c) name) (stops : Stops (fun c => !canFollow c) rest)
    (plain : name.head? ≠ some '^') :
    (⟨lead.length, (lead ++ name).length⟩ : Extent) ∈ definitionNames (lead ++ (name ++ rest)) := by
  obtain ⟨front, form, between, rfl, isForm, leads⟩ := introduces
  have isHead : IsHead ('(' :: (form ++ (between ++ (name ++ rest)))) form between name rest :=
    ⟨rfl, isForm, leads, isName, stops⟩
  have division : front ++ '(' :: (form ++ between) ++ (name ++ rest) =
      front ++ '(' :: (form ++ (between ++ (name ++ rest))) := by
    simp only [List.append_assoc, List.cons_append]
  rw [division]
  rcases mem_search_or_overtaken front (List.cons_ne_nil _ _) (attempt_of_isHead isHead plain _) with
    here | ⟨early, late, other, beyond, rfl, some, overtakes, passes, found⟩
  · refine List.mem_map.mpr ⟨_, here, ?_⟩
    simp only [List.length_append, List.length_cons]
    congr 1
    omega
  · obtain ⟨head, readHead, same⟩ := Option.map_eq_some_iff.mp overtakes
    obtain ⟨rfl, rfl⟩ := Prod.mk.inj same
    obtain ⟨form', between', isOuter, lead⟩ := exists_outer isHead some readHead passes
    have attempted := (attempt_of_isHead isOuter plain _).symm.trans overtakes
    obtain ⟨extent, -⟩ := Prod.mk.inj (Option.some.inj attempted)
    refine List.mem_map.mpr ⟨_, found, ?_⟩
    have sizes := congrArg List.length lead
    rw [← extent]
    simp only [List.length_append, List.length_cons] at sizes ⊢
    congr 1 <;> omega

/-- **What colouring finds is a name that is introduced.** -/
theorem exists_of_mem_definitionNames {line : Text} {extent : Extent}
    (member : extent ∈ definitionNames line) :
    ∃ lead name rest, line = lead ++ (name ++ rest) ∧ extent = ⟨lead.length, (lead ++ name).length⟩ ∧
      Introduces lead ∧ IsRun (fun c => !canFollow c) name ∧ Stops (fun c => !canFollow c) rest := by
  obtain ⟨⟨place, found⟩, searched, rfl⟩ := List.mem_map.mp member
  obtain ⟨front, target, taken, rfl, rfl, reads⟩ := exists_of_mem_search searched
  obtain ⟨head, readHead, same⟩ := Option.map_eq_some_iff.mp reads
  obtain ⟨rfl, -⟩ := Prod.mk.inj same
  obtain ⟨form, between, name, rest, ⟨rfl, isForm, leads, isName, stops⟩, rfl⟩ := exists_isHead readHead
  refine ⟨front ++ '(' :: (form ++ between), name, rest, ?_, ?_, ⟨front, form, between, rfl, isForm,
    leads⟩, isName, stops⟩
  · simp only [List.append_assoc, List.cons_append]
  · simp only [List.length_append, List.length_cons]
    congr 1 <;> omega

end ColourRule

end LispEditor
