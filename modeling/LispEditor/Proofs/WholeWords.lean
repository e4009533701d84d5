import Mathlib.Data.List.Sort
import LispEditor.Proofs.BlankSplice
import LispEditor.Proofs.DefinitionHead

/-!
# Whole words

The words of the language are coloured where they stand alone. Many of them begin with others, and the
search for them tries them one after the other, but the order does not matter: no character of a word
separates tokens. So at one place at most one word can stand alone, no word that stands alone begins
inside another one, and the search, which goes on behind what it has found, misses none.

* `mem_words`, `eq_dropWhile_of_mem_words`: what can be read at a place, and that there is one way only.
* `mem_tokens_words`: the search finds all words that stand alone.
* `isWholeWord_iff`: what standing alone means for an extent of the line.
* `tokens_words_exact`: the extents found are the whole words, in whichever order they are tried.
-/

namespace LispEditor

/-- An extent that ends before another one begins. -/
def Extent.Before (a b : Extent) : Prop :=
  a.start < b.start ∧ a.stop ≤ b.start

instance : Std.Irrefl Extent.Before := ⟨fun _ before => Nat.lt_irrefl _ before.1⟩

instance : Std.Antisymm Extent.Before :=
  ⟨fun _ _ before behind => absurd before.1 (Nat.lt_asymm behind.1)⟩

namespace ColourRule

open Definition (IsRun)

/-! ### Characters around a word -/

/-- The ASCII blanks. -/
def blankChars : List Char :=
  ['\t', '\n', '\x0b', '\x0c', '\r', ' ']

/-- The brackets. -/
def bracketChars : List Char :=
  ['(', '[', '{', ')', ']', '}']

/-- What can stand before a word: a blank, a bracket, a comma or a mark. -/
def charsBefore : List Char :=
  blankChars ++ bracketChars ++ [',', '\x27', '\x60', '~', '@', '^', '#']

/-- What can stand behind a word: a blank, a bracket, a comma, a double quote or a semicolon. -/
def charsBehind : List Char :=
  blankChars ++ bracketChars ++ [',', '"', ';']

theorem isAsciiBlank_iff {c : Char} : Text.isAsciiBlank c = true ↔ c ∈ blankChars := by
  constructor
  · exact mem_of_isAsciiBlank
  · intro member
    simp only [blankChars, List.mem_cons, List.not_mem_nil, or_false] at member
    rcases member with rfl | rfl | rfl | rfl | rfl | rfl <;> rfl

theorem isDivider_iff {c : Char} : isDivider c = true ↔ c ∈ blankChars ++ bracketChars ++ [','] := by
  simp only [isDivider, isBracket, isOpener, isCloser, bracketChars, Bool.or_eq_true, isAsciiBlank_iff,
    decide_eq_true_eq, beq_iff_eq, List.mem_append, List.mem_cons, List.not_mem_nil, or_false, or_assoc]

theorem canPrecede_iff {c : Char} : canPrecede c = true ↔ c ∈ charsBefore := by
  simp only [canPrecede, charsBefore, Bool.or_eq_true, isDivider_iff, decide_eq_true_eq,
    List.mem_append, List.mem_cons, List.not_mem_nil, or_false, or_assoc]

theorem canFollow_iff {c : Char} : canFollow c = true ↔ c ∈ charsBehind := by
  simp only [canFollow, charsBehind, Bool.or_eq_true, isDivider_iff, beq_iff_eq,
    List.mem_append, List.mem_cons, List.not_mem_nil, or_false, or_assoc]

/-! ### What can be read -/

variable {vocabulary : List String} {text rest front word back line : Text}

theorem mem_words :
    rest ∈ words vocabulary text ↔
      ∃ word, String.ofList word ∈ vocabulary ∧ text = word ++ rest ∧ endsToken rest = true := by
  simp only [words, Pattern.mem_andThen, Pattern.mem_anyWord, Pattern.mem_ahead, List.mem_map]
  constructor
  · rintro ⟨between, ⟨_, ⟨name, member, rfl⟩, split⟩, ends, rfl⟩
    refine ⟨name.toList, ?_, split, ends⟩
    rwa [String.ofList_toList]
  · rintro ⟨word, member, split, ends⟩
    exact ⟨rest, ⟨word, ⟨_, member, String.toList_ofList⟩, split⟩, ends, rfl⟩

/-- Words of which no character separates tokens. -/
def Undivided (vocabulary : List String) : Prop :=
  ∀ word, String.ofList word ∈ vocabulary → IsRun (fun c => !canPrecede c && !canFollow c) word

/-- A word that is read goes up to the next character that ends a token. -/
theorem eq_dropWhile_of_mem_words (undivided : Undivided vocabulary)
    (member : rest ∈ words vocabulary text) : rest = text.dropWhile fun c => !canFollow c := by
  obtain ⟨word, isWord, rfl, ends⟩ := mem_words.mp member
  symm
  apply dropWhile_append_eq
  · intro c inWord
    have plain := (undivided word isWord).all c inWord
    exact (Bool.and_eq_true_iff.mp plain).2
  · intro c first
    rw [endsToken, first] at ends
    simpa using ends

/-- So the first way to read a word is the only one. -/
theorem head?_words_eq_some (undivided : Undivided vocabulary) :
    (words vocabulary text).head? = some rest ↔ rest ∈ words vocabulary text := by
  constructor
  · exact List.mem_of_mem_head?
  · intro member
    obtain ⟨first, others, ways⟩ := List.exists_cons_of_ne_nil (List.ne_nil_of_mem member)
    have isFirst : first ∈ words vocabulary text := by
      rw [ways]
      exact List.mem_cons_self
    rw [eq_dropWhile_of_mem_words undivided member, ← eq_dropWhile_of_mem_words undivided isFirst, ways]
    rfl

/-- A word between two pieces of a line that stands alone there. -/
structure StandsAlone (vocabulary : List String) (front word back : Text) : Prop where
  isWord : String.ofList word ∈ vocabulary
  begins : front.getLast?.all canPrecede = true
  ends : endsToken back = true

theorem attempt_eq_some (undivided : Undivided vocabulary) {found taken : Nat} :
    tokens.attempt (words vocabulary) front.getLast? text = some (found, taken) ↔
      ∃ word back, StandsAlone vocabulary front word back ∧ text = word ++ back ∧
        found = word.length ∧ taken = word.length := by
  constructor
  · intro reads
    rw [tokens.attempt] at reads
    split at reads
    · next begins =>
        obtain ⟨back, first, same⟩ := Option.map_eq_some_iff.mp reads
        obtain ⟨rfl, rfl⟩ := Prod.mk.inj same
        obtain ⟨word, isWord, rfl, ends⟩ := mem_words.mp ((head?_words_eq_some undivided).mp first)
        refine ⟨word, back, ⟨isWord, begins, ends⟩, rfl, ?_, ?_⟩ <;> simp
    · cases reads
  · rintro ⟨word, back, ⟨isWord, begins, ends⟩, rfl, rfl, rfl⟩
    have first := (head?_words_eq_some undivided).mpr (mem_words.mpr ⟨word, isWord, rfl, ends⟩)
    rw [tokens.attempt, if_pos begins, first]
    simp

/-! ### What the search finds -/

/-- A word that stands alone does not begin inside another word. -/
theorem length_le_of_begins (undivided : Undivided vocabulary) {late target other after : Text}
    (nonempty : late ≠ []) (begins : late.getLast?.all canPrecede = true)
    (isWord : String.ofList other ∈ vocabulary) (division : late ++ target = other ++ after) :
    other.length ≤ late.length := by
  by_contra longer
  obtain ⟨init, c, rfl⟩ := List.eq_nil_or_concat late |>.resolve_left nonempty
  rw [List.concat_eq_append] at *
  -- The last character before the inner word would be part of the outer one.
  have inside : init ++ [c] <+: other := by
    refine List.prefix_of_prefix_length_le ⟨target, division⟩ (List.prefix_append other after) ?_
    exact (Nat.lt_of_not_le longer).le
  have plain := (undivided other isWord).all c (inside.subset (by simp))
  have precedes : canPrecede c = true := by simpa using begins
  rw [precedes] at plain
  cases plain

/-- **The search finds exactly the words that stand alone.** -/
theorem mem_tokens_words (undivided : Undivided vocabulary) {extent : Extent} :
    extent ∈ tokens (words vocabulary) line ↔
      ∃ front word back, StandsAlone vocabulary front word back ∧ line = front ++ (word ++ back) ∧
        extent = ⟨front.length, (front ++ word).length⟩ := by
  constructor
  · intro member
    obtain ⟨⟨place, found⟩, searched, rfl⟩ := List.mem_map.mp member
    obtain ⟨front, target, taken, rfl, rfl, reads⟩ := exists_of_mem_search searched
    obtain ⟨word, back, alone, rfl, rfl, -⟩ := (attempt_eq_some undivided).mp reads
    exact ⟨front, word, back, alone, rfl, by rw [List.length_append]⟩
  · rintro ⟨front, word, back, alone, rfl, rfl⟩
    have reads := (attempt_eq_some undivided).mpr ⟨word, back, alone, rfl, rfl, rfl⟩
    have nonempty : word ++ back ≠ [] :=
      List.append_ne_nil_of_left_ne_nil (undivided word alone.isWord).nonempty back
    rcases mem_search_or_overtaken front nonempty reads with
      here | ⟨early, late, other, beyond, rfl, some, overtakes, passes, -⟩
    · refine List.mem_map.mpr ⟨_, here, ?_⟩
      rw [List.length_append]
    · obtain ⟨outer, after, outerAlone, division, -, rfl⟩ := (attempt_eq_some undivided).mp overtakes
      have begins := alone.begins
      rw [List.getLast?_append_of_ne_nil early some] at begins
      have short := length_le_of_begins undivided some begins outerAlone.isWord division
      omega

/-- Tokens are found from left to right and do not overlap. -/
theorem pairwise_tokens (pattern : Pattern) (line : Text) :
    (tokens pattern line).Pairwise Extent.Before := by
  have sizes : ∀ last text found taken, tokens.attempt pattern last text = some (found, taken) →
      taken = id found := by
    intro last text found taken reads
    rw [tokens.attempt] at reads
    split at reads
    · obtain ⟨after, -, same⟩ := Option.map_eq_some_iff.mp reads
      obtain ⟨rfl, rfl⟩ := Prod.mk.inj same
      rfl
    · cases reads
  exact List.pairwise_map.mpr (pairwise_search sizes line)

/-! ### Whole words of a line -/

/-- An extent of a line that holds a word of a vocabulary, at the start of the line or behind a character
that can stand before a word, and at the end of the line or before one that can stand behind a word. -/
structure IsWholeWord (vocabulary : List String) (text : Text) (extent : Extent) : Prop where
  isWord : String.ofList (Text.slice text extent.start extent.stop) ∈ vocabulary
  begins : extent.start = 0 ∨ ∃ c ∈ text[extent.start - 1]?, c ∈ charsBefore
  ends : extent.stop = text.length ∨ ∃ c ∈ text[extent.stop]?, c ∈ charsBehind

theorem begins_iff (front back : Text) :
    front.getLast?.all canPrecede = true ↔
      front.length = 0 ∨ ∃ c ∈ (front ++ back)[front.length - 1]?, c ∈ charsBefore := by
  rcases List.eq_nil_or_concat front with rfl | ⟨init, c, rfl⟩
  · simp
  · rw [List.concat_eq_append, List.getLast?_concat]
    simp [canPrecede_iff]

theorem endsToken_iff (front back : Text) :
    endsToken back = true ↔
      front.length = (front ++ back).length ∨
        ∃ c ∈ (front ++ back)[front.length]?, c ∈ charsBehind := by
  cases back with
  | nil => simp [endsToken]
  | cons c rest => simp [endsToken, canFollow_iff]

/-- **What standing alone means for an extent.** -/
theorem isWholeWord_iff (undivided : Undivided vocabulary) {extent : Extent} :
    IsWholeWord vocabulary line extent ↔
      ∃ front word back, StandsAlone vocabulary front word back ∧ line = front ++ (word ++ back) ∧
        extent = ⟨front.length, (front ++ word).length⟩ := by
  constructor
  · rintro ⟨isWord, begins, ends⟩
    obtain ⟨start, stop⟩ := extent
    -- An extent that leaves the line or goes backwards would hold the empty word.
    have inside : stop ≤ line.length := by
      rcases ends with atEnd | ⟨c, here, -⟩
      · exact atEnd.le
      · exact (List.getElem?_eq_some_iff.mp here).1.le
    have order : start ≤ stop := by
      by_contra backwards
      refine (undivided _ isWord).nonempty (List.drop_eq_nil_of_le ?_)
      show (line.take (Text.resolve line.length stop)).length ≤ Text.resolve line.length start
      rw [Text.resolve_natCast_of_le inside, List.length_take, Text.resolve, Text.clamp]
      split <;> omega
    obtain ⟨front, word, back, rfl, rfl, rfl⟩ := Text.exists_append_append order inside
    refine ⟨front, word, back, ⟨?_, ?_, ?_⟩, List.append_assoc _ _ _, rfl⟩
    · rwa [Text.slice_append] at isWord
    · rw [List.append_assoc] at begins
      exact (begins_iff front (word ++ back)).mpr begins
    · exact (endsToken_iff (front ++ word) back).mpr ends
  · rintro ⟨front, word, back, alone, rfl, rfl⟩
    refine ⟨?_, ?_, ?_⟩
    · rw [← List.append_assoc, Text.slice_append]
      exact alone.isWord
    · exact (begins_iff front (word ++ back)).mp alone.begins
    · have ends := (endsToken_iff (front ++ word) back).mp alone.ends
      rwa [List.append_assoc] at ends

theorem mem_tokens_iff (undivided : Undivided vocabulary) {extent : Extent} :
    extent ∈ tokens (words vocabulary) line ↔ IsWholeWord vocabulary line extent :=
  (mem_tokens_words undivided).trans (isWholeWord_iff undivided).symm

/-- The characters of the words of the language: small letters and signs. -/
def wordRanges : List Text.CharRange :=
  [(0x21, 0x21), (0x2A, 0x2B), (0x2D, 0x2D), (0x2F, 0x2F), (0x3C, 0x3F), (0x61, 0x7A)]

/-- None of them separates tokens. -/
theorem separates_nothing {c : Char} (isPart : Text.inRanges wordRanges c = true) :
    (!canPrecede c && !canFollow c) = true := by
  have apart : ((charsBefore ++ charsBehind).all fun d => !Text.inRanges wordRanges d) = true := by
    decide
  have around : ∀ d ∈ charsBefore ++ charsBehind, Text.inRanges wordRanges d = false := by
    intro d member
    rw [← Bool.not_eq_true']
    exact List.all_eq_true.mp apart d member
  have notBefore : canPrecede c = false := by
    rw [Bool.eq_false_iff, Ne, canPrecede_iff]
    intro member
    cases isPart.symm.trans (around c (List.mem_append_left _ member))
  have notBehind : canFollow c = false := by
    rw [Bool.eq_false_iff, Ne, canFollow_iff]
    intro member
    cases isPart.symm.trans (around c (List.mem_append_right _ member))
  rw [notBefore, notBehind]
  rfl

/-- No word of the language holds a character that separates tokens. -/
theorem undivided_of_mem
    (among : vocabulary ∈ [Vocabulary.builtins, Vocabulary.specialForms, Vocabulary.constants]) :
    Undivided vocabulary := by
  have checked : ([Vocabulary.builtins, Vocabulary.specialForms, Vocabulary.constants].all
      fun vocabulary => (vocabulary.map String.toList).all fun word =>
        !word.isEmpty && word.all (Text.inRanges wordRanges)) = true := by
    decide +kernel
  intro word isWord
  have member : word ∈ vocabulary.map String.toList :=
    List.mem_map.mpr ⟨_, isWord, String.toList_ofList⟩
  have whole := List.all_eq_true.mp (List.all_eq_true.mp checked vocabulary among) word member
  rw [Bool.and_eq_true_iff, List.all_eq_true] at whole
  constructor
  · rintro rfl
    cases whole.1
  · intro c inWord
    exact separates_nothing (whole.2 c inWord)

/-- **The words of the language are found exactly where they stand alone**, in whichever order they are
tried. -/
theorem tokens_words_exact
    (among : vocabulary ∈ [Vocabulary.builtins, Vocabulary.specialForms, Vocabulary.constants])
    {order : List String} (reordered : order.Perm vocabulary) (line : Text) :
    (∀ extent, extent ∈ tokens (words order) line ↔ IsWholeWord vocabulary line extent) ∧
      (tokens (words order) line).Pairwise Extent.Before ∧
      tokens (words order) line = tokens (words vocabulary) line := by
  have undivided := undivided_of_mem among
  have reorderedUndivided : Undivided order :=
    fun word isWord => undivided word (reordered.mem_iff.mp isWord)
  have found (extent : Extent) :
      extent ∈ tokens (words order) line ↔ IsWholeWord vocabulary line extent := by
    rw [mem_tokens_iff reorderedUndivided]
    constructor
    · rintro ⟨isWord, begins, ends⟩
      exact ⟨reordered.mem_iff.mp isWord, begins, ends⟩
    · rintro ⟨isWord, begins, ends⟩
      exact ⟨reordered.mem_iff.mpr isWord, begins, ends⟩
  refine ⟨found, pairwise_tokens _ line, ?_⟩
  apply (pairwise_tokens _ line).eq_of_mem_iff (pairwise_tokens _ line)
  intro extent
  rw [found, mem_tokens_iff undivided]

/-- Words that begin with shorter ones are found, though the shorter ones are tried first. A word at the
beginning of a longer token is not. -/
theorem tokens_words_exact_shorter_first :
    Vocabulary.specialForms ∈ [Vocabulary.builtins, Vocabulary.specialForms, Vocabulary.constants] ∧
      (Vocabulary.specialForms.mergeSort fun a b => a.length ≤ b.length).Perm
        Vocabulary.specialForms ∧
      tokens (words (Vocabulary.specialForms.mergeSort fun a b => a.length ≤ b.length))
        "(defn- a 'if-let [if-letx])".toList = [⟨1, 6⟩, ⟨10, 16⟩] := by
  have among : Vocabulary.specialForms ∈
      [Vocabulary.builtins, Vocabulary.specialForms, Vocabulary.constants] := by simp
  have reordered := List.mergeSort_perm Vocabulary.specialForms fun a b => a.length ≤ b.length
  refine ⟨among, reordered, ?_⟩
  rw [(tokens_words_exact among reordered _).2.2]
  decide +kernel

end ColourRule

end LispEditor
