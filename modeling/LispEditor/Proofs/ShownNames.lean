import LispEditor.Proofs.ColouredText
import LispEditor.Proofs.DefinitionHead

/-!
# How the names of definitions are shown

The menu of definitions and the colouring of lines look for definitions on their own. A name of the
menu that is code is shown as a name, and nothing next to it, exactly if it is introduced as colouring
knows it and ends where a token ends. Colouring does not know maps of metadata with blanks in them, so
it does not always agree with the menu.

* `showsName_iff`: which characters are shown as part of a name.
* `showsExactly_iff`: which names of the menu are shown.
* `introduces_of_match`: metadata without blanks in its maps introduces a name for both.
* `showsExactly_of_match`: what both read alike is shown.
-/

namespace LispEditor

namespace ColouredLine

open ColourRule Definition

/-- The style of the names of definitions. -/
def nameStyle (palette : Palette) : Style :=
  ⟨palette.definition, false, false, true⟩

/-- Whether a character of a line that begins outside strings is shown as part of a name. -/
def ShowsName (palette : Palette) (line : Text) (offset : Nat) : Prop :=
  ∃ c, (ofLine palette false line).cells[offset]? = some (c, some (nameStyle palette))

/-- Whether `[start, stop)` is shown as a name, and what stands next to it is not. -/
structure ShowsExactly (palette : Palette) (line : Text) (start stop : Nat) : Prop where
  inside : ∀ offset, start ≤ offset → offset < stop → ShowsName palette line offset
  before : ∀ offset, offset + 1 = start → ¬ ShowsName palette line offset
  behind : ¬ ShowsName palette line stop

/-! ### Which characters are shown as names -/

/-- No style of some cells underlines. -/
def NoUnderline (styles : List (Option Style)) : Prop :=
  ∀ style, some style ∈ styles → style.underline = false

theorem NoUnderline.paint {style : Style} {styles : List (Option Style)} (none : NoUnderline styles)
    (flat : style.underline = false) (extents : List Extent) :
    NoUnderline (paint style extents styles) := by
  intro found member
  obtain ⟨offset, inside, same⟩ := List.mem_mapIdx.mp member
  split at same
  · rw [← Option.some.inj same]
    exact flat
  · exact none found (same ▸ List.getElem_mem inside)

/-- Rules that do not underline leave no underline. -/
theorem NoUnderline.foldl {palette : Palette} {rules : List ColourRule}
    (flat : ∀ rule ∈ rules, (rule.style palette).underline = false) {styles : List (Option Style)}
    (none : NoUnderline styles) (line : Text) :
    NoUnderline (rules.foldl
      (fun styles rule => ColouredLine.paint (rule.style palette) (rule.extents line) styles) styles) := by
  induction rules generalizing styles with
  | nil => exact none
  | cons rule rest ih =>
      have ⟨here, there⟩ := List.forall_mem_cons.mp flat
      exact ih there (none.paint here (rule.extents line))

/-- The last rule has the last word, and it alone underlines. -/
theorem getElem?_ruleStyles (palette : Palette) {line : Text} {offset : Nat}
    (inside : offset < line.length) :
    (ruleStyles palette line)[offset]? = some (some (nameStyle palette)) ↔
      ∃ extent ∈ definitionNames line, extent.start ≤ offset ∧ offset < extent.stop := by
  have divided : ColourRule.all = ColourRule.all.dropLast ++ [⟨definitionNames, nameStyle⟩] := rfl
  have flat : ∀ rule ∈ ColourRule.all.dropLast, (rule.style palette).underline = false := by
    simp [ColourRule.all, Style.plain]
  have unstyled : NoUnderline (line.map fun _ => none) := by
    intro style member
    simp at member
  have earlier := unstyled.foldl flat line
  have size : offset < (ruleStyles palette line).length := by rwa [length_ruleStyles]
  have covered : (definitionNames line).any (covers · offset) = true ↔
      ∃ extent ∈ definitionNames line, extent.start ≤ offset ∧ offset < extent.stop := by
    simp [covers]
  rw [ruleStyles, divided, List.foldl_append] at size ⊢
  generalize ColourRule.all.dropLast.foldl _ _ = styles at earlier size ⊢
  simp only [List.foldl_cons, List.foldl_nil, paint, List.length_mapIdx] at size ⊢
  rw [← covered, List.getElem?_mapIdx, List.getElem?_eq_getElem size, Option.map_some]
  by_cases named : (definitionNames line).any (covers · offset) = true
  · simp [named]
  · rw [if_neg named, Option.some.injEq]
    refine iff_of_false (fun same => ?_) named
    cases earlier (nameStyle palette) (same ▸ List.getElem_mem size)

/-- Only code keeps the style of a name. -/
theorem orElse_kindStyle? (palette : Palette) (kind : Kind) (style : Option Style) :
    ((kindStyle? palette kind).orElse fun _ => style) = some (nameStyle palette) ↔
      kind = .code ∧ style = some (nameStyle palette) := by
  cases kind <;> simp [kindStyle?, nameStyle, Style.plain]

/-- **A character is shown as part of a name** if it is code and colouring finds a name there. -/
theorem showsName_iff (palette : Palette) (line : Text) (offset : Nat) :
    ShowsName palette line offset ↔
      (Snapshot.ofText line).kinds[offset]? = some .code ∧
        ∃ extent ∈ definitionNames line, extent.start ≤ offset ∧ offset < extent.stop := by
  have size : (Snapshot.ofText line).cells.length = line.length := Snapshot.size_scan line false
  by_cases inside : offset < line.length
  · have here : offset < (Snapshot.ofText line).cells.length := by rwa [size]
    have styled : offset < (ruleStyles palette line).length := by rwa [length_ruleStyles]
    rw [← getElem?_ruleStyles palette inside, ShowsName, Snapshot.kinds, List.getElem?_map,
      List.getElem?_eq_getElem here, List.getElem?_eq_getElem styled]
    have cell : (ofLine palette false line).cells[offset]? =
        some ((Snapshot.ofText line).cells[offset].char,
          (kindStyle? palette (Snapshot.ofText line).cells[offset].kind).orElse
            fun _ => (ruleStyles palette line)[offset]) := by
      show (List.zipWith _ (Snapshot.ofText line).cells (ruleStyles palette line))[offset]? = _
      rw [List.getElem?_zipWith, List.getElem?_eq_getElem here, List.getElem?_eq_getElem styled]
    simp only [cell, Option.map_some, Option.some.injEq, Prod.mk.injEq, orElse_kindStyle?,
      exists_eq_left']
  · have outside : ¬ offset < (Snapshot.ofText line).cells.length := by rwa [size]
    have noCell : (ofLine palette false line).cells[offset]? = none := by
      show (List.zipWith _ (Snapshot.ofText line).cells (ruleStyles palette line))[offset]? = _
      rw [List.getElem?_zipWith, List.getElem?_eq_none (Nat.le_of_not_lt outside)]
    constructor
    · rintro ⟨_, shown⟩
      cases noCell.symm.trans shown
    · rintro ⟨code, -⟩
      rw [Snapshot.kinds, List.getElem?_map, List.getElem?_eq_none (Nat.le_of_not_lt outside)] at code
      cases code

/-- What is shown as a name holds no character before which a token can end. -/
theorem ShowsName.not_canFollow {palette : Palette} {front rest : Text} {c : Char}
    (shown : ShowsName palette (front ++ c :: rest) front.length) : canFollow c = false := by
  obtain ⟨-, extent, member, low, high⟩ := (showsName_iff _ _ _).mp shown
  obtain ⟨lead, name, behind, division, rfl, -, isName, -⟩ := exists_of_mem_definitionNames member
  simp only [List.length_append] at low high
  rcases in_or_behind division.symm with ⟨_, rfl, -⟩ | ⟨more, rfl, inName⟩
  · simp only [List.length_append, List.length_cons] at low
    omega
  · rcases in_or_behind inName with ⟨_, rfl, -⟩ | ⟨_, rfl, -⟩
    · simpa using isName.all c (by simp)
    · simp only [List.length_append] at high
      omega

/-! ### Names of the menu -/

/-- The name of a definition is code. -/
def NameInCode (line : Text) (d : Definition) : Prop :=
  ∀ offset, d.position ≤ offset → offset < d.position + d.name.length →
    (Snapshot.ofText line).kinds[offset]? = some .code

/-- The character before the name of a definition is code, unless it is an ASCII blank. -/
def PrecededByCode (text : Text) (d : Definition) : Prop :=
  ∀ offset, offset + 1 = d.position →
    (Snapshot.ofText text).kinds[offset]? = some .code ∨ text[offset]?.any Text.isAsciiBlank = true

/-- Behind code, a character that begins nothing else is code too. -/
theorem kinds_behind_code {front rest : Text} {c d : Char}
    (code : (Snapshot.ofText (front ++ c :: d :: rest)).kinds[front.length]? = some .code)
    (plain : d ≠ ';' ∧ d ≠ '"' ∧ d ≠ '\\') :
    (Snapshot.ofText (front ++ c :: d :: rest)).kinds[front.length + 1]? = some .code := by
  rw [Snapshot.kinds_ofText_append, Option.some.injEq] at code
  have stays : Mode.code.after (front ++ [c]) = .code := by
    rw [Mode.after_append, Mode.after_cons, Mode.after_nil]
    exact Mode.next_of_kindOf code
  have here := Snapshot.kinds_ofText_append (front ++ [c]) rest d
  rw [stays] at here
  simpa [Mode.kindOf, plain] using here

theorem canFollow_of_isNameChar {c : Char} (part : isNameChar c = true) : canFollow c = false := by
  simp only [isNameChar, Bool.not_eq_true', Bool.or_eq_false_iff, decide_eq_false_iff_not,
    List.mem_cons, List.not_mem_nil, or_false, not_or] at part
  obtain ⟨⟨noBlank, noBracket⟩, noQuote, -, noComma, noComment, -⟩ := part
  have noAscii : Text.isAsciiBlank c = false := by
    simp only [Text.isBlank, Text.isPadding, Bool.or_eq_false_iff] at noBlank
    exact noBlank.1.1
  simp [canFollow, isDivider, noAscii, noBracket, noQuote, noComma, noComment]

/-- A character that ends a name of the menu but no token begins no comment, string or literal. -/
theorem begins_nothing {c : Char} (outside : isNameChar c = false) (inside : canFollow c = false) :
    c ≠ ';' ∧ c ≠ '"' ∧ c ≠ '\\' := by
  refine ⟨?_, ?_, ?_⟩ <;> rintro rfl
  · cases inside
  · cases inside
  · cases outside

section Exactly

variable {palette : Palette} {line lead rest : Text} {d : Definition}

/-- An introduced name that ends as a token does is shown. -/
theorem showsExactly_of_introduces (code : NameInCode line d) (division : line = lead ++ (d.name ++ rest))
    (place : d.position = lead.length) (isName : IsRun isNameChar d.name)
    (introduces : Introduces lead) (ends : endsToken rest = true) :
    ShowsExactly palette line d.position (d.position + d.name.length) := by
  have noEnd : IsRun (fun c => !canFollow c) d.name :=
    ⟨isName.nonempty, fun c inName => by simp [canFollow_of_isNameChar (isName.all c inName)]⟩
  have stops : Stops (fun c => !canFollow c) rest := by
    intro c first
    rw [endsToken, Option.mem_def.mp first] at ends
    simpa using ends
  have plain : d.name.head? ≠ some '^' := by
    intro first
    cases isName.all '^' (List.mem_of_mem_head? first)
  have found := mem_definitionNames introduces noEnd stops plain
  rw [← division] at found
  refine ⟨fun offset low high => ?_, fun offset next shown => ?_, fun shown => ?_⟩
  · refine (showsName_iff palette line offset).mpr ⟨code offset low high, _, found, ?_, ?_⟩
    · rwa [← place]
    · rwa [List.length_append, ← place]
  · obtain ⟨front, c, rfl, blank⟩ := introduces.exists_last_blank
    have here : offset = front.length := by
      rw [List.length_append, List.length_singleton] at place
      omega
    rw [division, List.append_assoc, here] at shown
    cases shown.not_canFollow.symm.trans (canFollow_of_isAsciiBlank blank)
  · rw [division, place, ← List.length_append, ← List.append_assoc] at shown
    cases rest with
    | nil =>
        obtain ⟨code, -⟩ := (showsName_iff _ _ _).mp shown
        have size : (Snapshot.ofText (lead ++ d.name)).cells.length = (lead ++ d.name).length :=
          Snapshot.size_scan _ false
        rw [List.append_nil, Snapshot.kinds, List.getElem?_map,
          List.getElem?_eq_none (Nat.le_of_eq size)] at code
        cases code
    | cons c others => cases shown.not_canFollow.symm.trans ends

/-- A name that colouring finds at the start of a shown name begins there. -/
theorem start_eq_of_shown (preceded : PrecededByCode line d)
    (shown : ShowsExactly palette line d.position (d.position + d.name.length)) {extent : Extent}
    (found : extent ∈ definitionNames line) (low : extent.start ≤ d.position)
    (high : d.position < extent.stop) : extent.start = d.position := by
  by_contra apart
  obtain ⟨offset, next⟩ : ∃ offset, offset + 1 = d.position := ⟨d.position - 1, by omega⟩
  obtain ⟨lead, name, rest, rfl, rfl, -, isName, -⟩ := exists_of_mem_definitionNames found
  simp only [List.length_append] at low high apart
  rcases preceded offset next with isCode | blank
  · refine shown.before offset next ((showsName_iff _ _ _).mpr ⟨isCode, _, found, ?_, ?_⟩)
    · show lead.length ≤ offset
      omega
    · show offset < (lead ++ name).length
      rw [List.length_append]
      omega
  · obtain ⟨c, here, blank⟩ := (Option.any_eq_true _ _).mp blank
    have inName : c ∈ name := by
      rw [List.getElem?_append_right (by omega), List.getElem?_append_left (by omega)] at here
      exact List.mem_of_getElem? here
    have noEnd := isName.all c inName
    simp [canFollow_of_isAsciiBlank blank] at noEnd

/-- Behind a shown name a token ends. -/
theorem endsToken_of_shown (code : NameInCode line d) (division : line = lead ++ (d.name ++ rest))
    (place : d.position = lead.length) (isName : IsRun isNameChar d.name)
    (stops : Stops isNameChar rest)
    (shown : ShowsExactly palette line d.position (d.position + d.name.length)) {name' rest' : Text}
    (same : d.name ++ rest = name' ++ rest') (stops' : Stops (fun c => !canFollow c) rest')
    (isName' : IsRun (fun c => !canFollow c) name')
    (found : (⟨lead.length, (lead ++ name').length⟩ : Extent) ∈ definitionNames line) :
    endsToken rest = true := by
  cases rest with
  | nil => rfl
  | cons c others =>
      refine Bool.of_not_eq_false fun goesOn => ?_
      have inside : canFollow c = false := goesOn
      -- The character belongs to the name that colouring found, and it is code.
      have longer : d.name.length < name'.length := by
        have whole : name' = (d.name ++ c :: others).takeWhile (fun c => !canFollow c) := by
          rw [same, takeWhile_append_eq isName'.all stops']
        have part : ∀ c ∈ d.name, (!canFollow c) = true := fun c inName => by
          simp [canFollow_of_isNameChar (isName.all c inName)]
        rw [whole, List.takeWhile_append_of_pos part, List.takeWhile_cons_of_pos (by simp [inside])]
        simp
      obtain ⟨init, last, split⟩ : ∃ init last, d.name = init ++ [last] := by
        rcases List.eq_nil_or_concat d.name with empty | ⟨init, last, split⟩
        · exact absurd empty isName.nonempty
        · exact ⟨init, last, split.trans List.concat_eq_append⟩
      have ends : d.position + d.name.length = (lead ++ init).length + 1 := by
        rw [place, split, List.length_append, List.length_append, List.length_singleton]
        omega
      have text : line = lead ++ init ++ last :: c :: others := by
        rw [division, split]
        simp
      have lastCode := code (lead ++ init).length (by rw [place]; simp) (by omega)
      rw [text] at lastCode
      have isCode := kinds_behind_code lastCode (begins_nothing (stops c rfl) inside)
      rw [← text, ← ends] at isCode
      refine shown.behind ((showsName_iff _ _ _).mpr ⟨isCode, _, found, ?_, ?_⟩)
      · show lead.length ≤ _
        omega
      · show _ < (lead ++ name').length
        rw [List.length_append]
        omega

/-- **A name of the menu is shown exactly** if it is introduced and ends as a token does. -/
theorem showsExactly_iff (palette : Palette) (member : d ∈ Definition.ofText line)
    (code : NameInCode line d) (preceded : PrecededByCode line d) :
    ShowsExactly palette line d.position (d.position + d.name.length) ↔
      Introduces (line.take d.position) ∧
        endsToken (line.drop (d.position + d.name.length)) = true := by
  obtain ⟨lead, rest, division, place, isName, stops⟩ := exists_name_of_mem_ofText member
  have front : line.take d.position = lead := by
    rw [division, place, List.take_left]
  have back : line.drop (d.position + d.name.length) = rest := by
    rw [division, place, ← List.length_append, ← List.append_assoc, List.drop_left]
  rw [front, back]
  constructor
  · intro shown
    have size : 0 < d.name.length := List.length_pos_iff.mpr isName.nonempty
    obtain ⟨-, extent, found, low, high⟩ :=
      (showsName_iff _ _ _).mp (shown.inside d.position (Nat.le_refl _) (by omega))
    have starts := start_eq_of_shown preceded shown found low high
    obtain ⟨lead', name', rest', division', rfl, introduces, isName', stops'⟩ :=
      exists_of_mem_definitionNames found
    obtain ⟨rfl, same⟩ := List.append_inj (division.symm.trans division') (place.symm.trans starts.symm)
    exact ⟨introduces,
      endsToken_of_shown code division place isName stops shown same stops' isName' found⟩
  · rintro ⟨introduces, ends⟩
    exact showsExactly_of_introduces code division place isName introduces ends

end Exactly

/-! ### What introduces a name for both -/

/-- Whether a character is in ASCII and no information separator; those are blanks for the menu only. -/
def isPlainAscii (c : Char) : Bool :=
  decide (c.toNat < 0x80) && !Text.inRanges [(0x1C, 0x1F)] c

/-- No blank of a text stands between braces. -/
def BlanksOutsideBraces (text : Text) : Prop :=
  ∀ offset < text.length, text[offset]?.any Text.isAsciiBlank = true →
    (text.take offset).count '{' = (text.take offset).count '}'

instance (text : Text) : Decidable (BlanksOutsideBraces text) :=
  inferInstanceAs (Decidable (∀ offset < text.length, _ → _))

theorem BlanksOutsideBraces.count_eq {front back : Text} {c : Char}
    (outside : BlanksOutsideBraces (front ++ c :: back)) (blank : Text.isAsciiBlank c = true) :
    front.count '{' = front.count '}' := by
  have counts := outside front.length (by simp) (by simp [blank])
  rwa [List.take_left] at counts

theorem BlanksOutsideBraces.left {front back : Text} (outside : BlanksOutsideBraces (front ++ back)) :
    BlanksOutsideBraces front := by
  intro offset inside blank
  have counts := outside offset (by rw [List.length_append]; omega)
    (by rwa [List.getElem?_append_left inside])
  rwa [List.take_append_of_le_length (Nat.le_of_lt inside)] at counts

theorem isAsciiBlank_of_isBlank {c : Char} (plain : isPlainAscii c = true) (blank : Text.isBlank c = true) :
    Text.isAsciiBlank c = true := by
  simp only [isPlainAscii, Bool.and_eq_true, decide_eq_true_eq, Bool.not_eq_true'] at plain
  obtain ⟨ascii, noSeparator⟩ := plain
  have narrow : Text.inRanges Text.wideBlankRanges c = false := by
    have wide : ∀ range ∈ Text.wideBlankRanges, 0x80 ≤ range.1 := by decide
    refine List.any_eq_false.mpr fun range member => ?_
    have first := wide range member
    simp only [decide_eq_true_eq, not_and]
    omega
  simpa [Text.isBlank, Text.isPadding, narrow, noSeparator] using blank

/-- In ASCII both know the same letters and digits. -/
theorem isAlphanum_of_ascii {c : Char} (plain : isPlainAscii c = true)
    (known : Text.isAlphanumeric c = true) : c.isAlphanum = true := by
  have ascii : c.toNat < 0x80 := by
    simp only [isPlainAscii, Bool.and_eq_true, decide_eq_true_eq] at plain
    exact plain.1
  have wide : ∀ range ∈ Text.alphanumericRanges.drop 3, 0x80 ≤ range.1 := by decide +kernel
  obtain ⟨range, member, bounds⟩ := List.any_eq_true.mp known
  simp only [decide_eq_true_eq] at bounds
  rw [← List.take_append_drop 3 Text.alphanumericRanges, List.mem_append] at member
  rcases member with narrow | beyond
  · have ranges : Text.alphanumericRanges.take 3 = [(0x30, 0x39), (0x41, 0x5A), (0x61, 0x7A)] := rfl
    rw [ranges] at narrow
    have cases : range = (0x30, 0x39) ∨ range = (0x41, 0x5A) ∨ range = (0x61, 0x7A) := by
      simpa using narrow
    rcases cases with rfl | rfl | rfl
    · have digit : c.isDigit = true := Char.isDigit_iff_toNat.mpr bounds
      exact Bool.or_eq_true_iff.mpr (.inr digit)
    · have upper : c.isUpper = true := decide_eq_true bounds
      exact Bool.or_eq_true_iff.mpr (.inl (Bool.or_eq_true_iff.mpr (.inl upper)))
    · have lower : c.isLower = true :=
        Bool.and_eq_true_iff.mpr ⟨decide_eq_true bounds.1, decide_eq_true bounds.2⟩
      exact Bool.or_eq_true_iff.mpr (.inl (Bool.or_eq_true_iff.mpr (.inr lower)))
  · have first := wide range beyond
    omega

theorem isFormChar_of_ascii {c : Char} (plain : isPlainAscii c = true)
    (part : Definition.isFormChar c = true) : ColourRule.isFormChar c = true := by
  simp only [Definition.isFormChar, Text.isWordChar, Bool.or_eq_true] at part
  simp only [ColourRule.isFormChar, Text.isAsciiWordChar, Bool.or_eq_true]
  rcases part with (underscore | known) | sign
  · exact .inl (.inl underscore)
  · exact .inl (.inr (isAlphanum_of_ascii plain known))
  · exact .inr sign

theorem count_of_isRun {accepts : Char → Bool} {run : Text} (isRun : IsRun accepts run)
    (noOpener : accepts '{' = false) (noCloser : accepts '}' = false) :
    run.count '{' = run.count '}' := by
  have opens : run.count '{' = 0 := List.count_eq_zero.mpr fun member => by
    cases noOpener.symm.trans (isRun.all _ member)
  have closes : run.count '}' = 0 := List.count_eq_zero.mpr fun member => by
    cases noCloser.symm.trans (isRun.all _ member)
  rw [opens, closes]

/-- What leads to a name closes the braces that it opens. -/
theorem count_of_leads {between : Text} (leads : Leads Text.isBlank IsPiece between) :
    between.count '{' = between.count '}' := by
  have balanced {word : Text} (isPiece : IsPiece word) : word.count '{' = word.count '}' := by
    rcases isPiece with ⟨body, rfl, noBrace⟩ | isWord
    · have opens : body.count '{' = 0 := List.count_eq_zero.mpr fun member => (noBrace _ member).1 rfl
      have closes : body.count '}' = 0 := List.count_eq_zero.mpr fun member => (noBrace _ member).2 rfl
      simp [opens, closes]
    · exact count_of_isRun isWord rfl rfl
  induction leads with
  | gap isGap => exact count_of_isRun isGap rfl rfl
  | metadata _ isPiece isGap ih => simp [ih, balanced isPiece, count_of_isRun isGap rfl rfl]

/-- A plain map in metadata whose blanks all stand outside braces is a word. -/
theorem isWord_of_isPiece {lead word gap : Text} (leads : Leads Text.isBlank IsPiece lead)
    (isPiece : IsPiece word) (outside : BlanksOutsideBraces (lead ++ '^' :: (word ++ gap))) :
    IsWord word := by
  rcases isPiece with ⟨body, rfl, noBrace⟩ | isWord
  · refine ⟨List.cons_ne_nil _ _, fun c member => ?_⟩
    rw [Bool.not_eq_true']
    refine Bool.eq_false_iff.mpr fun blank => ?_
    have inBody : c ∈ body := by
      simp only [List.mem_cons, List.mem_append, List.not_mem_nil, or_false] at member
      rcases member with rfl | inBody | rfl
      · cases blank
      · exact inBody
      · cases blank
    obtain ⟨before, behind, rfl⟩ := List.append_of_mem inBody
    have division : lead ++ '^' :: ('{' :: (before ++ c :: behind ++ ['}']) ++ gap) =
        lead ++ '^' :: '{' :: before ++ c :: (behind ++ '}' :: gap) := by simp
    rw [division] at outside
    have counts := outside.count_eq blank
    have opens : before.count '{' = 0 :=
      List.count_eq_zero.mpr fun member => (noBrace _ (List.mem_append_left _ member)).1 rfl
    have closes : before.count '}' = 0 :=
      List.count_eq_zero.mpr fun member => (noBrace _ (List.mem_append_left _ member)).2 rfl
    have balanced := count_of_leads leads
    simp [opens, closes] at counts
    omega
  · refine ⟨isWord.nonempty, fun c member => ?_⟩
    have noBlank := isWord.all c member
    simp only [Text.isBlank, Text.isPadding, Bool.not_eq_true', Bool.or_eq_false_iff] at noBlank ⊢
    exact noBlank.1.1.1

theorem leadsToName_of_leads {between : Text} (leads : Leads Text.isBlank IsPiece between)
    (plain : ∀ c ∈ between, isPlainAscii c = true) (outside : BlanksOutsideBraces between) :
    LeadsToName between := by
  have isGap {gap : Text} (isGap : IsRun Text.isBlank gap) (plain : ∀ c ∈ gap, isPlainAscii c = true) :
      IsRun Text.isAsciiBlank gap :=
    ⟨isGap.nonempty, fun c member => isAsciiBlank_of_isBlank (plain c member) (isGap.all c member)⟩
  induction leads with
  | gap blanks => exact .gap (isGap blanks plain)
  | @metadata lead word gap leads isPiece blanks ih =>
      have inLead : LeadsToName lead :=
        ih (fun c member => plain c (List.mem_append_left _ member)) outside.left
      refine .metadata inLead (isWord_of_isPiece leads isPiece outside) (isGap blanks ?_)
      intro c member
      exact plain c (by simp [member])

/-- **Metadata without blanks in its maps introduces a name** for colouring as it does for the menu. -/
theorem introduces_of_match {line : Text} {place : Nat} {m : Match}
    (found : (place, m) ∈ search (fun _ => match?) line) (plain : ∀ c ∈ line, isPlainAscii c = true)
    (outside : BlanksOutsideBraces
      ((line.take (place + m.distance)).drop (place + 1 + m.form.length))) :
    Introduces (line.take (place + m.distance)) := by
  obtain ⟨front, between, rest, rfl, rfl, distance, divides⟩ := exists_of_mem_matches found
  have lead : (front ++ '(' :: (m.form ++ (between ++ (m.name ++ rest)))).take
      (front.length + m.distance) = front ++ '(' :: (m.form ++ between) := by
    have size : front.length + m.distance = (front ++ '(' :: (m.form ++ between)).length := by
      rw [distance, List.length_append]
    have division : front ++ '(' :: (m.form ++ (between ++ (m.name ++ rest))) =
        front ++ '(' :: (m.form ++ between) ++ (m.name ++ rest) := by simp
    rw [size, division, List.take_left]
  have behindForm : (front ++ '(' :: (m.form ++ between)).drop (front.length + 1 + m.form.length) =
      between := by
    have size : front.length + 1 + m.form.length = (front ++ '(' :: m.form).length := by
      simp only [List.length_append, List.length_cons]
      omega
    have division : front ++ '(' :: (m.form ++ between) = front ++ '(' :: m.form ++ between := by simp
    rw [size, division, List.drop_left]
  rw [lead, behindForm] at outside
  rw [lead]
  refine ⟨front, m.form, between, rfl, ?_, leadsToName_of_leads divides.leads ?_ outside⟩
  · rcases divides.isForm with short | ⟨tail, split, formChars, noDefault⟩
    · exact .inl short
    · refine .inr ⟨tail, split, fun c member => isFormChar_of_ascii ?_ (formChars c member), noDefault⟩
      exact plain c (by simp [split, member])
  · intro c member
    exact plain c (by simp [member])

/-- In ASCII, only five marks end a name of the menu and no token. -/
theorem canFollow_of_ascii {c : Char} (plain : isPlainAscii c = true) (outside : isNameChar c = false)
    (noMark : c ∉ ['\x27', '^', '@', '~', '\x60']) : canFollow c = true := by
  simp only [isNameChar, Bool.not_eq_false', Bool.or_eq_true, decide_eq_true_eq, List.mem_cons,
    List.not_mem_nil, or_false] at outside
  simp only [List.mem_cons, List.not_mem_nil, or_false, not_or] at noMark
  rcases outside with (blank | bracket) | other
  · exact canFollow_of_isAsciiBlank (isAsciiBlank_of_isBlank plain blank)
  · simp [canFollow, isDivider, bracket]
  · rcases other with rfl | rfl | rfl | rfl | rfl | rfl | rfl | rfl
    · rfl
    · exact absurd rfl noMark.1
    · rfl
    · rfl
    · exact absurd rfl noMark.2.1
    · exact absurd rfl noMark.2.2.1
    · exact absurd rfl noMark.2.2.2.1
    · exact absurd rfl noMark.2.2.2.2

/-- **What both read alike is shown.** -/
theorem showsExactly_of_match (palette : Palette) {line : Text} {place : Nat} {m : Match}
    (found : (place, m) ∈ search (fun _ => match?) line) (plain : ∀ c ∈ line, isPlainAscii c = true)
    (code : NameInCode line (ofMatch line place m))
    (outside : BlanksOutsideBraces
      ((line.take (place + m.distance)).drop (place + 1 + m.form.length)))
    (noMark : ∀ c ∈ (line.drop (place + m.distance + m.name.length)).head?,
      c ∉ ['\x27', '^', '@', '~', '\x60']) :
    ShowsExactly palette line (place + m.distance) (place + m.distance + m.name.length) := by
  have introduces := introduces_of_match found plain outside
  obtain ⟨lead, rest, division, position, isName, stops⟩ := exists_name_of_mem_matches found
  have front : line.take (place + m.distance) = lead := by
    rw [division, position, List.take_left]
  have back : line.drop (place + m.distance + m.name.length) = rest := by
    rw [division, position, ← List.length_append, ← List.append_assoc, List.drop_left]
  rw [front] at introduces
  rw [back] at noMark
  have ends : endsToken rest = true := by
    cases rest with
    | nil => rfl
    | cons c others =>
        exact canFollow_of_ascii (plain c (by simp [division])) (stops c rfl) (noMark c rfl)
  exact showsExactly_of_introduces code division position isName introduces ends

/-- **When the menu and the colouring agree on a name.** A name of the menu is shown exactly if
colouring knows what leads to it and a token ends behind it. On an ASCII line this is so unless a map
of metadata holds a blank or one of five marks follows the name. -/
theorem shown_iff_introduced (palette : Palette) (line : Text) :
    (∀ d ∈ Definition.ofText line, NameInCode line d → PrecededByCode line d →
      (ShowsExactly palette line d.position (d.position + d.name.length) ↔
        Introduces (line.take d.position) ∧
          endsToken (line.drop (d.position + d.name.length)) = true)) ∧
    ((∀ c ∈ line, isPlainAscii c = true) → ∀ place m, (place, m) ∈ search (fun _ => match?) line →
      NameInCode line (ofMatch line place m) →
      BlanksOutsideBraces ((line.take (place + m.distance)).drop (place + 1 + m.form.length)) →
      (∀ c ∈ (line.drop (place + m.distance + m.name.length)).head?,
        c ∉ ['\x27', '^', '@', '~', '\x60']) →
        ShowsExactly palette line (place + m.distance) (place + m.distance + m.name.length)) :=
  ⟨fun _ member code preceded => showsExactly_iff palette member code preceded,
    fun plain _ _ found code outside noMark =>
      showsExactly_of_match palette found plain code outside noMark⟩

/-- A map without blanks and a word lead to the name. -/
theorem shown_iff_introduced_map :
    ⟨['x'], .vars, 15, 1⟩ ∈ Definition.ofText "(def ^{:a} ^:b x 1)".toList ∧
      ShowsExactly Palette.dark "(def ^{:a} ^:b x 1)".toList 15 16 ∧
      Introduces "(def ^{:a} ^:b ".toList := by
  have agree := shown_iff_introduced Palette.dark "(def ^{:a} ^:b x 1)".toList
  have member : ⟨['x'], .vars, 15, 1⟩ ∈ Definition.ofText "(def ^{:a} ^:b x 1)".toList := by
    simp only [Definition.ofText, Snapshot.ofText_eq_snapshot]
    decide +kernel
  have found : (0, ⟨['d', 'e', 'f'], ['x'], 15⟩) ∈
      search (fun _ => match?) "(def ^{:a} ^:b x 1)".toList := by
    decide +kernel
  have code : NameInCode "(def ^{:a} ^:b x 1)".toList ⟨['x'], .vars, 15, 1⟩ := by
    intro offset low high
    obtain rfl : offset = 15 := Nat.le_antisymm (Nat.le_of_lt_succ high) low
    rw [Snapshot.ofText_eq_snapshot]
    rfl
  have preceded : PrecededByCode "(def ^{:a} ^:b x 1)".toList ⟨['x'], .vars, 15, 1⟩ := by
    intro offset next
    obtain rfl : offset = 14 := Nat.succ.inj next
    exact .inr rfl
  have noMark : ∀ c ∈ ("(def ^{:a} ^:b x 1)".toList.drop 16).head?,
      c ∉ ['\x27', '^', '@', '~', '\x60'] := by
    rintro c ⟨⟩
    decide
  have shown := agree.2 (List.all_eq_true.mp rfl) 0 _ found code (by decide +kernel) noMark
  exact ⟨member, shown, ((agree.1 _ member code preceded).mp shown).1⟩

/-- A map with a blank in it misleads colouring: it shows the value in the map, not the name. -/
theorem not_showsExactly_map :
    ⟨['c'], .vars, 13, 1⟩ ∈ Definition.ofText "(def ^{:a b} c)".toList ∧
      NameInCode "(def ^{:a b} c)".toList ⟨['c'], .vars, 13, 1⟩ ∧
      PrecededByCode "(def ^{:a b} c)".toList ⟨['c'], .vars, 13, 1⟩ ∧
      ¬ ShowsExactly Palette.dark "(def ^{:a b} c)".toList 13 14 ∧
      ShowsName Palette.dark "(def ^{:a b} c)".toList 10 := by
  have names : definitionNames "(def ^{:a b} c)".toList = [⟨10, 11⟩] := by decide +kernel
  refine ⟨?_, ?_, ?_, fun shown => ?_, ?_⟩
  · simp only [Definition.ofText, Snapshot.ofText_eq_snapshot]
    decide +kernel
  · intro offset low high
    obtain rfl : offset = 13 := Nat.le_antisymm (Nat.le_of_lt_succ high) low
    rw [Snapshot.ofText_eq_snapshot]
    rfl
  · intro offset next
    obtain rfl : offset = 12 := Nat.succ.inj next
    exact .inr rfl
  · obtain ⟨-, extent, member, low, high⟩ :=
      (showsName_iff _ _ _).mp (shown.inside 13 (by decide) (by decide))
    rw [names, List.mem_singleton] at member
    subst member
    cases Nat.lt_irrefl _ (Nat.lt_of_lt_of_le high (by decide : 11 ≤ 13))
  · refine (showsName_iff _ _ _).mpr ⟨?_, ⟨10, 11⟩, ?_, by decide, by decide⟩
    · rw [Snapshot.ofText_eq_snapshot]
      decide +kernel
    · rw [names]
      exact List.mem_singleton_self _

end ColouredLine

end LispEditor
