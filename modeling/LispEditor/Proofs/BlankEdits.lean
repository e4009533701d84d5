import LispEditor.Proofs.LineEdit

/-!
# Splicing blanks again and again

When blanks may be spliced into a snapshot is a matter of the text before them alone. The scan of that
text must not end in a string, in a comment or behind a backslash that waits for its character;
`endsInCode_iff` says that the scan then is in code. A snapshot keeps its agreement with a fresh scan
over any number of such edits, and the blanks at the start of every line outside strings may be
replaced.

* `after_eq_literal_iff`: a waiting backslash, by the last token.
* `replaceBlank_of_allows`: one edit.
* `foldl_splice`: any sequence of edits.
* `allowsBlank_of_startsLine`: the blanks of a line.
* `splices_agree`: all of it.
-/

namespace LispEditor

/-! ### Texts that end in code -/

namespace Mode

/-- Behind a closed string the scan is in code. -/
theorem after_closed {text : Text} (closed : (Token.splitString text).2.1 = true) :
    string.after text = code.after (Token.splitString text).2.2 := by
  fun_induction Token.splitString text with
  | case1 => cases closed
  | case2 c rest body found after split ih =>
      rw [split] at ih
      exact ih closed
  | case3 c rest _ quote =>
      have isQuote : c = '"' := by simpa using quote
      subst isQuote
      rfl
  | case4 c rest single quote body found after split ih =>
      rw [split] at ih
      have notQuote : c ≠ '"' := by simpa using quote
      by_cases backslash : c = '\\'
      · cases rest with
        | nil =>
            cases split
            cases closed
        | cons d rest => exact (single d rest backslash rfl).elim
      · rw [after_cons, show string.next c = string by simp [next, backslash, notQuote]]
        exact ih closed

/-- Exactly the characters of comments leave the scan in a comment. -/
theorem kindOf_eq_comment (mode : Mode) (c : Char) :
    mode.kindOf c = .comment ↔ mode.next c = comment := by
  cases mode with
  | code =>
      simp only [kindOf, next]
      by_cases semicolon : c = ';'
      · simp [semicolon]
      · by_cases quote : c = '"'
        · simp [quote]
        · by_cases backslash : c = '\\' <;> simp [semicolon, quote, backslash]
  | comment => by_cases newline : c = '\n' <;> simp [kindOf, next, newline]
  | string =>
      simp only [kindOf, next, reduceCtorEq, false_iff]
      split
      · simp
      · split <;> simp
  | escape => simp [kindOf, next]
  | literal => simp [kindOf, next]

/-- A scan is in a comment exactly if the last character is part of one. -/
theorem after_eq_comment_iff (text : Text) :
    code.after text = comment ↔ ((code.cells text).map Cell.kind).getLast? = some .comment := by
  rcases List.eq_nil_or_concat text with rfl | ⟨init, c, rfl⟩
  · simp
  · rw [List.concat_eq_append, after_append, cells_append]
    simp [kindOf_eq_comment]

end Mode

namespace Token

theorem getLast?_cons_ofText (token : Token) (text : Text) :
    (token :: ofText text).getLast? = if text = [] then some token else (ofText text).getLast? := by
  split
  · next empty =>
      rw [ofText_eq_nil.mpr empty]
      rfl
  · next nonempty =>
      obtain ⟨first, others, tokens⟩ := List.exists_cons_of_ne_nil (mt ofText_eq_nil.mp nonempty)
      simp [tokens]

/-- A scan is behind a waiting backslash exactly if the last token is a backslash alone. -/
theorem after_eq_literal_iff (text : Text) :
    Mode.code.after text = .literal ↔ (ofText text).getLast? = some (.literal ['\\']) := by
  fun_induction ofText text with
  | case1 => simp
  | case2 c rest isComment ih =>
      have semicolon : c = ';' := by simpa using isComment
      subst semicolon
      rw [getLast?_cons_ofText, Mode.after_cons, show Mode.code.next ';' = .comment from rfl]
      split
      · next unended =>
          rw [Mode.after_comment_of_unended unended]
          simp
      · next ended =>
          rw [Mode.after_comment ended]
          exact ih
  | case3 c rest notComment isString ih =>
      have quote : c = '"' := by simpa using isString
      subst quote
      rw [getLast?_cons_ofText, Mode.after_cons, show Mode.code.next '"' = .string from rfl]
      cases closed : (splitString rest).2.1 with
      | true =>
          rw [Mode.after_closed closed, ih]
          split
          · next empty => simp [ofText_eq_nil.mpr empty]
          · rfl
      | false =>
          have inside := inString_after_splitString rest
          rw [closed] at inside
          rw [if_pos (splitString_rest_eq_nil closed)]
          constructor
          · intro waiting
            rw [waiting] at inside
            cases inside
          · intro same
            cases same
  | case4 c rest notComment notString isLiteral ih =>
      have backslash : c = '\\' := by simpa using isLiteral
      subst backslash
      rw [getLast?_cons_ofText]
      cases rest with
      | nil => simp [Mode.next]
      | cons d rest =>
          rw [Mode.after_cons, Mode.after_cons]
          show Mode.code.after rest = _ ↔ (if rest = [] then _ else _) = _
          split
          · next empty => simp [empty]
          · exact ih
  | case5 c rest notComment notString notLiteral ih =>
      have stays : Mode.code.next c = .code := by simp_all [Mode.next]
      rw [getLast?_cons_ofText, Mode.after_cons, stays, ih]
      split
      · next empty => simp [ofText_eq_nil.mpr empty]
      · rfl

end Token

/-- The scan of a text is in plain code at its end: not in a string, not in a comment, and not behind
a backslash that waits for its character. -/
structure EndsInCode (text : Text) : Prop where
  noString : (Snapshot.ofText text).endsInString = false
  noComment : (Snapshot.ofText text).kinds.getLast? ≠ some .comment
  noBackslash : (Token.ofText text).getLast? ≠ some (.literal ['\\'])

theorem endsInCode_iff (text : Text) : EndsInCode text ↔ Mode.code.after text = .code := by
  have string : (Snapshot.ofText text).endsInString = (Mode.code.after text).inString := by
    rw [Snapshot.ofText_eq_snapshot]
    rfl
  have comment : (Snapshot.ofText text).kinds.getLast? = some .comment ↔
      Mode.code.after text = .comment := by
    rw [Snapshot.ofText_eq_snapshot]
    exact (Mode.after_eq_comment_iff text).symm
  have literal := Token.after_eq_literal_iff text
  constructor
  · intro ends
    have noString := ends.noString
    rw [string] at noString
    cases mode : Mode.code.after text with
    | code => rfl
    | comment => exact absurd (comment.mpr mode) ends.noComment
    | literal => exact absurd (literal.mp mode) ends.noBackslash
    | string =>
        rw [mode] at noString
        cases noString
    | escape =>
        rw [mode] at noString
        cases noString
  · intro inCode
    refine ⟨by rw [string, inCode]; rfl, fun isComment => ?_, fun waits => ?_⟩
    · cases inCode.symm.trans (comment.mp isComment)
    · cases inCode.symm.trans (literal.mpr waits)

/-! ### Edits -/

/-- Blanks to be written in the place of `[start, stop)`. -/
structure BlankEdit where
  start : Nat
  stop : Nat
  blank : Text

namespace BlankEdit

/-- The text with an edit written into it. -/
def write (edit : BlankEdit) (text : Text) : Text :=
  text.take edit.start ++ edit.blank ++ text.drop edit.stop

/-- The snapshot with an edit spliced into it. -/
def splice (edit : BlankEdit) (s : Snapshot) : Snapshot :=
  s.replaceBlank edit.start edit.stop edit.blank

end BlankEdit

namespace Snapshot

/-- Blanks may be written in the place of `[start, stop)`: it holds separators that are code, and the
scan of the text before it ends in code. -/
structure AllowsBlank (s : Snapshot) (start stop : Nat) : Prop where
  order : start ≤ stop
  inside : stop ≤ s.size
  separators : ∀ cell ∈ (s.cells.take stop).drop start,
    cell.kind = .code ∧ isSeparator cell.char = true
  inCode : EndsInCode (s.text.take start)

/-- Edits that may be made one after the other, each on the snapshot that the one before it left. -/
def Allows (s : Snapshot) : List BlankEdit → Prop
  | [] => True
  | edit :: rest =>
      s.AllowsBlank edit.start edit.stop ∧ (∀ c ∈ edit.blank, isSeparator c = true) ∧
        (edit.splice s).Allows rest

/-- **One edit**: the spliced snapshot is that of the new text. -/
theorem replaceBlank_of_allows {text : Text} {start stop : Nat}
    (allows : (ofText text).AllowsBlank start stop) {blank : Text}
    (separators : ∀ c ∈ blank, isSeparator c = true) :
    (ofText text).replaceBlank start stop blank =
      ofText (text.take start ++ blank ++ text.drop stop) := by
  have size : (ofText text).size = text.length := size_scan text false
  have inside := allows.inside
  have order := allows.order
  have front : (text.take start).length = start := by
    rw [List.length_take]
    omega
  have pieces : text.take start ++ (text.take stop).drop start = text.take stop :=
    (take_eq_take_append order text).symm
  have upTo : (text.take start ++ (text.take stop).drop start).length = stop := by
    rw [pieces, List.length_take]
    omega
  have old : ∀ c ∈ (text.take stop).drop start, isSeparator c = true := by
    intro c member
    have chars : text = (ofText text).cells.map Cell.char := (text_ofText text).symm
    rw [chars, ← List.map_take, ← List.map_drop] at member
    obtain ⟨cell, here, rfl⟩ := List.mem_map.mp member
    exact (allows.separators cell here).2
  have inCode : Mode.code.after (text.take start) = .code := by
    rw [← endsInCode_iff]
    have ends := allows.inCode
    rwa [text_ofText] at ends
  have spliced := replaceBlank_ofText (b := text.drop stop) inCode old separators
  rw [upTo, pieces, List.take_append_drop, front] at spliced
  exact spliced

/-- **Any sequence of edits**: splicing all of them gives the snapshot of the text with all of them
written. -/
theorem foldl_splice {text : Text} {edits : List BlankEdit} (allows : (ofText text).Allows edits) :
    edits.foldl (fun s edit => edit.splice s) (ofText text) =
      ofText (edits.foldl (fun text edit => edit.write text) text) := by
  induction edits generalizing text with
  | nil => rfl
  | cons edit rest ih =>
      obtain ⟨here, separators, later⟩ := allows
      have spliced : edit.splice (ofText text) = ofText (edit.write text) :=
        replaceBlank_of_allows here separators
      rw [spliced] at later
      rw [List.foldl_cons, List.foldl_cons, spliced]
      exact ih later

/-- **The blanks of a line** that begins outside strings may be replaced. -/
theorem allowsBlank_of_startsLine {text : Text} {start : Nat} (starts : text.StartsLine start)
    (outside : (ofText text).inString start = false) :
    (ofText text).AllowsBlank start ((ofText text).indentationEnd start) := by
  obtain ⟨above, below, rfl, rfl, ends⟩ := starts.exists_above
  rw [inString_ofText] at outside
  have inCode := Mode.after_eq_code ends outside
  have old : ∀ c ∈ below.takeWhile isIndentation, isSeparator c = true :=
    fun c member => isSeparator_of_isIndentation (List.mem_takeWhile_imp member)
  have pieces : above ++ below =
      above ++ below.takeWhile isIndentation ++ below.dropWhile isIndentation := by
    rw [List.append_assoc, List.takeWhile_append_dropWhile]
  have stop : (ofText (above ++ below)).indentationEnd (above.length : Nat) =
      (above ++ below.takeWhile isIndentation).length := by
    rw [indentationEnd_of_endsLine (text_ofText _) ends, List.length_append]
  have between : ((ofText (above ++ below)).cells.take
      (above ++ below.takeWhile isIndentation).length).drop above.length =
      (below.takeWhile isIndentation).map fun c => ⟨c, .code⟩ := by
    rw [pieces, cells_around inCode old]
    have front : (above ++ below.takeWhile isIndentation).length =
        (Mode.code.cells above ++ (below.takeWhile isIndentation).map
          fun c => (⟨c, .code⟩ : Cell)).length := by simp
    rw [front, List.take_left, ← Mode.length_cells .code above, List.drop_left]
  rw [stop]
  refine ⟨(List.sublist_append_left _ _).length_le, ?_, ?_, ?_⟩
  · have size : (ofText (above ++ below)).size = (above ++ below).length := size_scan _ false
    rw [size, pieces]
    exact (List.sublist_append_left _ _).length_le
  · intro cell member
    rw [between] at member
    obtain ⟨c, blank, rfl⟩ := List.mem_map.mp member
    exact ⟨rfl, old c blank⟩
  · rw [text_ofText, List.take_left]
    exact (endsInCode_iff above).mpr inCode

/-- **Splicing blanks agrees with scanning again**: for one edit, for any sequence of edits on the
snapshots that they leave, and so for the blanks at the start of every line outside strings. -/
theorem splices_agree (text : Text) :
    (∀ (start stop : Nat) (blank : Text), (ofText text).AllowsBlank start stop →
      (∀ c ∈ blank, isSeparator c = true) →
        (ofText text).replaceBlank start stop blank =
          ofText (text.take start ++ blank ++ text.drop stop)) ∧
    (∀ edits : List BlankEdit, (ofText text).Allows edits →
      edits.foldl (fun s edit => edit.splice s) (ofText text) =
        ofText (edits.foldl (fun text edit => edit.write text) text)) ∧
    ∀ start : Nat, text.StartsLine start → (ofText text).inString start = false →
      (ofText text).AllowsBlank start ((ofText text).indentationEnd start) :=
  ⟨fun _ _ _ allows separators => replaceBlank_of_allows allows separators,
    fun _ allows => foldl_splice allows,
    fun _ starts outside => allowsBlank_of_startsLine starts outside⟩

/-- The second line is first moved to the left and then to the margin. -/
theorem splices_agree_twice :
    (ofText "(a \"x\"\n    b \"y\")".toList).Allows [⟨7, 11, "  ".toList⟩, ⟨7, 9, []⟩] ∧
    ([⟨7, 11, "  ".toList⟩, ⟨7, 9, []⟩] : List BlankEdit).foldl (fun s edit => edit.splice s)
      (ofText "(a \"x\"\n    b \"y\")".toList) = ofText "(a \"x\"\nb \"y\")".toList := by
  have wide := splices_agree "(a \"x\"\n    b \"y\")".toList
  have narrow := splices_agree "(a \"x\"\n  b \"y\")".toList
  have first : (ofText "(a \"x\"\n    b \"y\")".toList).AllowsBlank 7 11 := by
    have line := wide.2.2 7 (.inr rfl) (inString_ofText "(a \"x\"\n".toList "    b \"y\")".toList)
    rw [ofText_eq_snapshot] at line ⊢
    exact line
  have second : (ofText "(a \"x\"\n  b \"y\")".toList).AllowsBlank 7 9 := by
    have line := narrow.2.2 7 (.inr rfl) (inString_ofText "(a \"x\"\n".toList "  b \"y\")".toList)
    rw [ofText_eq_snapshot] at line ⊢
    exact line
  have allows : (ofText "(a \"x\"\n    b \"y\")".toList).Allows
      [⟨7, 11, "  ".toList⟩, ⟨7, 9, []⟩] := by
    refine ⟨first, List.all_eq_true.mp rfl, ?_⟩
    rw [BlankEdit.splice, wide.1 7 11 "  ".toList first (List.all_eq_true.mp rfl)]
    exact ⟨second, List.all_eq_true.mp rfl, trivial⟩
  exact ⟨allows, wide.2.1 _ allows⟩

end Snapshot

end LispEditor
