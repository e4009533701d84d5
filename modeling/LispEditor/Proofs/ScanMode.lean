import LispEditor.Proofs.Lines

/-!
# Scanning character by character

The scanner cuts a text into tokens. The same classification comes from a machine with five modes
that reads one character at a time and never looks ahead: what follows a character has no say in its
kind. So a scan can be cut anywhere, and all that the rest of a text has to know about the part
before it is a mode.

* `Snapshot.scan_eq_snapshot`: cells, string spans and the final flag of a scan are those of the
  machine.
* `cells_append`, `spans_append`, `after_append`: a text is scanned piece by piece.
* `after_of_endsLine`: behind a newline the machine is in code or in a string, and in nothing else.
* `Snapshot.scan_followsModes`: what this means for a scan that goes on.
-/

namespace LispEditor

/-- What a scan is in the middle of. -/
inductive Mode where
  | code
  | comment
  | string
  /-- Behind a backslash in a string. -/
  | escape
  /-- Behind a backslash in code. -/
  | literal
  deriving DecidableEq, Repr

namespace Mode

/-- The mode behind a character. -/
def next : Mode → Char → Mode
  | code, c =>
      if c == ';' then comment else if c == '"' then string else if c == '\\' then literal else code
  | comment, c => if c == '\n' then code else comment
  | string, c => if c == '\\' then escape else if c == '"' then code else string
  | escape, _ => string
  | literal, _ => code

/-- The kind of a character that is read in a mode. -/
def kindOf : Mode → Char → Kind
  | code, c =>
      if c == ';' then .comment
      else if c == '"' then .string
      else if c == '\\' then .literal
      else .code
  | comment, c => if c == '\n' then .code else .comment
  | string, _ => .string
  | escape, _ => .string
  | literal, _ => .literal

/-- Whether a mode is one of those inside a string. -/
def inString : Mode → Bool
  | string => true
  | escape => true
  | _ => false

/-- The mode that a scan begins in. -/
def start (inString : Bool) : Mode :=
  if inString then string else code

/-- The mode behind a text. -/
def after (mode : Mode) (text : Text) : Mode :=
  text.foldl next mode

/-- The characters of a text with their kinds. -/
def cells (mode : Mode) : Text → List Cell
  | [] => []
  | c :: rest => ⟨c, mode.kindOf c⟩ :: cells (mode.next c) rest

/-- The spans of the strings in a text that begins at `offset`. If that is inside a string, then
`opened` is where the string began. -/
def spans (mode : Mode) (opened offset : Nat) : Text → List Span
  | [] => if mode.inString then [⟨opened, offset⟩] else []
  | c :: rest =>
      if mode.inString && !(mode.next c).inString then
        ⟨opened, (offset + 1 : Nat)⟩ :: spans (mode.next c) offset (offset + 1) rest
      else
        spans (mode.next c) (if mode.inString then opened else offset) (offset + 1) rest

/-- What the machine makes of a whole text. -/
def snapshot (mode : Mode) (text : Text) : Snapshot where
  cells := mode.cells text
  strings := mode.spans 0 0 text
  endsInString := (mode.after text).inString

/-! ### Reading on -/

@[simp]
theorem after_nil (mode : Mode) : mode.after [] = mode := rfl

@[simp]
theorem after_cons (mode : Mode) (c : Char) (rest : Text) :
    mode.after (c :: rest) = (mode.next c).after rest := rfl

@[simp]
theorem after_append (mode : Mode) (a b : Text) : mode.after (a ++ b) = (mode.after a).after b :=
  List.foldl_append

@[simp]
theorem cells_nil (mode : Mode) : mode.cells [] = [] := rfl

@[simp]
theorem cells_cons (mode : Mode) (c : Char) (rest : Text) :
    mode.cells (c :: rest) = ⟨c, mode.kindOf c⟩ :: (mode.next c).cells rest := rfl

theorem cells_append (mode : Mode) (a b : Text) :
    mode.cells (a ++ b) = mode.cells a ++ (mode.after a).cells b := by
  induction a generalizing mode with
  | nil => rfl
  | cons c rest ih => simp [ih]

@[simp]
theorem map_char_cells (mode : Mode) (text : Text) : (mode.cells text).map Cell.char = text := by
  induction text generalizing mode with
  | nil => rfl
  | cons c rest ih => simp [ih]

@[simp]
theorem length_cells (mode : Mode) (text : Text) : (mode.cells text).length = text.length := by
  rw [← List.length_map Cell.char, map_char_cells]

/-- Outside strings it does not matter where the last string began. -/
theorem spans_opened {mode : Mode} (outside : mode.inString = false) (opened opened' offset : Nat)
    (text : Text) : mode.spans opened offset text = mode.spans opened' offset text := by
  cases text with
  | nil => simp [spans, outside]
  | cons c rest => simp [spans, outside]

/-- The strings of a text are those closed in its first piece, and then those of the rest, which
goes on in the mode that the first piece left. -/
theorem spans_split {opened offset : Nat} (begun : opened ≤ offset) (mode : Mode) (a : Text) :
    ∃ closed opened', (a = [] ∧ opened' = opened ∨ opened' < offset + a.length) ∧
      ∀ b, mode.spans opened offset (a ++ b) =
        closed ++ (mode.after a).spans opened' (offset + a.length) b := by
  induction a generalizing mode opened offset with
  | nil => exact ⟨[], opened, Or.inl ⟨rfl, rfl⟩, fun _ => rfl⟩
  | cons c rest ih =>
      have place : offset + (c :: rest).length = offset + 1 + rest.length := by
        simp only [List.length_cons]
        omega
      rw [place]
      by_cases closes : (mode.inString && !(mode.next c).inString) = true
      · obtain ⟨closed, opened', bound, split⟩ := ih (Nat.le_succ offset) (mode.next c)
        refine ⟨⟨opened, (offset + 1 : Nat)⟩ :: closed, opened', Or.inr ?_, fun b => ?_⟩
        · omega
        · simp only [List.cons_append, spans, if_pos closes, split b, after_cons]
      · have early : (if mode.inString then opened else offset) ≤ offset := by
          split
          · exact begun
          · exact Nat.le_refl offset
        obtain ⟨closed, opened', bound, split⟩ :=
          ih (Nat.le_succ_of_le early) (mode.next c)
        refine ⟨closed, opened', Or.inr ?_, fun b => ?_⟩
        · omega
        · simp only [List.cons_append, spans, if_neg closes, split b, after_cons]

/-- Where the first piece of a text does not end in a string, the strings of the text are those of
its pieces. -/
theorem spans_append {mode : Mode} {a : Text} (outside : (mode.after a).inString = false)
    {opened offset : Nat} (begun : opened ≤ offset) (b : Text) (opened' : Nat) :
    mode.spans opened offset (a ++ b) =
      mode.spans opened offset a ++ (mode.after a).spans opened' (offset + a.length) b := by
  obtain ⟨closed, last, -, split⟩ := spans_split begun mode a
  have alone : mode.spans opened offset a = closed := by
    have whole := split []
    simpa [spans, outside] using whole
  rw [split b, alone, spans_opened outside last opened']

/-- Moving a text moves its strings. -/
theorem spans_shift (mode : Mode) (opened offset distance : Nat) (text : Text) :
    mode.spans (opened + distance) (offset + distance) text =
      (mode.spans opened offset text).map (·.shift distance) := by
  induction text generalizing mode opened offset with
  | nil => cases inside : mode.inString <;> simp [spans, inside, Span.shift]
  | cons c rest ih =>
      have place : offset + distance + 1 = offset + 1 + distance := by omega
      have moved : (if mode.inString then opened + distance else offset + distance) =
          (if mode.inString then opened else offset) + distance := by split <;> rfl
      simp only [spans, place, moved, ih]
      split
      · simp [Span.shift]
      · rfl

/-- Behind code the scan is in code. -/
theorem next_of_kindOf {mode : Mode} {c : Char} (isCode : mode.kindOf c = .code) :
    mode.next c = code := by
  cases mode with
  | code =>
      simp only [kindOf] at isCode
      split at isCode
      · cases isCode
      · split at isCode
        · cases isCode
        · split at isCode
          · cases isCode
          · simp_all [next]
  | comment =>
      simp only [kindOf] at isCode
      split at isCode
      · simp_all [next]
      · cases isCode
  | string => cases isCode
  | escape => cases isCode
  | literal => cases isCode

/-! ### Blanks and newlines -/

/-- A separator in code is code and leaves the scan in code. -/
theorem next_separator {c : Char} (blank : isSeparator c = true) :
    next code c = code ∧ kindOf code c = .code := by
  simp only [isSeparator, List.mem_cons, List.not_mem_nil, or_false, decide_eq_true_eq] at blank
  rcases blank with rfl | rfl | rfl | rfl | rfl | rfl | rfl <;> exact ⟨rfl, rfl⟩

theorem after_of_stays {text : Text} (stays : ∀ c ∈ text, next code c = code) :
    code.after text = code := by
  induction text with
  | nil => rfl
  | cons c rest ih =>
      rw [after_cons, stays c List.mem_cons_self]
      exact ih fun d member => stays d (List.mem_cons_of_mem c member)

theorem after_separators {blank : Text} (separators : ∀ c ∈ blank, isSeparator c = true) :
    code.after blank = code :=
  after_of_stays fun c member => (next_separator (separators c member)).1

theorem cells_separators {blank : Text} (separators : ∀ c ∈ blank, isSeparator c = true) :
    code.cells blank = blank.map fun c => ⟨c, .code⟩ := by
  induction blank with
  | nil => rfl
  | cons c rest ih =>
      obtain ⟨stays, kind⟩ := next_separator (separators c List.mem_cons_self)
      rw [cells_cons, stays, kind, List.map_cons,
        ih fun d member => separators d (List.mem_cons_of_mem c member)]

theorem spans_separators {blank : Text} (separators : ∀ c ∈ blank, isSeparator c = true)
    (opened offset : Nat) : code.spans opened offset blank = [] := by
  induction blank generalizing opened offset with
  | nil => rfl
  | cons c rest ih =>
      have stays := (next_separator (separators c List.mem_cons_self)).1
      simp only [spans, stays]
      exact ih (fun d member => separators d (List.mem_cons_of_mem c member)) _ _

/-- A newline ends a comment, a literal and an escape. -/
theorem next_newline (mode : Mode) : mode.next '\n' = code ∨ mode.next '\n' = string := by
  cases mode <;> simp [next]

/-- A newline leaves a string as open as it was. -/
theorem inString_next_newline (mode : Mode) : (mode.next '\n').inString = mode.inString := by
  cases mode <;> rfl

/-- Where a line starts, a scan is in code or in a string. -/
theorem after_of_endsLine (inside : Bool) {text : Text} (ends : Text.EndsLine text) :
    (start inside).after text = code ∨ (start inside).after text = string := by
  rcases ends.cases with rfl | ⟨line, rfl⟩
  · cases inside
    · exact Or.inl rfl
    · exact Or.inr rfl
  · rw [after_append]
    exact next_newline _

theorem inString_start (flag : Bool) : (start flag).inString = flag := by
  cases flag <;> rfl

/-- Where a line starts, one bit says in which mode the scan is. -/
theorem start_inString (flag : Bool) {text : Text} (ends : Text.EndsLine text) :
    start ((start flag).after text).inString = (start flag).after text := by
  rcases after_of_endsLine flag ends with inCode | inString
  · rw [inCode]
    rfl
  · rw [inString]
    rfl

/-- Where a line starts outside strings, a scan is in code. -/
theorem after_eq_code {text : Text} (ends : Text.EndsLine text)
    (outside : (code.after text).inString = false) : code.after text = code := by
  rcases after_of_endsLine false ends with inCode | inString
  · exact inCode
  · have inside : code.after text = string := inString
    rw [inside] at outside
    cases outside

/-! ### Comments, strings and literals are tokens -/

/-- A comment goes up to the next newline, which is read as if in code. -/
theorem cells_comment (text : Text) :
    comment.cells text =
      ((text.takeWhile (· != '\n')).map fun c => ⟨c, .comment⟩) ++
        code.cells (text.dropWhile (· != '\n')) := by
  induction text with
  | nil => rfl
  | cons c rest ih =>
      by_cases newline : c = '\n'
      · subst newline
        rfl
      · simp [next, kindOf, newline, ih]

theorem spans_comment (opened offset : Nat) (text : Text) :
    comment.spans opened offset text =
      code.spans opened (offset + (text.takeWhile (· != '\n')).length)
        (text.dropWhile (· != '\n')) := by
  induction text generalizing opened offset with
  | nil => rfl
  | cons c rest ih =>
      by_cases newline : c = '\n'
      · subst newline
        rfl
      · have place : offset + 1 + (rest.takeWhile (· != '\n')).length =
            offset + ((rest.takeWhile (· != '\n')).length + 1) := by omega
        simp only [spans, next, newline, beq_iff_eq, if_false, inString, Bool.false_and,
          Bool.false_eq_true, ih, bne_iff_ne, ne_eq, not_false_eq_true, List.takeWhile_cons_of_pos,
          List.dropWhile_cons_of_pos, List.length_cons, place]
        exact spans_opened rfl _ _ _ _

/-- Behind a comment the scan goes on with the newline, if there is one. -/
theorem after_comment {text : Text} (ends : text.dropWhile (· != '\n') ≠ []) :
    comment.after text = code.after (text.dropWhile (· != '\n')) := by
  induction text with
  | nil => exact absurd rfl ends
  | cons c rest ih =>
      by_cases newline : c = '\n'
      · subst newline
        rfl
      · rw [List.dropWhile_cons_of_pos (by simpa using newline)] at ends ⊢
        rw [after_cons, ← ih ends]
        simp [next, newline]

theorem after_comment_of_unended {text : Text} (unended : text.dropWhile (· != '\n') = []) :
    comment.after text = comment := by
  induction text with
  | nil => rfl
  | cons c rest ih =>
      by_cases newline : c = '\n'
      · subst newline
        cases unended
      · rw [List.dropWhile_cons_of_pos (by simpa using newline)] at unended
        rw [after_cons, show comment.next c = comment by simp [next, newline]]
        exact ih unended

theorem inString_after_comment (text : Text) :
    (comment.after text).inString = (code.after (text.dropWhile (· != '\n'))).inString := by
  by_cases unended : text.dropWhile (· != '\n') = []
  · rw [after_comment_of_unended unended, unended]
    rfl
  · rw [after_comment unended]

end Mode

namespace Token

/-- An unclosed string has nothing behind it. -/
theorem splitString_rest_eq_nil {text : Text} (unclosed : (splitString text).2.1 = false) :
    (splitString text).2.2 = [] := by
  fun_induction splitString text with
  | case1 => rfl
  | case2 c rest body closed after split ih =>
      rw [split] at ih
      exact ih unclosed
  | case3 c rest _ quote => cases unclosed
  | case4 c rest _ quote body closed after split ih =>
      rw [split] at ih
      exact ih unclosed

theorem cells_splitString (text : Text) :
    Mode.string.cells text =
      ((splitString text).1.map fun c => ⟨c, .string⟩) ++ Mode.code.cells (splitString text).2.2 := by
  fun_induction splitString text with
  | case1 => rfl
  | case2 c rest body closed after split ih =>
      rw [split] at ih
      simp [Mode.next, Mode.kindOf, ih]
  | case3 c rest _ quote =>
      have isQuote : c = '"' := by simpa using quote
      subst isQuote
      rfl
  | case4 c rest single quote body closed after split ih =>
      rw [split] at ih
      have notQuote : c ≠ '"' := by simpa using quote
      by_cases backslash : c = '\\'
      -- A backslash in this case is the last character.
      · cases rest with
        | nil =>
            cases split
            rfl
        | cons d rest => exact (single d rest backslash rfl).elim
      · simp [Mode.next, Mode.kindOf, backslash, notQuote, ih]

theorem spans_splitString (opened offset : Nat) (text : Text) :
    Mode.string.spans opened offset text =
      ⟨opened, (offset + (splitString text).1.length : Nat)⟩ ::
        Mode.code.spans 0 (offset + (splitString text).1.length) (splitString text).2.2 := by
  fun_induction splitString text generalizing offset with
  | case1 => rfl
  | case2 c rest body closed after split ih =>
      rw [split] at ih
      have place : offset + 1 + 1 + body.length = offset + ('\\' :: c :: body).length := by
        simp only [List.length_cons]
        omega
      rw [← place]
      exact ih (offset + 1 + 1)
  | case3 c rest _ quote =>
      have isQuote : c = '"' := by simpa using quote
      subst isQuote
      exact congrArg (List.cons _) (Mode.spans_opened rfl _ _ _ _)
  | case4 c rest single quote body closed after split ih =>
      rw [split] at ih
      have notQuote : c ≠ '"' := by simpa using quote
      have place : offset + 1 + body.length = offset + (c :: body).length := by
        simp only [List.length_cons]
        omega
      by_cases backslash : c = '\\'
      · cases rest with
        | nil =>
            cases split
            subst backslash
            rfl
        | cons d rest => exact (single d rest backslash rfl).elim
      · have stays : Mode.string.next c = .string := by simp [Mode.next, backslash, notQuote]
        rw [← place, ← ih (offset + 1)]
        simp [Mode.spans, stays, Mode.inString]

theorem inString_after_splitString (text : Text) :
    (Mode.string.after text).inString =
      (!(splitString text).2.1 || (Mode.code.after (splitString text).2.2).inString) := by
  fun_induction splitString text with
  | case1 => rfl
  | case2 c rest body closed after split ih =>
      rw [split] at ih
      exact ih
  | case3 c rest _ quote =>
      have isQuote : c = '"' := by simpa using quote
      subst isQuote
      rfl
  | case4 c rest single quote body closed after split ih =>
      rw [split] at ih
      have notQuote : c ≠ '"' := by simpa using quote
      by_cases backslash : c = '\\'
      · cases rest with
        | nil =>
            cases split
            subst backslash
            rfl
        | cons d rest => exact (single d rest backslash rfl).elim
      · have stays : Mode.string.next c = .string := by simp [Mode.next, backslash, notQuote]
        rw [Mode.after_cons, stays]
        exact ih

/-! ### The tokens of a text -/

theorem ofText_eq_nil {text : Text} : ofText text = [] ↔ text = [] := by
  constructor
  · intro none
    rw [← flatMap_text_ofText text, none]
    rfl
  · rintro rfl
    rw [ofText]

/-- A text ends in a string if its last token is unclosed. -/
theorem endInString_cons (token : Token) (text : Text) :
    endInString (token :: ofText text) =
      if text = [] then token.isUnclosed else endInString (ofText text) := by
  split
  · next empty =>
      rw [ofText_eq_nil.mpr empty]
      rfl
  · next nonempty =>
      obtain ⟨first, others, tokens⟩ := List.exists_cons_of_ne_nil (mt ofText_eq_nil.mp nonempty)
      simp [endInString, tokens]

theorem flatMap_cells_ofText (text : Text) :
    (ofText text).flatMap cells = Mode.code.cells text := by
  fun_induction ofText text with
  | case1 => rfl
  | case2 c rest isComment ih =>
      have semicolon : c = ';' := by simpa using isComment
      subst semicolon
      simp only [List.flatMap_cons, ih, Mode.cells_cons, Mode.next, beq_self_eq_true, if_true,
        Mode.cells_comment]
      rfl
  | case3 c rest notComment isString ih =>
      have quote : c = '"' := by simpa using isString
      subst quote
      simp only [List.flatMap_cons, ih, Mode.cells_cons]
      rw [show Mode.code.next '"' = .string from rfl, cells_splitString]
      rfl
  | case4 c rest notComment notString isLiteral ih =>
      have backslash : c = '\\' := by simpa using isLiteral
      subst backslash
      rw [List.flatMap_cons, ih]
      cases rest <;> rfl
  | case5 c rest notComment notString notLiteral ih =>
      simp_all [cells, text, kind, Mode.kindOf, Mode.next]

theorem stringSpans_ofText (opened offset : Nat) (text : Text) :
    stringSpans offset (ofText text) = Mode.code.spans opened offset text := by
  fun_induction ofText text generalizing opened offset with
  | case1 => rfl
  | case2 c rest isComment ih =>
      have semicolon : c = ';' := by simpa using isComment
      subst semicolon
      rw [show Mode.code.spans opened offset (';' :: rest) =
        Mode.comment.spans offset (offset + 1) rest from rfl, Mode.spans_comment, ← ih]
      simp only [stringSpans, Token.text, List.length_cons]
      congr 1
      omega
  | case3 c rest notComment isString ih =>
      have quote : c = '"' := by simpa using isString
      subst quote
      have place : offset + 1 + (splitString rest).1.length =
          offset + ('"' :: (splitString rest).1).length := by
        simp only [List.length_cons]
        omega
      rw [show Mode.code.spans opened offset ('"' :: rest) =
        Mode.string.spans offset (offset + 1) rest from rfl, spans_splitString, ← ih, place]
      rfl
  | case4 c rest notComment notString isLiteral ih =>
      have backslash : c = '\\' := by simpa using isLiteral
      subst backslash
      simp only [stringSpans]
      rw [ih offset]
      cases rest with
      | nil => rfl
      | cons d rest => exact Mode.spans_opened rfl _ _ _ _
  | case5 c rest notComment notString notLiteral ih =>
      have stays : Mode.code.next c = .code := by simp_all [Mode.next]
      rw [Mode.spans, stays]
      exact ih _ _

theorem endInString_ofText (text : Text) :
    endInString (ofText text) = (Mode.code.after text).inString := by
  fun_induction ofText text with
  | case1 => rfl
  | case2 c rest isComment ih =>
      have semicolon : c = ';' := by simpa using isComment
      subst semicolon
      rw [endInString_cons, ih, Mode.after_cons]
      rw [show Mode.code.next ';' = .comment from rfl, Mode.inString_after_comment]
      split
      · next empty => rw [empty]; rfl
      · rfl
  | case3 c rest notComment isString ih =>
      have quote : c = '"' := by simpa using isString
      subst quote
      rw [endInString_cons, ih, Mode.after_cons]
      rw [show Mode.code.next '"' = .string from rfl, inString_after_splitString]
      cases closed : (splitString rest).2.1 with
      | false => simp [splitString_rest_eq_nil closed, isUnclosed]
      | true =>
          split
          · next empty => rw [empty]; rfl
          · rfl
  | case4 c rest notComment notString isLiteral ih =>
      have backslash : c = '\\' := by simpa using isLiteral
      subst backslash
      rw [endInString_cons, ih]
      cases rest with
      | nil => rfl
      | cons d rest =>
          split
          · next empty => rw [show rest = [] from empty]; rfl
          · rfl
  | case5 c rest notComment notString notLiteral ih =>
      have stays : Mode.code.next c = .code := by simp_all [Mode.next]
      rw [endInString_cons, ih, Mode.after_cons, stays]
      split
      · next empty => rw [empty]; rfl
      · rfl

end Token

namespace Snapshot

/-- **Scanning in tokens and scanning by characters agree**, wherever the scan begins. -/
theorem scan_eq_snapshot (text : Text) (inString : Bool) :
    scan text inString = (Mode.start inString).snapshot text := by
  cases inString with
  | false =>
      show (⟨_, _, _⟩ : Snapshot) = ⟨_, _, _⟩
      congr 1
      · exact Token.flatMap_cells_ofText text
      · exact Token.stringSpans_ofText 0 0 text
      · exact Token.endInString_ofText text
  | true =>
      show (⟨_, _, _⟩ : Snapshot) = ⟨_, _, _⟩
      congr 1
      · show _ ++ (Token.ofText _).flatMap Token.cells = Mode.string.cells text
        rw [Token.flatMap_cells_ofText, Token.cells_splitString]
        rfl
      · show _ = Mode.string.spans 0 0 text
        rw [Token.spans_splitString, ← Token.stringSpans_ofText]
        rfl
      · show Token.endInString _ = (Mode.string.after text).inString
        rw [Token.inString_after_splitString, ← Token.endInString_ofText]
        show Token.endInString (_ :: Token.ofText _) = _
        rw [Token.endInString_cons]
        cases closed : (Token.splitString text).2.1 with
        | false => simp [Token.splitString_rest_eq_nil closed, Token.isUnclosed]
        | true =>
            split
            · next empty => rw [empty, Token.ofText_eq_nil.mpr rfl]; rfl
            · rfl

theorem ofText_eq_snapshot (text : Text) : ofText text = Mode.code.snapshot text :=
  scan_eq_snapshot text false

/-- The cells before an offset do not depend on the text behind it. -/
theorem take_cells_ofText {a : Text} {n : Nat} (before : n ≤ a.length) (rest : Text) :
    (ofText (a ++ rest)).cells.take n = (Mode.code.cells a).take n := by
  rw [ofText_eq_snapshot]
  show (Mode.code.cells (a ++ rest)).take n = _
  rw [Mode.cells_append, List.take_append_of_le_length]
  rw [Mode.length_cells]
  exact before

/-- The kind of a character depends on the text before it and on the character. -/
theorem kinds_ofText_append (front rest : Text) (c : Char) :
    (ofText (front ++ c :: rest)).kinds[front.length]? = some ((Mode.code.after front).kindOf c) := by
  rw [ofText_eq_snapshot, kinds, Mode.snapshot, Mode.cells_append, List.map_append,
    List.getElem?_append_right (by simp)]
  simp

theorem kindAt?_natCast (s : Snapshot) (offset : Nat) : s.kindAt? offset = s.kinds[offset]? := by
  rw [kindAt?, if_neg (Int.not_lt.mpr (Int.natCast_nonneg offset)), cellAt?,
    if_pos (Int.natCast_nonneg offset), Int.toNat_natCast, kinds, List.getElem?_map]

/-! ### Scans that go on -/

theorem kinds_scan (text : Text) (flag : Bool) :
    (scan text flag).kinds = ((Mode.start flag).cells text).map Cell.kind := by
  rw [scan_eq_snapshot]
  rfl

theorem endsInString_scan (text : Text) (flag : Bool) :
    (scan text flag).endsInString = ((Mode.start flag).after text).inString := by
  rw [scan_eq_snapshot]
  rfl

/-- What a text is scanned as stays when the text goes on. -/
theorem kinds_scan_append (a b : Text) (flag : Bool) :
    (scan (a ++ b) flag).kinds =
      (scan a flag).kinds ++ (((Mode.start flag).after a).cells b).map Cell.kind := by
  rw [kinds_scan, kinds_scan, Mode.cells_append, List.map_append]

/-- The kinds of a piece of a text depend on the text before it and on the piece. -/
theorem kinds_between (a b c : Text) :
    ((ofText (a ++ (b ++ c))).kinds.drop a.length).take b.length =
      ((Mode.code.after a).cells b).map Cell.kind := by
  have front : (scan a false).kinds.length = a.length := by
    rw [kinds, List.length_map]
    exact size_scan a false
  have piece : (((Mode.code.after a).cells b).map Cell.kind).length = b.length := by
    rw [List.length_map, Mode.length_cells]
  rw [ofText, kinds_scan_append, ← front, List.drop_left, Mode.cells_append, List.map_append, ← piece]
  exact List.take_left

/-- A scan as the machine makes it: one mode behind each character, and no other memory. Where a line
starts, the flag of the scan so far is all that is needed to take it up again. -/
structure FollowsModes (text : Text) (flag : Bool) : Prop where
  kinds : (scan text flag).kinds = ((Mode.start flag).cells text).map Cell.kind
  endsInString : (scan text flag).endsInString = ((Mode.start flag).after text).inString
  begins : ∀ more, (scan text flag).kinds <+: (scan (text ++ more) flag).kinds
  resumes : Text.EndsLine text → ∀ more,
    (scan (text ++ more) flag).kinds =
      (scan text flag).kinds ++ (scan more (scan text flag).endsInString).kinds

/-- **Every scan goes through the modes of its text**, wherever the text is cut. -/
theorem scan_followsModes (text : Text) (flag : Bool) : FollowsModes text flag := by
  refine ⟨kinds_scan text flag, endsInString_scan text flag, fun more => ?_, fun ends more => ?_⟩
  · rw [kinds_scan_append]
    exact List.prefix_append _ _
  · rw [kinds_scan_append, kinds_scan more, endsInString_scan, Mode.start_inString flag ends]

end Snapshot

end LispEditor
