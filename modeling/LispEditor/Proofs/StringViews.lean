import Mathlib.Data.List.Induction
import LispEditor.Proofs.BlankSplice

/-!
# Two views of the strings of a text

A scan tells in two ways where the strings of a text are: by the kind of each character and by the spans
of the strings. The look-up of a span and the question whether an offset is inside a string are answered
from the spans. Both views say the same, also of a string that the text begins in and of one that it
ends in.

A string ends at its first quote that is not escaped. `isEscaped` counts backslashes to tell which quotes
are; the scanner counts nothing and takes characters in pairs.

* `closed_splitString`: the scanner closes a string if there is such a quote.
* `endsInString_iff`: a text ends in a string if its last span reaches the end and holds no such quote.
* `strings_agree`: all of it, for every text.
-/

namespace LispEditor

/-- Whether an offset lies in a span. -/
def Span.Covers (span : Span) (offset : Int) : Prop :=
  span.start ≤ offset ∧ offset < span.stop

namespace Token

/-! ### Closing quotes -/

/-- Whether a backslash takes along the character behind a text. Of the backslashes right before it,
each takes the next one, so their number must be odd. -/
def isEscaped (front : Text) : Bool :=
  (front.reverse.takeWhile (· == '\\')).length % 2 == 1

/-- Whether a text that is read inside a string holds a quote that is not escaped. -/
def HasClosingQuote (body : Text) : Prop :=
  ∃ front rest, body = front ++ '"' :: rest ∧ isEscaped front = false

theorem isEscaped_concat (front : Text) (c : Char) :
    isEscaped (front ++ [c]) = (c == '\\' && !isEscaped front) := by
  rw [isEscaped, isEscaped, List.reverse_append, List.reverse_singleton, List.singleton_append]
  by_cases backslash : c = '\\'
  · subst backslash
    rw [List.takeWhile_cons_of_pos (by rfl), List.length_cons, beq_self_eq_true, Bool.true_and,
      Bool.eq_iff_iff]
    simp only [beq_iff_eq, Bool.not_eq_true', beq_eq_false_iff_ne]
    omega
  · simp [backslash]

/-- What is read up to a place where nothing waits does not matter behind it. -/
theorem isEscaped_append {start : Text} (settled : isEscaped start = false) (front : Text) :
    isEscaped (start ++ front) = isEscaped front := by
  induction front using List.reverseRecOn with
  | nil =>
      rw [List.append_nil, settled]
      rfl
  | append_singleton front c ih => rw [← List.append_assoc, isEscaped_concat, isEscaped_concat, ih]

theorem hasClosingQuote_append {start : Text} (settled : isEscaped start = false)
    (none : ¬ HasClosingQuote start) (body : Text) :
    HasClosingQuote (start ++ body) ↔ HasClosingQuote body := by
  constructor
  · rintro ⟨front, rest, same, plain⟩
    rcases in_or_behind same with ⟨others, inStart, -⟩ | ⟨more, rfl, inBody⟩
    · exact absurd ⟨front, others, inStart, plain⟩ none
    · rw [isEscaped_append settled] at plain
      exact ⟨more, rest, inBody, plain⟩
  · rintro ⟨front, rest, rfl, plain⟩
    refine ⟨start ++ front, rest, (List.append_assoc _ _ _).symm, ?_⟩
    rw [isEscaped_append settled, plain]

theorem not_hasClosingQuote_nil : ¬ HasClosingQuote [] := by
  rintro ⟨front, rest, same, -⟩
  simp at same

theorem not_hasClosingQuote_single {c : Char} (other : c ≠ '"') : ¬ HasClosingQuote [c] := by
  rintro ⟨front, rest, same, -⟩
  cases front with
  | nil => exact other (List.cons.inj same).1
  | cons d front => simp at same

theorem not_hasClosingQuote_pair (c : Char) : ¬ HasClosingQuote ['\\', c] := by
  rintro ⟨front, rest, same, plain⟩
  cases front with
  | nil => cases (List.cons.inj same).1
  | cons d front =>
      obtain ⟨rfl, others⟩ := List.cons.inj same
      cases front with
      | nil => cases plain
      | cons e front => simp at others

/-- **The scanner closes a string exactly if a quote in it is not escaped.** -/
theorem closed_splitString (text : Text) :
    (splitString text).2.1 = true ↔ HasClosingQuote (splitString text).1 := by
  fun_induction splitString text with
  | case1 => simp [not_hasClosingQuote_nil]
  | case2 c rest body closed after split ih =>
      rw [split] at ih
      have settled : isEscaped ['\\', c] = false := by
        rw [show ['\\', c] = ['\\'] ++ [c] from rfl, isEscaped_concat]
        exact Bool.and_false _
      exact ih.trans (hasClosingQuote_append settled (not_hasClosingQuote_pair c) body).symm
  | case3 c rest _ quote =>
      obtain rfl : c = '"' := by simpa using quote
      exact iff_of_true rfl ⟨[], [], rfl, rfl⟩
  | case4 c rest single quote body closed after split ih =>
      rw [split] at ih
      have other : c ≠ '"' := by simpa using quote
      by_cases backslash : c = '\\'
      -- A backslash in this case is the last character.
      · cases rest with
        | nil =>
            cases split
            exact iff_of_false (by simp) (not_hasClosingQuote_single other)
        | cons d rest => exact (single d rest backslash rfl).elim
      · have settled : isEscaped [c] = false := by
          rw [show [c] = [] ++ [c] from rfl, isEscaped_concat]
          simp [backslash]
        exact ih.trans (hasClosingQuote_append settled (not_hasClosingQuote_single other) body).symm

/-! ### Strings among the tokens -/

theorem splitString_eq_nil {text : Text} (empty : (splitString text).1 = []) : text = [] := by
  fun_cases splitString text with
  | case1 => rfl
  | case2 => simp_all [splitString]
  | case3 => simp_all [splitString]
  | case4 => simp_all [splitString]

/-- A token as it stands in a text that is scanned from code. -/
inductive Scanned : Token → Prop where
  | code (c : Char) : Scanned (.code c)
  | comment (chars : Text) : Scanned (.comment (';' :: chars))
  | string (rest : Text) : Scanned (.string ('"' :: (splitString rest).1) (splitString rest).2.1)
  | literal (chars : Text) : Scanned (.literal ('\\' :: chars))

theorem scanned_of_mem {t : Text} {token : Token} (member : token ∈ ofText t) : token.Scanned := by
  fun_induction ofText t with
  | case1 => cases member
  | case2 c rest isComment ih =>
      obtain rfl : c = ';' := by simpa using isComment
      rcases List.mem_cons.mp member with rfl | later
      · exact .comment _
      · exact ih later
  | case3 c rest notComment isString ih =>
      obtain rfl : c = '"' := by simpa using isString
      rcases List.mem_cons.mp member with rfl | later
      · exact .string _
      · exact ih later
  | case4 c rest notComment notString isLiteral ih =>
      obtain rfl : c = '\\' := by simpa using isLiteral
      rcases List.mem_cons.mp member with rfl | later
      · exact .literal _
      · exact ih later
  | case5 c rest notComment notString notLiteral ih =>
      rcases List.mem_cons.mp member with rfl | later
      · exact .code _
      · exact ih later

theorem Scanned.text_ne_nil {token : Token} (scanned : token.Scanned) : token.text ≠ [] := by
  cases scanned <;> exact List.cons_ne_nil _ _

/-- A string of a scan begins with a quote, unless the scan began in it. It is closed exactly if there is
a closing quote behind that. -/
theorem exists_body {text chars : Text} {flag closed : Bool} {before after : List Token}
    (division : scan text flag = before ++ string chars closed :: after) :
    ∃ body, chars = (if flag && before.isEmpty then body else '"' :: body) ∧
      (closed = true ↔ HasClosingQuote body) := by
  have quoted {t : Text} (member : string chars closed ∈ ofText t) :
      ∃ body, chars = '"' :: body ∧ (closed = true ↔ HasClosingQuote body) := by
    cases scanned_of_mem member with
    | string rest => exact ⟨_, rfl, closed_splitString rest⟩
  cases flag with
  | false =>
      refine quoted (t := text) ?_
      rw [show ofText text = _ from division]
      exact List.mem_append_right before List.mem_cons_self
  | true =>
      cases before with
      | nil =>
          obtain ⟨rfl, rfl⟩ := Token.string.inj (List.cons.inj division).1
          exact ⟨_, rfl, closed_splitString text⟩
      | cons first before =>
          refine quoted (t := (splitString text).2.2) ?_
          rw [(List.cons.inj division).2]
          exact List.mem_append_right before List.mem_cons_self

/-- Only the first token of a scan can be empty. -/
theorem text_ne_nil_of_behind {text : Text} {flag : Bool} {first token : Token}
    {before after : List Token} (division : scan text flag = before ++ first :: after)
    (member : token ∈ after) : token.text ≠ [] := by
  have behind : token ∈ (scan text flag).tail := by
    rw [division]
    cases before with
    | nil => exact member
    | cons _ before => exact List.mem_append_right before (List.mem_cons_of_mem first member)
  cases flag with
  | false => exact (scanned_of_mem (List.mem_of_mem_tail behind)).text_ne_nil
  | true => exact (scanned_of_mem behind).text_ne_nil

/-- The span of some characters that begin at an offset. -/
def spanAt (offset : Nat) (chars : Text) : Span :=
  ⟨offset, (offset + chars.length : Nat)⟩

theorem stringSpans_append (offset : Nat) (a b : List Token) :
    stringSpans offset (a ++ b) =
      stringSpans offset a ++ stringSpans (offset + (a.flatMap text).length) b := by
  induction a generalizing offset with
  | nil => rfl
  | cons token others ih =>
      have place : offset + ((token :: others).flatMap text).length =
          offset + token.text.length + (others.flatMap text).length := by
        rw [List.flatMap_cons, List.length_append, Nat.add_assoc]
      rw [place, List.cons_append]
      cases token <;> simp only [stringSpans, ih, List.cons_append]

/-- Every span is that of a string among the tokens. -/
theorem exists_of_mem_stringSpans {offset : Nat} {tokens : List Token} {span : Span}
    (member : span ∈ stringSpans offset tokens) :
    ∃ before chars closed after, tokens = before ++ string chars closed :: after ∧
      span = spanAt (offset + (before.flatMap text).length) chars := by
  induction tokens generalizing offset with
  | nil => cases member
  | cons token others ih =>
      have inOthers (later : span ∈ stringSpans (offset + token.text.length) others) :
          ∃ before chars closed after, token :: others = before ++ string chars closed :: after ∧
            span = spanAt (offset + (before.flatMap text).length) chars := by
        obtain ⟨before, chars, closed, after, rfl, rfl⟩ := ih later
        refine ⟨token :: before, chars, closed, after, rfl, ?_⟩
        rw [List.flatMap_cons, List.length_append, Nat.add_assoc]
      cases token with
      | string chars closed =>
          rcases List.mem_cons.mp member with rfl | later
          · exact ⟨[], chars, closed, others, rfl, rfl⟩
          · exact inOthers later
      | code c => exact inOthers member
      | comment chars => exact inOthers member
      | literal chars => exact inOthers member

end Token

namespace Snapshot

open Token (HasClosingQuote spanAt)

/-! ### The string that a text ends in -/

/-- The characters of a string behind its opening quote. The string that a scan begins in was opened
before the text. -/
def stringBody (text : Text) (flag : Bool) (span : Span) : Text :=
  Text.slice text (if flag && span.start == 0 then 0 else span.start + 1) span.stop

/-- Whether a string reaches the end of a text and no quote closes it. -/
def IsUnterminated (text : Text) (flag : Bool) (span : Span) : Prop :=
  span.stop = text.length ∧ ¬ HasClosingQuote (stringBody text flag span)

theorem stringBody_carried (body rest : Text) : stringBody (body ++ rest) true (spanAt 0 body) = body := by
  rw [stringBody, spanAt, Nat.zero_add]
  exact Text.slice_append [] body rest

theorem stringBody_quoted {flag : Bool} {front : Text} (begun : flag = true → front ≠ [])
    (body rest : Text) :
    stringBody (front ++ ('"' :: body ++ rest)) flag (spanAt front.length ('"' :: body)) = body := by
  have later : (flag && ((front.length : Int) == 0)) = false := by
    cases flag with
    | false => rfl
    | true => simpa using begun rfl
  have start : (front.length : Int) + 1 = (front ++ ['"']).length := by simp
  have stop : ((front.length + ('"' :: body).length : Nat) : Int) = (front ++ ['"'] ++ body).length := by
    simp only [List.length_append, List.length_cons, List.length_nil]
    omega
  have division : front ++ ('"' :: body ++ rest) = front ++ ['"'] ++ body ++ rest := by simp
  simp only [stringBody, spanAt, later, Bool.false_eq_true, if_false]
  rw [start, stop, division, Text.slice_append]

/-- Only the string that a scan begins in begins where the text does. -/
theorem eq_nil_of_first {text : Text} {token : Token} {before after : List Token}
    (division : Token.scan text true = before ++ token :: after)
    (empty : before.flatMap Token.text = []) : before = [] := by
  cases before with
  | nil => rfl
  | cons first before =>
      obtain ⟨rfl, others⟩ := List.cons.inj division
      have noChars : (Token.splitString text).1 = [] := by
        rw [List.flatMap_cons, List.append_eq_nil_iff] at empty
        exact empty.1
      obtain rfl := Token.splitString_eq_nil noChars
      rw [show Token.ofText (Token.splitString []).2.2 = [] from Token.ofText_eq_nil.mpr rfl] at others
      simp at others

/-- A string is closed exactly if its content holds a closing quote. -/
theorem closed_iff_stringBody {text chars : Text} {flag closed : Bool} {before after : List Token}
    (division : Token.scan text flag = before ++ .string chars closed :: after) :
    closed = true ↔
      HasClosingQuote (stringBody text flag (spanAt (before.flatMap Token.text).length chars)) := by
  obtain ⟨body, rfl, isClosed⟩ := Token.exists_body division
  have whole := Token.flatMap_text_scan text flag
  rw [division, List.flatMap_append, List.flatMap_cons, Token.text] at whole
  suffices same : stringBody text flag (spanAt (before.flatMap Token.text).length
      (if flag && before.isEmpty then body else '"' :: body)) = body by
    rw [same]
    exact isClosed
  cases carried : flag && before.isEmpty with
  | true =>
      obtain ⟨rfl, empty⟩ := Bool.and_eq_true_iff.mp carried
      obtain rfl := List.isEmpty_iff.mp empty
      rw [← whole]
      exact stringBody_carried body _
  | false =>
      rw [carried] at whole
      rw [← whole]
      refine stringBody_quoted ?_ body _
      rintro rfl empty
      obtain rfl := eq_nil_of_first division empty
      cases carried

/-- **A text ends in a string exactly if its last string is unterminated.** -/
theorem endsInString_iff (text : Text) (flag : Bool) :
    (scan text flag).endsInString = true ↔
      ∃ span, (scan text flag).strings.getLast? = some span ∧ IsUnterminated text flag span := by
  have whole := Token.flatMap_text_scan text flag
  constructor
  · intro ends
    obtain ⟨token, last, unclosed⟩ := (Option.any_eq_true _ _).mp ends
    obtain ⟨before, division⟩ := List.getLast?_eq_some_iff.mp last
    cases token with
    | code c => cases unclosed
    | comment chars => cases unclosed
    | literal chars => cases unclosed
    | string chars closed =>
        have isOpen : closed = false := by simpa [Token.isUnclosed] using unclosed
        refine ⟨spanAt (before.flatMap Token.text).length chars, ?_, ?_, ?_⟩
        · show (Token.stringSpans 0 (Token.scan text flag)).getLast? = _
          rw [division, Token.stringSpans_append, Nat.zero_add]
          exact List.getLast?_concat
        · rw [division, List.flatMap_append, List.flatMap_singleton] at whole
          rw [← whole, List.length_append]
          rfl
        · rw [← closed_iff_stringBody division, isOpen]
          exact Bool.false_ne_true
  · rintro ⟨span, last, atEnd, noQuote⟩
    obtain ⟨before, chars, closed, after, division, rfl⟩ :=
      Token.exists_of_mem_stringSpans (List.mem_of_getLast? last)
    rw [Nat.zero_add] at atEnd noQuote
    rw [division, List.flatMap_append, List.flatMap_cons, Token.text] at whole
    have nothingBehind : after.flatMap Token.text = [] := by
      have size := congrArg List.length whole
      simp only [spanAt] at atEnd
      simp only [List.length_append] at size
      exact List.length_eq_zero_iff.mp (by omega)
    have isLast : after = [] := by
      refine List.eq_nil_iff_forall_not_mem.mpr fun token member => ?_
      exact Token.text_ne_nil_of_behind division member
        (List.flatMap_eq_nil_iff.mp nothingBehind token member)
    have isOpen : closed = false := by
      rw [← closed_iff_stringBody division] at noQuote
      exact Bool.eq_false_iff.mpr noQuote
    show Token.endInString (Token.scan text flag) = true
    rw [division, isLast, isOpen, Token.endInString, List.getLast?_concat]
    rfl

/-! ### The two views -/

/-- Whether an offset lies in a text and its character is of kind string. -/
def IsStringAt (text : Text) (flag : Bool) (offset : Int) : Prop :=
  0 ≤ offset ∧ offset < text.length ∧ (scan text flag).kindAt? offset = some .string

/-- The spans are made of the characters of kind string. -/
theorem exists_covers_iff (text : Text) (flag : Bool) (offset : Int) :
    (∃ span ∈ (scan text flag).strings, span.Covers offset) ↔ IsStringAt text flag offset := by
  constructor
  · rintro ⟨span, member, low, high⟩
    obtain ⟨nonneg, -, inside⟩ := within_scan member
    obtain ⟨place, rfl⟩ := Int.eq_ofNat_of_zero_le (Int.le_trans nonneg low)
    refine ⟨Int.natCast_nonneg place, Int.lt_of_lt_of_le high inside, ?_⟩
    rw [kindAt?_natCast, kinds, List.getElem?_map]
    rw [scan_eq_snapshot] at member ⊢
    exact Mode.kind_of_mem_spans (Nat.le_refl 0) member (by omega) (by omega)
  · rintro ⟨nonneg, inside, string⟩
    obtain ⟨place, rfl⟩ := Int.eq_ofNat_of_zero_le nonneg
    rw [kindAt?_natCast, kinds, List.getElem?_map] at string
    rw [scan_eq_snapshot] at string ⊢
    obtain ⟨span, member, low, high⟩ := Mode.exists_span_of_kind (Nat.le_refl 0) string
    exact ⟨span, member, by omega, by omega⟩

/-- The spans of a scan begin and end one behind the other. -/
theorem increasing_scan (text : Text) (flag : Bool) :
    (scan text flag).strings.Pairwise fun a b => a.start < b.start ∧ a.stop ≤ b.start := by
  by_cases empty : text = []
  · subst empty
    rw [scan_eq_snapshot]
    cases flag with
    | false => exact .nil
    | true => exact List.pairwise_singleton _ _
  · refine (ordered_scan text flag).imp_of_mem fun member _ apart => ⟨?_, apart⟩
    have some := nonempty_scan empty member
    omega

/-- An offset anywhere is inside a string exactly if the text up to it ends in one. -/
theorem inString_eq_endsInString (text : Text) (flag : Bool) (offset : Int)
    (determined : 1 ≤ Text.clamp text.length offset ∨ flag = false) :
    (scan text flag).inString offset =
      (scan (text.take (Text.clamp text.length offset)) flag).endsInString := by
  have place : (scan text flag).clamp offset = Text.clamp text.length offset := by
    rw [clamp, size_scan]
  have nearest : (scan text flag).inString offset =
      (scan text flag).inString (Text.clamp text.length offset : Nat) := by
    rw [inString, inString, ← place, clamp_clamp]
  have inside : Text.clamp text.length offset ≤ text.length := Text.clamp_le _ _
  generalize Text.clamp text.length offset = q at *
  obtain ⟨a, b, rfl, rfl⟩ : ∃ a b, text = a ++ b ∧ q = a.length :=
    ⟨text.take q, text.drop q, (List.take_append_drop q text).symm,
      (List.length_take_of_le inside).symm⟩
  rw [nearest, List.take_left, endsInString_scan]
  refine inString_scan a b flag (determined.imp_left fun some => ?_)
  exact List.ne_nil_of_length_pos some

/-- What kinds and spans of a scan have to do with each other, and with the questions that are asked of
them: which span an offset lies in, and whether it is inside a string. -/
structure StringsAgree (text : Text) (flag : Bool) : Prop where
  kinds : (scan text flag).kinds.length = text.length
  within : ∀ span ∈ (scan text flag).strings, 0 ≤ span.start ∧ span.stop ≤ text.length
  increasing : (scan text flag).strings.Pairwise fun a b => a.start < b.start ∧ a.stop ≤ b.start
  covers : ∀ offset,
    (∃ span ∈ (scan text flag).strings, span.Covers offset) ↔ IsStringAt text flag offset
  ends : (scan text flag).endsInString = true ↔
    ∃ span, (scan text flag).strings.getLast? = some span ∧ IsUnterminated text flag span
  lookUp : ∀ offset span, (scan text flag).stringSpan? offset = some span ↔
    span ∈ (scan text flag).strings ∧ span.Covers offset
  found : ∀ offset,
    ((scan text flag).stringSpan? offset).isSome = true ↔ IsStringAt text flag offset
  inside : ∀ offset, 1 ≤ Text.clamp text.length offset ∨ flag = false →
    (scan text flag).inString offset =
      (scan (text.take (Text.clamp text.length offset)) flag).endsInString

/-- **Kinds and spans tell the same strings**, of every text and wherever its scan begins. -/
theorem strings_agree (text : Text) (flag : Bool) : StringsAgree text flag := by
  have lookUp (offset : Int) (span : Span) : (scan text flag).stringSpan? offset = some span ↔
      span ∈ (scan text flag).strings ∧ span.Covers offset :=
    stringSpan?_eq_some_iff (ordered_scan text flag) (valid_scan text flag)
  refine ⟨?_, fun span member => ?_, increasing_scan text flag, exists_covers_iff text flag,
    endsInString_iff text flag, lookUp, fun offset => ?_, inString_eq_endsInString text flag⟩
  · rw [kinds, List.length_map]
    exact size_scan text flag
  · exact ⟨(within_scan member).1, (within_scan member).2.2⟩
  · rw [← exists_covers_iff, Option.isSome_iff_exists]
    simp only [lookUp]

end Snapshot

end LispEditor
