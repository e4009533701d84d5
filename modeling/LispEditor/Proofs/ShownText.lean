import LispEditor.Proofs.Utf16Positions
import LispEditor.Text.Shown

/-!
# What a document shows

A text that is shown has the same lengths and positions as the one that is held, character by
character. What a document shows is a text that it would hold and show as it is.

* `Text.shown_shown`: a text that is shown once is shown as it is.
* `Text.utf16Position_shown`, `Text.ofUtf16Position_shown`: positions are those of the text that is
  held.
* `Text.settle_eq_self`: a text that is shown as it is is held as it is.
* `Text.shown_settle`: how a text is shown that was put in.
-/

namespace LispEditor.Text

variable {text : Text} {c : Char}

/-- The characters that are not shown as they are: the carriage return, the line and the paragraph
separator, the two edges of a frame, and the no-break space. -/
def disguised : List Char :=
  ['\r', '\u2028', '\u2029', '\ufdd0', '\ufdd1', '\u00a0']

theorem mem_of_isSeparator (separator : isSeparator c = true) :
    c ∈ ['\r', '\u2029', '\ufdd0', '\ufdd1', '\u2028'] := by
  simp only [isSeparator, isBreak, Bool.or_eq_true, decide_eq_true_eq, beq_iff_eq] at separator
  simpa only [List.mem_cons, List.not_mem_nil, or_false, or_assoc] using separator

/-- A character is shown as a newline, as a space or as it is. -/
theorem shownChar_cases (c : Char) :
    isSeparator c = true ∧ shownChar c = '\n' ∨ c = '\u00a0' ∧ shownChar c = ' ' ∨
      isSeparator c = false ∧ shownChar c = c := by
  unfold shownChar
  split
  next separator => exact .inl ⟨separator, rfl⟩
  next other =>
    split
    next space => exact .inr (.inl ⟨eq_of_beq space, rfl⟩)
    next => exact .inr (.inr ⟨Bool.eq_false_iff.mpr other, rfl⟩)

theorem shownChar_shownChar (c : Char) : shownChar (shownChar c) = shownChar c := by
  rcases shownChar_cases c with ⟨-, newline⟩ | ⟨-, space⟩ | ⟨-, same⟩
  · rw [newline]
    rfl
  · rw [space]
    rfl
  · rw [same, same]

/-- A character that is shown as it is begins no paragraph. -/
theorem isBreak_eq_false (same : shownChar c = c) : isBreak c = false := by
  rw [Bool.eq_false_iff]
  intro breaks
  have separator : isSeparator c = true := by rw [isSeparator, breaks, Bool.true_or]
  have newline : c = '\n' := by rw [← same, shownChar, if_pos separator]
  exact absurd breaks (newline ▸ by decide)

/-- Exactly these characters are not shown as they are. -/
theorem shownChar_eq_self_iff : shownChar c = c ↔ c ∉ disguised := by
  constructor
  · intro same member
    simp only [disguised, List.mem_cons, List.not_mem_nil, or_false] at member
    rcases member with rfl | rfl | rfl | rfl | rfl | rfl <;> exact absurd same (by decide)
  · intro other
    rcases shownChar_cases c with ⟨separator, -⟩ | ⟨rfl, -⟩ | ⟨-, same⟩
    · have member := mem_of_isSeparator separator
      simp only [disguised, List.mem_cons, List.not_mem_nil, or_false] at member other
      grind
    · exact absurd (by decide) other
    · exact same

/-! ### Lengths and positions -/

theorem shown_append (a b : Text) : shown (a ++ b) = shown a ++ shown b :=
  List.map_append

@[simp]
theorem length_shown (text : Text) : (shown text).length = text.length :=
  List.length_map shownChar

theorem shown_take (text : Text) (count : Nat) : shown (text.take count) = (shown text).take count :=
  List.map_take

theorem shown_drop (text : Text) (count : Nat) : shown (text.drop count) = (shown text).drop count :=
  List.map_drop

theorem unitsOf_shownChar (c : Char) : unitsOf (shownChar c) = unitsOf c := by
  rcases shownChar_cases c with ⟨separator, newline⟩ | ⟨rfl, space⟩ | ⟨-, same⟩
  · rw [newline]
    have member := mem_of_isSeparator separator
    simp only [List.mem_cons, List.not_mem_nil, or_false] at member
    rcases member with rfl | rfl | rfl | rfl | rfl <;> rfl
  · rw [space]
    rfl
  · rw [same]

@[simp]
theorem utf16Length_shown (text : Text) : utf16Length (shown text) = utf16Length text := by
  induction text with
  | nil => rfl
  | cons c rest ih =>
      show unitsOf (shownChar c) + utf16Length (shown rest) = unitsOf c + utf16Length rest
      rw [unitsOf_shownChar, ih]

@[simp]
theorem utf16Position_shown (text : Text) (offset : Int) :
    utf16Position (shown text) offset = utf16Position text offset := by
  rw [utf16Position, length_shown, ← shown_take, utf16Length_shown, utf16Position]

@[simp]
theorem ofUtf16Position_shown (text : Text) (position : Int) :
    ofUtf16Position (shown text) position = ofUtf16Position text position := by
  induction text generalizing position with
  | nil => rfl
  | cons c rest ih =>
      show (if position ≤ 0 then 0
        else ofUtf16Position (shown rest) (position - unitsOf (shownChar c)) + 1) = _
      rw [unitsOf_shownChar, ih, ofUtf16Position]

/-! ### Texts that are shown as they are -/

@[simp]
theorem shown_shown (text : Text) : shown (shown text) = shown text := by
  simp [shown, shownChar_shownChar]

theorem shown_eq_self_iff : shown text = text ↔ ∀ c ∈ text, shownChar c = c := by
  induction text with
  | nil => simp [shown]
  | cons c rest ih =>
      rw [List.forall_mem_cons, ← ih]
      exact List.cons_eq_cons

theorem not_mem_shown (disguise : c ∈ disguised) : c ∉ shown text := by
  intro member
  obtain ⟨other, -, rfl⟩ := List.mem_map.mp member
  exact shownChar_eq_self_iff.mp (shownChar_shownChar other) disguise

/-- Characters of a text that is shown as it is make another one, and so do newlines and spaces. -/
theorem shown_eq_self_of_mem {other : Text} (clear : shown text = text)
    (origin : ∀ c ∈ other, c ∈ text ∨ c = '\n' ∨ c = ' ') : shown other = other := by
  refine shown_eq_self_iff.mpr fun c member => ?_
  rcases origin c member with old | rfl | rfl
  · exact shown_eq_self_iff.mp clear c old
  · rfl
  · rfl

theorem settle_cons (breaks : c ≠ '\r') (rest : Text) :
    settle (c :: rest) = settleChar c :: settle rest := by
  rw [settle]
  rintro _ rfl
  exact absurd rfl breaks

/-- A character that is shown as it is is held as it is. -/
theorem settleChar_eq_self (same : shownChar c = c) : settleChar c = c := by
  rw [settleChar, isBreak_eq_false same, if_neg Bool.false_ne_true]

/-- **A text that is shown as it is is held as it is.** -/
theorem settle_eq_self (clear : shown text = text) : settle text = text := by
  induction text with
  | nil => rfl
  | cons c rest ih =>
      obtain ⟨same, others⟩ := List.cons.inj clear
      have other : c ≠ '\r' := by
        rintro rfl
        exact absurd same (by decide)
      rw [settle_cons other, settleChar_eq_self same, ih others]

theorem shownChar_settleChar (c : Char) : shownChar (settleChar c) = shownChar c := by
  unfold settleChar
  split
  next breaks =>
    rw [shownChar, shownChar, isSeparator, isSeparator, breaks]
    rfl
  next => rfl

theorem unitsOf_settleChar (c : Char) : unitsOf (settleChar c) = unitsOf c := by
  rw [← unitsOf_shownChar (settleChar c), shownChar_settleChar, unitsOf_shownChar]

/-- **A text without carriage returns is shown alike whether it was put in or is held.** -/
theorem shown_settle (free : '\r' ∉ text) : shown (settle text) = shown text := by
  induction text with
  | nil => rfl
  | cons c rest ih =>
      obtain ⟨other, rest_free⟩ := not_or.mp (mt List.mem_cons.mpr free)
      rw [settle_cons (Ne.symm other)]
      exact congrArg₂ List.cons (shownChar_settleChar c) (ih rest_free)

/-- One character is held as one. -/
theorem settle_singleton (c : Char) : settle [c] = [settleChar c] := by
  by_cases breaks : c = '\r'
  · subst breaks
    rfl
  · exact settle_cons breaks []

end LispEditor.Text
