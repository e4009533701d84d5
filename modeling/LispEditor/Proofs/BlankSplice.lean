import LispEditor.Proofs.StringSpans

/-!
# Splicing blanks

A snapshot into which blanks are spliced is the snapshot that a new scan would give, if the blanks
stand where the scan is in code. `replaceBlank_ofText` says so for every such place and all
separators; that a line starts in code or in a string makes it apply to the blanks at the start of
every line that begins outside strings.
-/

namespace LispEditor

namespace Text

variable {α : Type}

theorem resolve_append (a b : List α) : resolve (a ++ b).length (a.length : Int) = a.length := by
  refine resolve_natCast_of_le ?_
  rw [List.length_append]
  exact Nat.le_add_right _ _

theorem sliceTo_append (a b : List α) : sliceTo (a ++ b) (a.length : Int) = a := by
  rw [sliceTo, resolve_append, List.take_left]

theorem sliceFrom_append (a b : List α) : sliceFrom (a ++ b) (a.length : Int) = b := by
  rw [sliceFrom, resolve_append, List.drop_left]

/-- A slice whose bounds fall between pieces is the piece between them. -/
theorem slice_append (a old b : List α) :
    slice (a ++ old ++ b) (a.length : Int) ((a ++ old).length : Int) = old := by
  rw [slice, sliceTo_append, List.append_assoc a old b, resolve_append, List.drop_left]

/-- A splice whose bounds fall between pieces replaces the piece between them. -/
theorem splice_append (a old b new : List α) :
    splice (a ++ old ++ b) (a.length : Int) ((a ++ old).length : Int) new = a ++ new ++ b := by
  rw [splice, sliceFrom_append, List.append_assoc a old b, sliceTo_append]

end Text

namespace Mode

/-- Moving a text that begins outside strings moves its strings. -/
theorem spans_move {mode : Mode} (outside : mode.inString = false) (here there : Nat) (text : Text) :
    mode.spans 0 there text =
      (mode.spans 0 here text).map (·.shift ((there : Int) - here)) := by
  have moved : ∀ offset : Nat, mode.spans 0 offset text =
      (mode.spans 0 0 text).map (·.shift offset) := by
    intro offset
    rw [← spans_shift mode 0 0 offset text, Nat.zero_add]
    exact spans_opened outside 0 offset offset text
  rw [moved there, moved here, List.map_map]
  refine List.map_congr_left fun span _ => ?_
  simp only [Span.shift, Function.comp_apply, Span.mk.injEq]
  omega

end Mode

namespace Snapshot

variable {a old new b : Text}

/-- The strings of a text with separators in the middle are those before and those behind them. -/
theorem strings_around (inCode : Mode.code.after a = .code)
    (separators : ∀ c ∈ old, isSeparator c = true) :
    (ofText (a ++ old ++ b)).strings =
      Mode.code.spans 0 0 a ++ Mode.code.spans 0 (a ++ old).length b := by
  have stays : Mode.code.after (a ++ old) = .code := by
    rw [Mode.after_append, inCode, Mode.after_separators separators]
  have outside : (Mode.code.after a).inString = false := by rw [inCode]; rfl
  rw [ofText_eq_snapshot]
  show Mode.code.spans 0 0 (a ++ old ++ b) = _
  rw [Mode.spans_append (by rw [stays]; rfl) (Nat.le_refl 0) b 0,
    Mode.spans_append outside (Nat.le_refl 0) old 0, inCode, Mode.spans_separators separators,
    stays, List.append_nil, Nat.zero_add]

/-- The cells of a text with separators in the middle. -/
theorem cells_around (inCode : Mode.code.after a = .code)
    (separators : ∀ c ∈ old, isSeparator c = true) :
    (ofText (a ++ old ++ b)).cells =
      Mode.code.cells a ++ (old.map fun c => ⟨c, .code⟩) ++ Mode.code.cells b := by
  rw [ofText_eq_snapshot]
  show Mode.code.cells (a ++ old ++ b) = _
  rw [Mode.cells_append, Mode.cells_append, Mode.after_append, inCode,
    Mode.after_separators separators, Mode.cells_separators separators]

/-- Only the text behind separators decides whether the whole ends in a string. -/
theorem endsInString_around (inCode : Mode.code.after a = .code)
    (separators : ∀ c ∈ old, isSeparator c = true) :
    (ofText (a ++ old ++ b)).endsInString = (Mode.code.after b).inString := by
  rw [ofText_eq_snapshot]
  show (Mode.code.after (a ++ old ++ b)).inString = _
  rw [Mode.after_append, Mode.after_append, inCode, Mode.after_separators separators]

/-- **Splicing separators equals scanning again**, wherever the scan is in code. -/
theorem replaceBlank_ofText (inCode : Mode.code.after a = .code)
    (separators : ∀ c ∈ old, isSeparator c = true)
    (separators' : ∀ c ∈ new, isSeparator c = true) :
    (ofText (a ++ old ++ b)).replaceBlank a.length (a ++ old).length new =
      ofText (a ++ new ++ b) := by
  have before : ∀ span ∈ Mode.code.spans 0 0 a,
      decide (span.start < ((a ++ old).length : Int)) = true := by
    intro span member
    have high := (Mode.spans_bounds (Nat.le_refl 0) member).2.2
    have nonempty := Mode.spans_nonempty (Or.inl rfl) member
    simp only [List.length_append]
    exact decide_eq_true (by omega)
  have behind : ∀ span ∈ Mode.code.spans 0 (a ++ old).length b,
      decide (span.start < ((a ++ old).length : Int)) = false := by
    intro span member
    have low := (Mode.spans_bounds (Nat.zero_le _) member).1
    exact decide_eq_false (Int.not_lt.mpr low)
  have distance : ((a ++ new).length : Int) - (a ++ old).length =
      new.length - ((a ++ old).length - a.length) := by
    simp only [List.length_append]
    omega
  have cells : (ofText (a ++ new ++ b)).cells =
      Text.splice (ofText (a ++ old ++ b)).cells a.length (a ++ old).length
        (new.map fun c => ⟨c, .code⟩) := by
    have shape := Text.splice_append (Mode.code.cells a) (old.map fun c => (⟨c, .code⟩ : Cell))
      (Mode.code.cells b) (new.map fun c => ⟨c, .code⟩)
    simp only [List.length_append, List.length_map, Mode.length_cells] at shape
    rw [cells_around inCode separators, cells_around inCode separators', List.length_append]
    exact shape.symm
  have strings : (ofText (a ++ new ++ b)).strings =
      Mode.code.spans 0 0 a ++ (Mode.code.spans 0 (a ++ old).length b).map
        (·.shift (new.length - ((a ++ old).length - a.length))) := by
    rw [strings_around inCode separators', Mode.spans_move rfl (a ++ old).length (a ++ new).length b,
      distance]
  show (⟨_, _, _⟩ : Snapshot) = _
  rw [strings_around inCode separators, partitionPoint_append before behind, List.take_left,
    List.drop_left, ← strings, ← cells, endsInString_around inCode separators,
    ← endsInString_around inCode separators']

end Snapshot

end LispEditor
