import LispEditor.Proofs.MotionInverse

/-!
# The column that a line should start at

What the advice for a line ought to be, said without any motion and from the text above the line alone.
An opener is unclosed if in no stretch behind it more groups are closed than opened. The last unclosed
opener above the line decides: its shape, the indentation of its own line, and the first character
behind it that is no blank.

* `enclosingCloser_eq_none_iff`: a search for a closer against counts of brackets.
* `mem_stepCells_iff`: the stack of open groups holds the unclosed openers.
* `head?_stepCells_eq_some_iff`: its top is the last of them.
* `advise_iff_prescribes`: the advice is what is prescribed, and nothing below the line changes it.
-/

namespace LispEditor

/-! ### Unclosed openers -/

/-- The cell at `place` opens a group that nothing behind it closes. -/
structure Unclosed (cells : List Cell) (place : Nat) : Prop where
  opens : ∃ cell ∈ cells[place]?, cell.opens = true
  open_behind : ∀ run, run <+: cells.drop (place + 1) →
    run.countP Cell.closes ≤ run.countP Cell.opens

/-- The last opener of some cells that nothing behind it closes. -/
structure LastUnclosed (cells : List Cell) (place : Nat) : Prop where
  unclosed : Unclosed cells place
  last : ∀ other, Unclosed cells other → other ≤ place

/-- A search for a closer fails exactly if in no stretch from the start on there are more closers than
openers, with `depth` groups to be left first. -/
theorem enclosingCloser_eq_none_iff {depth : Nat} {cells : List Cell} :
    enclosingCloser depth cells = none ↔
      ∀ run, run <+: cells → run.countP Cell.closes ≤ run.countP Cell.opens + depth := by
  induction cells generalizing depth with
  | nil =>
      refine ⟨fun _ run start => ?_, fun _ => rfl⟩
      rw [List.prefix_nil.mp start]
      exact Nat.zero_le _
  | cons cell rest ih =>
      -- A stretch is empty or goes on with a stretch of the rest.
      have stretches (bound : Nat → Nat → Prop) (empty : bound 0 0) :
          (∀ run, run <+: cell :: rest → bound (run.countP Cell.closes) (run.countP Cell.opens)) ↔
            ∀ run, run <+: rest →
              bound ((cell :: run).countP Cell.closes) ((cell :: run).countP Cell.opens) := by
        constructor
        · intro all run start
          exact all (cell :: run) (List.cons_prefix_cons.mpr ⟨rfl, start⟩)
        · intro all run start
          rcases List.prefix_cons_iff.mp start with rfl | ⟨run, rfl, within⟩
          · exact empty
          · exact all run within
      rw [stretches (fun closed opened => closed ≤ opened + depth) (Nat.zero_le _)]
      simp only [enclosingCloser, List.countP_cons]
      by_cases opens : cell.opens = true
      · have notCloses := Cell.closes_of_opens opens
        simp only [opens, notCloses, if_true, ih, Bool.false_eq_true, if_false, Nat.add_zero]
        refine forall₂_congr fun run _ => ?_
        omega
      · by_cases closes : cell.closes = true
        · cases depth with
          | zero =>
              simp only [opens, closes, if_true, Bool.false_eq_true, if_false, Nat.add_zero,
                reduceCtorEq, false_iff, not_forall, Nat.not_le]
              exact ⟨[], List.nil_prefix, Nat.lt_succ_self 0⟩
          | succ depth =>
              simp only [opens, closes, if_true, ih, Bool.false_eq_true, if_false, Nat.add_zero]
              refine forall₂_congr fun run _ => ?_
              omega
        · simp only [opens, closes, ih, Bool.false_eq_true, if_false, Nat.add_zero]

namespace OpenGroups

/-- What is pushed behind an offset lies at that offset or behind it. -/
theorem mem_stepCells_of_lt {stack : List Nat} {offset entry : Nat} {cells : List Cell}
    (member : entry ∈ stepCells stack offset cells) (early : entry < offset) : entry ∈ stack := by
  rcases exists_of_mem_stepCells member with older | ⟨before, opener, after, -, -, place⟩
  · exact older
  · omega

/-- An opener stays on the stack exactly if nothing behind it closes it. -/
theorem mem_stepCells_opener {before after : List Cell} {opener : Cell}
    (opens : opener.opens = true) :
    before.length ∈ stepCells [] 0 (before ++ opener :: after) ↔ enclosingCloser 0 after = none := by
  have stack : stepCells [] 0 (before ++ opener :: after) =
      stepCells (before.length :: stepCells [] 0 before) (before.length + 1) after := by
    rw [stepCells_append, stepCells, stepCell, if_pos opens, Nat.zero_add]
  have fresh : before.length ∉ stepCells [] 0 before := by
    intro member
    rcases exists_of_mem_stepCells member with none | ⟨front, other, rest, split, -, place⟩
    · cases none
    · have sizes := congrArg List.length split
      rw [List.length_append, List.length_cons] at sizes
      omega
  rw [stack]
  constructor
  · intro member
    cases search : enclosingCloser 0 after with
    | none => rfl
    | some left =>
        obtain ⟨inner, closer, rest, rfl, -, closes, stays⟩ := stepCells_of_enclosingCloser search
        have notOpens : ¬ closer.opens = true := fun both => by
          simp [Cell.closes_of_opens both] at closes
        rw [stepCells_append, stays, stepCells, stepCell, if_neg notOpens, if_pos closes,
          List.drop_zero, List.tail_cons] at member
        exact absurd (mem_stepCells_of_lt member (by omega)) fresh
  · intro missing
    obtain ⟨newer, split, -⟩ := stepCells_of_unclosed missing
      (before.length :: stepCells [] 0 before) (before.length + 1)
    rw [split, List.drop_zero]
    exact List.mem_append_right newer List.mem_cons_self

/-- **The stack holds exactly the unclosed openers.** -/
theorem mem_stepCells_iff {cells : List Cell} {place : Nat} :
    place ∈ stepCells [] 0 cells ↔ Unclosed cells place := by
  have divided (before after : List Cell) {opener : Cell} (opens : opener.opens = true) :
      before.length ∈ stepCells [] 0 (before ++ opener :: after) ↔
        Unclosed (before ++ opener :: after) before.length := by
    have here : (before ++ opener :: after)[before.length]? = some opener := by simp
    have behind : (before ++ opener :: after).drop (before.length + 1) = after := by
      rw [List.drop_length_add_append]
      rfl
    rw [mem_stepCells_opener opens, enclosingCloser_eq_none_iff]
    constructor
    · intro counts
      exact ⟨⟨opener, here, opens⟩, by rw [behind]; exact counts⟩
    · intro unclosed
      have counts := unclosed.open_behind
      rwa [behind] at counts
  constructor
  · intro member
    rcases exists_of_mem_stepCells member with none | ⟨before, opener, after, rfl, opens, rfl⟩
    · cases none
    · rw [Nat.zero_add] at member ⊢
      exact (divided before after opens).mp member
  · intro unclosed
    obtain ⟨opener, here, opens⟩ := unclosed.opens
    obtain ⟨inside, rfl⟩ := List.getElem?_eq_some_iff.mp here
    have split : cells = cells.take place ++ cells[place] :: cells.drop (place + 1) := by
      rw [← List.drop_eq_getElem_cons inside, List.take_append_drop]
    have size : (cells.take place).length = place := by
      rw [List.length_take]
      exact Nat.min_eq_left (Nat.le_of_lt inside)
    have member := (divided (cells.take place) (cells.drop (place + 1)) opens).mpr
    rw [← split, size] at member
    exact member unclosed

/-- Openers lie on the stack in the order of their offsets, the last one on top. -/
theorem pairwise_stepCells {stack : List Nat} {offset : Nat} (cells : List Cell)
    (ordered : stack.Pairwise (· > ·)) (early : ∀ entry ∈ stack, entry < offset) :
    (stepCells stack offset cells).Pairwise (· > ·) := by
  induction cells generalizing stack offset with
  | nil => exact ordered
  | cons cell rest ih =>
      simp only [stepCells, stepCell]
      split
      · refine ih (List.pairwise_cons.mpr ⟨early, ordered⟩) fun entry member => ?_
        rcases List.mem_cons.mp member with rfl | older
        · exact Nat.lt_succ_self entry
        · exact Nat.lt_succ_of_lt (early entry older)
      · split
        · exact ih ordered.tail fun entry member =>
            Nat.lt_succ_of_lt (early entry (List.mem_of_mem_tail member))
        · exact ih ordered fun entry member => Nat.lt_succ_of_lt (early entry member)

/-- The top of the stack is the last unclosed opener. -/
theorem head?_stepCells_eq_some_iff {cells : List Cell} {place : Nat} :
    (stepCells [] 0 cells).head? = some place ↔ LastUnclosed cells place := by
  have ordered : (stepCells [] 0 cells).Pairwise (· > ·) :=
    pairwise_stepCells cells List.Pairwise.nil fun _ none => nomatch none
  constructor
  · intro top
    refine ⟨mem_stepCells_iff.mp (List.mem_of_mem_head? top), fun other unclosed => ?_⟩
    have member := mem_stepCells_iff.mpr unclosed
    cases stack : stepCells [] 0 cells with
    | nil =>
        rw [stack] at member
        cases member
    | cons first others =>
        rw [stack] at top member ordered
        obtain rfl : first = place := Option.some.inj top
        rcases List.mem_cons.mp member with rfl | older
        · exact Nat.le_refl _
        · exact Nat.le_of_lt ((List.pairwise_cons.mp ordered).1 other older)
  · intro unclosed
    have member := mem_stepCells_iff.mpr unclosed.unclosed
    cases stack : stepCells [] 0 cells with
    | nil =>
        rw [stack] at member
        cases member
    | cons first others =>
        have above : first ≤ place := unclosed.last first
          (mem_stepCells_iff.mp (by rw [stack]; exact List.mem_cons_self))
        rw [stack] at member ordered
        rcases List.mem_cons.mp member with rfl | older
        · rfl
        · have below := (List.pairwise_cons.mp ordered).1 place older
          omega

theorem head?_stepCells_eq_none_iff {cells : List Cell} :
    (stepCells [] 0 cells).head? = none ↔ ∀ place, ¬ Unclosed cells place := by
  simp only [List.head?_eq_none_iff, List.eq_nil_iff_forall_not_mem, mem_stepCells_iff]

end OpenGroups

/-! ### The first character behind an opener -/

namespace Snapshot

variable {s : Snapshot} {offset place : Nat}

/-- There is at most one first character that is no blank. -/
theorem FirstSolid.eq {other : Nat} (first : s.FirstSolid offset place)
    (first' : s.FirstSolid offset other) : place = other := by
  have apart {a b : Nat} (solid : s.FirstSolid offset a) (later : s.FirstSolid offset b) :
      ¬ a < b := by
    intro before
    obtain ⟨cell, here, notBlank⟩ := solid.solid
    obtain ⟨same, there, blank⟩ := later.blank a solid.le before
    rw [Option.mem_unique here there, blank] at notBlank
    cases notBlank
  exact Nat.le_antisymm (Nat.not_lt.mp (apart first' first)) (Nat.not_lt.mp (apart first first'))

theorem FirstSolid.lt_size (first : s.FirstSolid offset place) : place < s.size := by
  obtain ⟨cell, here, -⟩ := first.solid
  exact (List.getElem?_eq_some_iff.mp here).1

/-- Behind the blanks is the first character that is none, unless they reach the end. -/
theorem skipBlanks_cases (inside : offset ≤ s.size) :
    s.FirstSolid offset (s.skipBlanks offset) ∨
      s.skipBlanks offset = s.size ∧ ∀ place, ¬ s.FirstSolid offset place := by
  obtain ⟨before, behind, split, rfl⟩ := exists_division inside
  have taken : s.skipBlanks before.length = (before ++ behind.takeWhile Cell.isBlank).length := by
    rw [skipBlanks, cellsFrom, split, List.drop_left, List.length_append]
  have pieces : s.cells = before ++ behind.takeWhile Cell.isBlank ++ behind.dropWhile Cell.isBlank := by
    rw [split, List.append_assoc, List.takeWhile_append_dropWhile]
  have blank : ∀ cell ∈ behind.takeWhile Cell.isBlank, cell.isBlank = true :=
    fun cell => List.mem_takeWhile_imp
  rw [taken]
  cases rest : behind.dropWhile Cell.isBlank with
  | cons cell others =>
      have solid : cell.isBlank = false :=
        eq_false_of_mem_head?_dropWhile (show cell ∈ (behind.dropWhile Cell.isBlank).head? by
          rw [rest]
          rfl)
      rw [rest] at pieces
      exact Or.inl (firstSolid_of_cells pieces blank solid)
  | nil =>
      rw [rest] at pieces
      have whole : (before ++ behind.takeWhile Cell.isBlank).length = s.size := by
        rw [size, pieces, List.append_nil]
      refine Or.inr ⟨whole, fun place first => ?_⟩
      obtain ⟨cell, here, solid⟩ := first.solid
      obtain ⟨other, there, member⟩ :=
        exists_mem_of_between pieces first.le (by rw [whole]; exact first.lt_size)
      rw [Option.mem_unique here there, blank other member] at solid
      cases solid

end Snapshot

/-! ### What is prescribed -/

/-- The column prescribed for a line below the text `above`. -/
inductive Prescribes (above : Text) (width : Int) : Option Int → Prop where
  /-- No opener is left open. -/
  | topLevel (closed : ∀ place, ¬ Unclosed (Snapshot.ofText above).cells place) :
      Prescribes above width none
  /-- In round brackets the line belongs to a body. -/
  | body {opener : Nat} (last : LastUnclosed (Snapshot.ofText above).cells opener)
      (round : above[opener]? = some '(') :
      Prescribes above width (some ((Snapshot.ofText above).indentationColumn opener + width))
  /-- In other brackets the line stands below the first element. -/
  | aligned {opener first : Nat} (last : LastUnclosed (Snapshot.ofText above).cells opener)
      (other : above[opener]? ≠ some '(')
      (solid : (Snapshot.ofText above).FirstSolid (opener + 1) first) :
      Prescribes above width (some ((Snapshot.ofText above).columnAt first))
  /-- Without an element above the line it is indented like a body. -/
  | empty {opener : Nat} (last : LastUnclosed (Snapshot.ofText above).cells opener)
      (other : above[opener]? ≠ some '(')
      (blank : ∀ first, ¬ (Snapshot.ofText above).FirstSolid (opener + 1) first) :
      Prescribes above width (some ((Snapshot.ofText above).indentationColumn opener + width))

section Prescribed

variable {above : Text} {width : Int}

theorem charAt?_ofText (text : Text) (offset : Nat) :
    (Snapshot.ofText text).charAt? offset = text[offset]? := by
  have chars : (Snapshot.ofText text).cells.map Cell.char = text := Snapshot.text_ofText text
  rw [Snapshot.charAt?, Snapshot.cellAt?, if_pos (Int.natCast_nonneg _), Int.toNat_natCast,
    ← List.getElem?_map, chars]

theorem enclosing?_above (above : Text) :
    (Snapshot.ofText above).enclosing? above.length =
      (OpenGroups.stepCells [] 0 (Snapshot.ofText above).cells).head? := by
  have group := Snapshot.enclosing?_ofText above []
  rw [List.append_nil] at group
  rw [group, Snapshot.ofText_eq_snapshot]
  rfl

theorem LastUnclosed.lt_length {opener : Nat}
    (last : LastUnclosed (Snapshot.ofText above).cells opener) : opener < above.length := by
  obtain ⟨cell, here, -⟩ := last.unclosed.opens
  have inside := (List.getElem?_eq_some_iff.mp here).1
  rwa [show (Snapshot.ofText above).cells.length = above.length from
    Snapshot.size_scan above false] at inside

/-- The advice below an unclosed opener. -/
theorem adviceAbove_of_last {opener : Nat}
    (last : LastUnclosed (Snapshot.ofText above).cells opener) :
    adviceAbove above width =
      if above[opener]? = some '(' ∨ (Snapshot.ofText above).skipBlanks (opener + 1) = above.length then
        .column ((Snapshot.ofText above).indentationColumn opener + width)
      else .column ((Snapshot.ofText above).columnAt
        ((Snapshot.ofText above).skipBlanks (opener + 1))) := by
  have group : (Snapshot.ofText above).enclosing? above.length = some opener :=
    (enclosing?_above above).trans (OpenGroups.head?_stepCells_eq_some_iff.mpr last)
  rw [adviceAbove, ← Snapshot.ofText_eq_snapshot, group]
  simp only [charAt?_ofText, Snapshot.bodyColumn]

/-- What is prescribed is what the text above advises. -/
theorem Prescribes.column?_eq {answer : Option Int} (prescribed : Prescribes above width answer) :
    (adviceAbove above width).column? = answer := by
  have size : (Snapshot.ofText above).size = above.length := Snapshot.size_scan above false
  cases prescribed with
  | topLevel closed =>
      have group : (Snapshot.ofText above).enclosing? above.length = none :=
        (enclosing?_above above).trans (OpenGroups.head?_stepCells_eq_none_iff.mpr closed)
      rw [adviceAbove, ← Snapshot.ofText_eq_snapshot, group]
      rfl
  | body last round =>
      rw [adviceAbove_of_last last, if_pos (Or.inl round)]
      rfl
  | @aligned opener first last other solid =>
      have within : opener + 1 ≤ (Snapshot.ofText above).size := size ▸ last.lt_length
      rcases Snapshot.skipBlanks_cases within with first | ⟨-, blank⟩
      · obtain rfl := solid.eq first
        have short := solid.lt_size
        rw [adviceAbove_of_last last, if_neg]
        · rfl
        · rintro (round | whole)
          · exact other round
          · omega
      · exact absurd solid (blank _)
  | @empty opener last other blank =>
      have within : opener + 1 ≤ (Snapshot.ofText above).size := size ▸ last.lt_length
      rcases Snapshot.skipBlanks_cases within with first | ⟨whole, -⟩
      · exact absurd first (blank _)
      · rw [adviceAbove_of_last last, if_pos (Or.inr (whole.trans size))]
        rfl

/-- Something is prescribed below every text. -/
theorem exists_prescribes (above : Text) (width : Int) : ∃ answer, Prescribes above width answer := by
  cases top : (OpenGroups.stepCells [] 0 (Snapshot.ofText above).cells).head? with
  | none => exact ⟨none, .topLevel (OpenGroups.head?_stepCells_eq_none_iff.mp top)⟩
  | some opener =>
      have last := OpenGroups.head?_stepCells_eq_some_iff.mp top
      by_cases round : above[opener]? = some '('
      · exact ⟨_, .body last round⟩
      · by_cases solid : ∃ first, (Snapshot.ofText above).FirstSolid (opener + 1) first
        · obtain ⟨first, solid⟩ := solid
          exact ⟨_, .aligned last round solid⟩
        · exact ⟨_, .empty last round (not_exists.mp solid)⟩

theorem adviceAbove_ne_noRule (above : Text) (width : Int) : adviceAbove above width ≠ .noRule := by
  simp only [adviceAbove]
  split
  · simp
  · split <;> simp

end Prescribed

/-- **The advice for a line that begins outside strings is the prescribed column.** It comes from the
text above the line, whatever follows, and there always is a rule. -/
theorem advise_iff_prescribes {text : Text} {lineStart : Nat} (starts : text.StartsLine lineStart)
    (outside : (Snapshot.ofText text).inString lineStart = false) (width : Int) :
    (∀ answer, ((Snapshot.ofText text).advise lineStart width).column? = answer ↔
      Prescribes (text.take lineStart) width answer) ∧
    (Snapshot.ofText text).advise lineStart width ≠ .noRule ∧
    ∀ other : Text, other.take lineStart = text.take lineStart →
      (Snapshot.ofText other).advise lineStart width =
        (Snapshot.ofText text).advise lineStart width := by
  obtain ⟨above, below, rfl, rfl, ends⟩ := starts.exists_above
  rw [Snapshot.inString_ofText] at outside
  have inCode := Mode.after_eq_code ends outside
  rw [Snapshot.advise_eq_adviceAbove ends inCode, List.take_left]
  refine ⟨fun answer => ⟨?_, Prescribes.column?_eq⟩, adviceAbove_ne_noRule above width, ?_⟩
  · rintro rfl
    obtain ⟨answer, prescribed⟩ := exists_prescribes above width
    rwa [prescribed.column?_eq]
  · intro other same
    have split : other = above ++ other.drop above.length := by
      conv => lhs; rw [← List.take_append_drop above.length other, same]
    rw [split, Snapshot.advise_eq_adviceAbove ends inCode]

/-- The newline above the line may be part of a literal, which then is the first element. -/
theorem advise_iff_prescribes_literal_newline :
    Text.StartsLine "[\\\n b]".toList 3 ∧
      (Snapshot.ofText "[\\\n b]".toList).inString (3 : Nat) = false ∧
      ((Snapshot.ofText "[\\\n b]".toList).advise (3 : Nat) 2).column? = some 1 ∧
      Prescribes "[\\\n".toList 2 (some 1) := by
  have starts : Text.StartsLine "[\\\n b]".toList 3 := Or.inr (by decide)
  have outside : (Snapshot.ofText "[\\\n b]".toList).inString (3 : Nat) = false :=
    Snapshot.inString_ofText "[\\\n".toList " b]".toList
  have advice : ((Snapshot.ofText "[\\\n b]".toList).advise (3 : Nat) 2).column? = some 1 := by
    rw [Snapshot.ofText_eq_snapshot]
    decide
  exact ⟨starts, outside, advice, ((advise_iff_prescribes starts outside 2).1 (some 1)).mp advice⟩

end LispEditor
