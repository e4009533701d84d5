import Mathlib.Data.List.SplitBy
import LispEditor.Colour.Line
import LispEditor.Proofs.DocumentEdit

/-!
# Colouring line by line

A text is coloured one line at a time, and all that a line knows of the lines above it is one bit.
This is enough: the kinds that a line computes are those of a scan of the whole text. The kinds are
then painted over what the rules found, run by run and in UTF-16 units, which gives every unit the
style of the character it belongs to.

* `getElem?_ofLines`: the bit that reaches a line is whether the text above it ends in a string.
* `foldl_overlays`: painting the runs of one kind gives each unit the style of its kind.
* `getElem?_unitKinds_ne_code`: these runs cover no unit of code.
* `foldl_runs`: the runs of a coloured line are the styles of its units.
* `ofText_agrees`: a coloured text agrees with the scan of the whole text.
-/

namespace LispEditor

open Text (block)

namespace ColouredLine

/-! ### What a line finds -/

theorem endsInString_ofLine (palette : Palette) (flag : Bool) (line : Text) :
    (ofLine palette flag line).endsInString = ((Mode.start flag).after line).inString := by
  show (Snapshot.scan line flag).endsInString = _
  rw [Snapshot.scan_eq_snapshot]
  rfl

/-- **A line is told whether the text above it ends in a string.** -/
theorem getElem?_ofLines (palette : Palette) (flag : Bool) (lines : List Text) (i : Nat) :
    (ofLines palette flag lines)[i]? =
      lines[i]?.map (ofLine palette ((Mode.start flag).after (block (lines.take i))).inString) := by
  induction lines generalizing flag i with
  | nil => rfl
  | cons line rest ih =>
      cases i with
      | zero =>
          rw [ofLines, List.getElem?_cons_zero, List.getElem?_cons_zero, Option.map_some,
            List.take_zero, Text.block_nil, Mode.after_nil, Mode.inString_start]
      | succ i =>
          have below : Mode.start (ofLine palette flag line).endsInString =
              (Mode.start flag).after (line ++ ['\n']) := by
            rw [← Mode.start_inString flag (Text.endsLine_append_newline line),
              endsInString_ofLine, Mode.after_append, Mode.after_cons, Mode.after_nil,
              Mode.inString_next_newline]
          have blocks : block (line :: rest.take i) = line ++ ['\n'] ++ block (rest.take i) := by
            rw [Text.block_cons, List.append_assoc, List.singleton_append]
          rw [ofLines, List.getElem?_cons_succ, List.getElem?_cons_succ, ih, below,
            List.take_succ_cons, blocks, Mode.after_append _ (line ++ ['\n'])]

theorem length_ofLines (palette : Palette) (flag : Bool) (lines : List Text) :
    (ofLines palette flag lines).length = lines.length := by
  induction lines generalizing flag with
  | nil => rfl
  | cons line rest ih => rw [ofLines, List.length_cons, List.length_cons, ih]

/-- The state that a line finds: the one that the line above it left, and none of the states at the
first line. -/
def previousState (lines : List ColouredLine) : Nat → Int
  | 0 => -1
  | i + 1 => (lines[i]?.map fun line => (line.state : Int)).getD (-1)

/-- Whether a line of a coloured text begins inside a string. -/
def beginsInString (lines : List ColouredLine) (i : Nat) : Bool :=
  previousState lines i == 1

/-- The bit that a line reads off the line above it is the one that it was told. -/
theorem beginsInString_ofText (palette : Palette) {text : Text} {i : Nat}
    (inside : i < text.lines.length) :
    beginsInString (ofText palette text) i =
      (Mode.code.after (block (text.lines.take i))).inString := by
  cases i with
  | zero => rfl
  | succ i =>
      have here : i < text.lines.length := Nat.lt_of_succ_lt inside
      have above : (ofText palette text)[i]? =
          some (ofLine palette (Mode.code.after (block (text.lines.take i))).inString
            text.lines[i]) := by
        rw [ofText, getElem?_ofLines, List.getElem?_eq_getElem here]
        rfl
      have ends := Mode.start_inString false (Text.endsLine_block (text.lines.take i))
      have read (line : ColouredLine) : ((line.state : Int) == 1) = line.endsInString := by
        rw [state]
        cases line.endsInString <;> rfl
      rw [beginsInString, previousState, above, Option.map_some, Option.getD_some, read,
        endsInString_ofLine, show Mode.code = Mode.start false from rfl, ends,
        List.take_succ_eq_append_getElem here, Text.block_concat, Mode.after_append,
        Mode.after_append, Mode.after_cons, Mode.after_nil, Mode.inString_next_newline]

/-! ### Painting units -/

/-- Whether a run covers a unit. -/
def Run.Covers (run : Run) (unit : Nat) : Prop :=
  run.start ≤ unit ∧ unit < run.start + run.length

instance (run : Run) (unit : Nat) : Decidable (run.Covers unit) :=
  inferInstanceAs (Decidable (_ ∧ _))

/-- Styles of units with a run painted over them. -/
def paintRun (styles : List (Option Style)) (run : Run) : List (Option Style) :=
  styles.mapIdx fun unit old => if run.Covers unit then some run.style else old

/-- What the units of some characters have: each unit has what its character has. -/
def perUnit {α : Type} (items : List (Char × α)) : List α :=
  items.flatMap fun item => List.replicate (Text.unitsOf item.1) item.2

/-- The kinds of the units of some cells. -/
def unitKinds (cells : List Cell) : List Kind :=
  perUnit (cells.map fun cell => (cell.char, cell.kind))

/-- Painting a run replaces the styles of the units it covers. -/
theorem paintRun_append (front old back : List (Option Style)) (style : Style) :
    paintRun (front ++ old ++ back) ⟨front.length, old.length, style⟩ =
      front ++ List.replicate old.length (some style) ++ back := by
  refine List.ext_getElem? fun unit => ?_
  rw [paintRun, List.getElem?_mapIdx]
  simp only [Run.Covers, List.getElem?_append, List.length_append, List.length_replicate,
    List.getElem?_replicate]
  grind

/-- A run can be painted in two parts. -/
theorem paintRun_paintRun (styles : List (Option Style)) {first second : Run}
    (next : second.start = first.start + first.length) (same : second.style = first.style) :
    paintRun (paintRun styles first) second =
      paintRun styles ⟨first.start, first.length + second.length, first.style⟩ := by
  refine List.ext_getElem? fun unit => ?_
  simp only [paintRun, List.getElem?_mapIdx, Run.Covers]
  grind

theorem perUnit_cons {α : Type} (c : Char) (value : α) (rest : List (Char × α)) :
    perUnit ((c, value) :: rest) = List.replicate (Text.unitsOf c) value ++ perUnit rest :=
  List.flatMap_cons

theorem unitKinds_cons (cell : Cell) (rest : List Cell) :
    unitKinds (cell :: rest) =
      List.replicate (Text.unitsOf cell.char) cell.kind ++ unitKinds rest :=
  perUnit_cons cell.char cell.kind _

theorem unitKinds_append (a b : List Cell) : unitKinds (a ++ b) = unitKinds a ++ unitKinds b := by
  rw [unitKinds, List.map_append]
  exact List.flatMap_append

theorem length_perUnit {α : Type} (items : List (Char × α)) :
    (perUnit items).length = Text.utf16Length (items.map Prod.fst) := by
  induction items with
  | nil => rfl
  | cons item rest ih =>
      rw [perUnit_cons, List.length_append, List.length_replicate, ih]
      rfl

theorem length_unitKinds (cells : List Cell) :
    (unitKinds cells).length = Text.utf16Length (cells.map Cell.char) := by
  rw [unitKinds, length_perUnit, List.map_map]
  rfl

/-- The units of cells of one kind. -/
theorem unitKinds_of_uniform {cells : List Cell} {kind : Kind}
    (uniform : ∀ cell ∈ cells, cell.kind = kind) :
    unitKinds cells = List.replicate (Text.utf16Length (cells.map Cell.char)) kind := by
  rw [List.eq_replicate_iff, length_unitKinds]
  refine ⟨rfl, fun unitKind member => ?_⟩
  obtain ⟨item, inItems, here⟩ := List.mem_flatMap.mp member
  obtain ⟨cell, inCells, rfl⟩ := List.mem_map.mp inItems
  rw [(List.mem_replicate.mp here).2, uniform cell inCells]

/-! ### The runs of one kind -/

/-- What is painted over the rules, for groups of cells of which the first begins at `position`: one
run for each group whose kind has a style. -/
def overlaysFrom (palette : Palette) (position : Nat) : List (List Cell) → List Run
  | [] => []
  | group :: rest =>
      let units := Text.utf16Length (group.map Cell.char)
      let others := overlaysFrom palette (position + units) rest
      match group.head?.bind fun cell => kindStyle? palette cell.kind with
      | some style => ⟨position, units, style⟩ :: others
      | none => others

/-- What is painted over the rules: the longest runs of one kind, in order. -/
def overlays (palette : Palette) (cells : List Cell) : List Run :=
  overlaysFrom palette 0 (cells.splitBy fun a b => a.kind == b.kind)

/-- The style of a unit of some kind whose style was `old`. -/
def styleOver (palette : Palette) (kind : Kind) (old : Option Style) : Option Style :=
  (kindStyle? palette kind).orElse fun _ => old

theorem styleOver_of_kindStyle? {palette : Palette} {kind : Kind} {style : Style}
    (known : kindStyle? palette kind = some style) (old : Option Style) :
    styleOver palette kind old = some style := by
  rw [styleOver, known]
  rfl

/-- The cells of a group all have one kind. -/
theorem uniform_of_mem_splitBy {cells group : List Cell}
    (member : group ∈ cells.splitBy fun a b => a.kind == b.kind) :
    ∃ kind, ∀ cell ∈ group, cell.kind = kind := by
  have chain := List.isChain_of_mem_splitBy member
  simp only [beq_iff_eq] at chain
  clear member
  induction group with
  | nil => exact ⟨.code, fun cell none => nomatch none⟩
  | cons first rest ih =>
      refine ⟨first.kind, fun cell member => ?_⟩
      obtain ⟨kind, uniform⟩ := ih chain.tail
      rcases List.mem_cons.mp member with rfl | later
      · rfl
      · cases rest with
        | nil => exact nomatch later
        | cons second others =>
            have next : first.kind = second.kind := (List.isChain_cons_cons.mp chain).1
            rw [next, uniform cell later, uniform second List.mem_cons_self]

/-- Painting a group of one kind gives its units the style of the kind. -/
theorem zipWith_styleOver_replicate (palette : Palette) (kind : Kind)
    (styles : List (Option Style)) :
    List.zipWith (styleOver palette) (List.replicate styles.length kind) styles =
      match kindStyle? palette kind with
      | some style => List.replicate styles.length (some style)
      | none => styles := by
  induction styles with
  | nil => cases kindStyle? palette kind <;> rfl
  | cons old rest ih =>
      rw [List.length_cons, List.replicate_succ, List.zipWith_cons_cons, ih, styleOver]
      cases kindStyle? palette kind <;> rfl

/-- **Painting the runs of groups gives each unit the style of its kind**, and leaves the units
before the groups. -/
theorem foldl_overlaysFrom (palette : Palette) {groups : List (List Cell)}
    (uniform : ∀ group ∈ groups, ∃ kind, ∀ cell ∈ group, cell.kind = kind)
    (front styles : List (Option Style))
    (size : styles.length = (unitKinds groups.flatten).length) :
    (overlaysFrom palette front.length groups).foldl paintRun (front ++ styles) =
      front ++ List.zipWith (styleOver palette) (unitKinds groups.flatten) styles := by
  induction groups generalizing front styles with
  | nil =>
      have none : styles = [] := List.length_eq_zero_iff.mp size
      rw [none]
      rfl
  | cons group rest ih =>
      obtain ⟨kind, same⟩ := uniform group List.mem_cons_self
      have kinds := unitKinds_of_uniform same
      rw [List.flatten_cons, unitKinds_append, kinds, List.length_append, List.length_replicate]
        at size
      -- The styles of the units of this group, and those behind them.
      obtain ⟨here, behind, rfl, units⟩ : ∃ here behind, styles = here ++ behind ∧
          here.length = Text.utf16Length (group.map Cell.char) :=
        ⟨styles.take _, styles.drop _, (List.take_append_drop _ _).symm,
          List.length_take_of_le (by omega)⟩
      have left : behind.length = (unitKinds rest.flatten).length := by
        rw [List.length_append] at size
        omega
      have others (painted : List (Option Style)) (long : painted.length = here.length) :
          (overlaysFrom palette (front.length + here.length) rest).foldl paintRun
              (front ++ painted ++ behind) =
            front ++
              (painted ++ List.zipWith (styleOver palette) (unitKinds rest.flatten) behind) := by
        rw [← long, ← List.length_append, ← List.append_assoc]
        exact ih (fun other member => uniform other (List.mem_cons_of_mem group member)) _ behind
          left
      rw [List.flatten_cons, unitKinds_append, kinds, ← units,
        List.zipWith_append List.length_replicate, zipWith_styleOver_replicate, overlaysFrom,
        ← units, ← List.append_assoc]
      cases group with
      | nil =>
          have empty : here = [] := List.length_eq_zero_iff.mp units
          subst empty
          cases kindStyle? palette kind <;> exact others [] rfl
      | cons cell cells =>
          rw [List.head?_cons, Option.bind_some, same cell List.mem_cons_self]
          cases kindStyle? palette kind with
          | none => exact others here rfl
          | some style =>
              rw [List.foldl_cons, paintRun_append]
              exact others _ List.length_replicate

/-- **Painting the runs of one kind gives each unit the style of its kind**, whatever the styles
were. -/
theorem foldl_overlays (palette : Palette) (cells : List Cell) {styles : List (Option Style)}
    (size : styles.length = (unitKinds cells).length) :
    (overlays palette cells).foldl paintRun styles =
      List.zipWith (styleOver palette) (unitKinds cells) styles := by
  have groups : (cells.splitBy fun a b => a.kind == b.kind).flatten = cells :=
    List.flatten_splitBy _ cells
  have painted := foldl_overlaysFrom palette (fun _ => uniform_of_mem_splitBy)
    [] styles (groups.symm ▸ size)
  rw [groups] at painted
  exact painted

/-- A run of some groups is that of the first group, or one of the others. -/
theorem mem_overlaysFrom_cons {palette : Palette} {position : Nat} {group : List Cell}
    {rest : List (List Cell)} {run : Run}
    (member : run ∈ overlaysFrom palette position (group :: rest)) :
    (run.start = position ∧ run.length = Text.utf16Length (group.map Cell.char) ∧
        ∃ cell ∈ group, kindStyle? palette cell.kind = some run.style) ∨
      run ∈ overlaysFrom palette (position + Text.utf16Length (group.map Cell.char)) rest := by
  rw [overlaysFrom] at member
  cases group with
  | nil => exact .inr member
  | cons cell cells =>
      rw [List.head?_cons, Option.bind_some] at member
      cases styled : kindStyle? palette cell.kind with
      | none =>
          rw [styled] at member
          exact .inr member
      | some style =>
          rw [styled] at member
          rcases List.mem_cons.mp member with rfl | later
          · exact .inl ⟨rfl, rfl, cell, List.mem_cons_self, styled⟩
          · exact .inr later

theorem le_start_of_mem_overlaysFrom {palette : Palette} {position : Nat}
    {groups : List (List Cell)} {run : Run}
    (member : run ∈ overlaysFrom palette position groups) : position ≤ run.start := by
  induction groups generalizing position with
  | nil => exact nomatch member
  | cons group rest ih =>
      rcases mem_overlaysFrom_cons member with ⟨start, -, -⟩ | later
      · exact Nat.le_of_eq start.symm
      · exact Nat.le_trans (Nat.le_add_right _ _) (ih later)

/-- A run of some groups covers units of one kind only. -/
theorem getElem?_unitKinds_of_mem_overlaysFrom {palette : Palette} {groups : List (List Cell)}
    (uniform : ∀ group ∈ groups, ∃ kind, ∀ cell ∈ group, cell.kind = kind) {position unit : Nat}
    {run : Run} (member : run ∈ overlaysFrom palette position groups)
    (covered : run.Covers (position + unit)) :
    ∃ kind, (unitKinds groups.flatten)[unit]? = some kind ∧
      kindStyle? palette kind = some run.style := by
  induction groups generalizing position unit with
  | nil => exact nomatch member
  | cons group rest ih =>
      rw [List.flatten_cons, unitKinds_append]
      obtain ⟨lower, upper⟩ := covered
      rcases mem_overlaysFrom_cons member with ⟨start, units, cell, inGroup, styled⟩ | later
      · obtain ⟨kind, same⟩ := uniform group List.mem_cons_self
        have within : unit < Text.utf16Length (group.map Cell.char) := by omega
        refine ⟨kind, ?_, same cell inGroup ▸ styled⟩
        rw [unitKinds_of_uniform same, List.getElem?_append_left (List.length_replicate ▸ within),
          List.getElem?_replicate_of_lt within]
      · have behind := le_start_of_mem_overlaysFrom later
        obtain ⟨further, rfl⟩ : ∃ further, unit =
            Text.utf16Length (group.map Cell.char) + further := Nat.exists_eq_add_of_le (by omega)
        rw [← length_unitKinds, List.getElem?_append_right (Nat.le_add_right _ _),
          Nat.add_sub_cancel_left]
        exact ih (fun other inRest => uniform other (List.mem_cons_of_mem group inRest)) later
          ⟨Nat.add_assoc _ _ _ ▸ lower, Nat.add_assoc _ _ _ ▸ upper⟩

/-- **What is painted over the rules never covers a unit of code.** -/
theorem getElem?_unitKinds_ne_code {palette : Palette} {cells : List Cell} {unit : Nat} {run : Run}
    (member : run ∈ overlays palette cells) (covered : run.Covers unit) :
    (unitKinds cells)[unit]? ≠ some .code := by
  have groups : (cells.splitBy fun a b => a.kind == b.kind).flatten = cells :=
    List.flatten_splitBy _ cells
  obtain ⟨kind, here, styled⟩ := getElem?_unitKinds_of_mem_overlaysFrom
    (fun _ => uniform_of_mem_splitBy) member (unit.zero_add.symm ▸ covered)
  rw [groups] at here
  intro code
  rw [Option.some.inj (here.symm.trans code)] at styled
  exact nomatch styled

/-! ### The runs of a line -/

/-- A run that goes on where the first character ends is joined with it. -/
theorem foldl_runsFrom_cons (position : Nat) (c : Char) (style : Style)
    (rest : List (Char × Option Style)) (styles : List (Option Style)) :
    (runsFrom position ((c, some style) :: rest)).foldl paintRun styles =
      (runsFrom (position + Text.unitsOf c) rest).foldl paintRun
        (paintRun styles ⟨position, Text.unitsOf c, style⟩) := by
  cases others : runsFrom (position + Text.unitsOf c) rest with
  | nil =>
      simp only [runsFrom, others]
      rfl
  | cons run more =>
      simp only [runsFrom, others]
      split
      next joined =>
        obtain ⟨next, same⟩ := Bool.and_eq_true_iff.mp joined
        rw [List.foldl_cons, List.foldl_cons,
          paintRun_paintRun styles (eq_of_beq next) (eq_of_beq same)]
      next => rfl

/-- Painting the runs of some cells on blank units gives each unit the style of its character, and
leaves the units before the cells. -/
theorem foldl_runsFrom (front : List (Option Style)) (cells : List (Char × Option Style)) :
    (runsFrom front.length cells).foldl paintRun
        (front ++ List.replicate (perUnit cells).length none) =
      front ++ perUnit cells := by
  induction cells generalizing front with
  | nil => exact List.append_nil front ▸ rfl
  | cons cell rest ih =>
      obtain ⟨c, style⟩ := cell
      have others := ih (front ++ List.replicate (Text.unitsOf c) style)
      rw [List.length_append, List.length_replicate] at others
      rw [perUnit_cons, List.length_append, List.length_replicate, List.replicate_add,
        ← List.append_assoc, ← List.append_assoc, ← others]
      cases style with
      | none => rfl
      | some style =>
          have painted := paintRun_append front (List.replicate (Text.unitsOf c) none)
            (List.replicate (perUnit rest).length none) style
          rw [List.length_replicate] at painted
          rw [foldl_runsFrom_cons, painted]

/-- **The runs of a coloured line are the styles of its units.** -/
theorem foldl_runs (line : ColouredLine) :
    line.runs.foldl paintRun (List.replicate (perUnit line.cells).length none) =
      perUnit line.cells :=
  foldl_runsFrom [] line.cells

/-! ### The units of a character -/

/-- Whether a unit of a line belongs to the character at an offset. -/
def IsUnitOf (line : Text) (offset unit : Nat) : Prop :=
  Text.utf16Position line offset ≤ unit ∧ unit < Text.utf16Position line ((offset + 1 : Nat) : Int)

theorem IsUnitOf.lt_length {line : Text} {offset unit : Nat} (belongs : IsUnitOf line offset unit) :
    offset < line.length := by
  obtain ⟨after, before⟩ := belongs
  refine Nat.lt_of_not_le fun outside => ?_
  -- Behind the end all positions are that of the end.
  have last {further : Nat} (behind : line.length ≤ further) :
      Text.utf16Position line further = Text.utf16Length line := by
    rw [Text.utf16Position, Text.clamp, Int.toNat_natCast, Nat.min_eq_right behind,
      List.take_length]
  rw [last outside] at after
  rw [last (Nat.le_succ_of_le outside)] at before
  exact Nat.not_lt_of_le after before

/-- A unit of a character has the kind of the character. -/
theorem getElem?_unitKinds {cells : List Cell} {offset unit : Nat} {cell : Cell}
    (here : cells[offset]? = some cell) (belongs : IsUnitOf (cells.map Cell.char) offset unit) :
    (unitKinds cells)[unit]? = some cell.kind := by
  obtain ⟨inside, rfl⟩ := List.getElem?_eq_some_iff.mp here
  -- The cells in front of the character, and those behind it.
  generalize known : cells[offset] = cell at *
  obtain ⟨front, back, rfl, rfl⟩ : ∃ front back, cells = front ++ cell :: back ∧
      front.length = offset :=
    ⟨cells.take offset, cells.drop (offset + 1), by
      rw [← known, List.getElem_cons_drop, List.take_append_drop],
      List.length_take_of_le (Nat.le_of_lt inside)⟩
  have lower : Text.utf16Position ((front ++ cell :: back).map Cell.char) front.length =
      (unitKinds front).length := by
    rw [length_unitKinds, List.map_append]
    exact List.length_map Cell.char ▸ Text.utf16Position_append (front.map Cell.char) _
  have upper : Text.utf16Position ((front ++ cell :: back).map Cell.char)
      ((front.length + 1 : Nat) : Int) = (unitKinds front).length + Text.unitsOf cell.char := by
    have pieces : (front ++ cell :: back).map Cell.char =
        (front.map Cell.char ++ [cell.char]) ++ back.map Cell.char := by simp
    have size : (front.map Cell.char ++ [cell.char]).length = front.length + 1 := by simp
    rw [pieces, ← size, Text.utf16Position_append, Text.utf16Length_append, length_unitKinds]
    rfl
  obtain ⟨after, before⟩ := belongs
  rw [lower] at after
  rw [upper] at before
  rw [unitKinds_append, List.getElem?_append_right after, unitKinds_cons, List.getElem?_append_left
    (List.length_replicate ▸ Nat.sub_lt_left_of_lt_add after before), List.getElem?_replicate_of_lt
    (Nat.sub_lt_left_of_lt_add after before)]

/-- Colouring characters is colouring their units. -/
theorem perUnit_zipWith (palette : Palette) {cells : List Cell} {styles : List (Option Style)}
    (size : styles.length = cells.length) :
    perUnit (cells.zipWith (fun cell style => (cell.char, styleOver palette cell.kind style))
        styles) =
      List.zipWith (styleOver palette) (unitKinds cells)
        (perUnit ((cells.map Cell.char).zip styles)) := by
  induction cells generalizing styles with
  | nil => rfl
  | cons cell rest ih =>
      cases styles with
      | nil => exact nomatch size
      | cons style others =>
          have front : List.replicate (Text.unitsOf cell.char) (styleOver palette cell.kind style) =
              List.zipWith (styleOver palette) (List.replicate (Text.unitsOf cell.char) cell.kind)
                (List.replicate (Text.unitsOf cell.char) style) := by
            rw [List.zipWith_replicate, Nat.min_self]
          have rest := ih (Nat.succ.inj size)
          rw [List.zipWith_cons_cons, perUnit_cons, List.map_cons, List.zip_cons_cons, perUnit_cons,
            unitKinds_cons,
            List.zipWith_append (by rw [List.length_replicate, List.length_replicate]), rest, front]

theorem length_ruleStyles (palette : Palette) (line : Text) :
    (ruleStyles palette line).length = line.length := by
  have painted (rules : List ColourRule) (styles : List (Option Style)) :
      (rules.foldl (fun styles rule => paint (rule.style palette) (rule.extents line) styles)
        styles).length = styles.length := by
    induction rules generalizing styles with
    | nil => rfl
    | cons rule rest ih => rw [List.foldl_cons, ih, paint, List.length_mapIdx]
  rw [ruleStyles, painted, List.length_map]

theorem map_char_scan (line : Text) (flag : Bool) :
    (Snapshot.scan line flag).cells.map Cell.char = line := by
  rw [Snapshot.scan_eq_snapshot]
  exact Mode.map_char_cells _ line

theorem length_perUnit_ruleStyles (palette : Palette) (line : Text) :
    (perUnit (line.zip (ruleStyles palette line))).length = Text.utf16Length line := by
  rw [length_perUnit, List.map_fst_zip (Nat.le_of_eq (length_ruleStyles palette line).symm)]

theorem length_unitKinds_scan (line : Text) (flag : Bool) :
    (unitKinds (Snapshot.scan line flag).cells).length = Text.utf16Length line := by
  rw [length_unitKinds, map_char_scan]

/-- The units of a coloured line: the styles of the kinds over those of the rules. -/
theorem perUnit_ofLine (palette : Palette) (flag : Bool) (line : Text) :
    perUnit (ofLine palette flag line).cells =
      List.zipWith (styleOver palette) (unitKinds (Snapshot.scan line flag).cells)
        (perUnit (line.zip (ruleStyles palette line))) := by
  have size : (ruleStyles palette line).length = (Snapshot.scan line flag).cells.length := by
    rw [length_ruleStyles, ← List.length_map Cell.char, map_char_scan]
  have zipped := perUnit_zipWith palette size
  rw [map_char_scan] at zipped
  exact zipped

/-- **A coloured line shows what the rules painted, with the runs of one kind painted over it.** -/
theorem foldl_runs_ofLine (palette : Palette) (flag : Bool) (line : Text) :
    (ofLine palette flag line).runs.foldl paintRun (List.replicate (Text.utf16Length line) none) =
      (overlays palette (Snapshot.scan line flag).cells).foldl paintRun
        (perUnit (line.zip (ruleStyles palette line))) := by
  have rules := length_perUnit_ruleStyles palette line
  have kinds := length_unitKinds_scan line flag
  have size : (perUnit (ofLine palette flag line).cells).length = Text.utf16Length line := by
    rw [perUnit_ofLine, List.length_zipWith, rules, kinds, Nat.min_self]
  rw [← size, foldl_runs, perUnit_ofLine, foldl_overlays palette _ (rules.trans kinds.symm)]

/-! ### Lines of a text -/

/-- In a line that begins at `start`, inside a string when `inString` says so, every unit of a
character that has `kind` in the whole text ends up in `style`, whatever the rules painted. -/
def Shows (palette : Palette) (text : Text) (start : Nat) (line : Text) (inString : Bool)
    (kind : Kind) (style : Style) : Prop :=
  ∀ (rules : List (Option Style)) (offset unit : Nat) (cell : Cell),
    rules.length = Text.utf16Length line →
    (Snapshot.ofText text).cells[start + offset]? = some cell → IsUnitOf line offset unit →
    cell.kind = kind →
    ((overlays palette (Snapshot.scan line inString).cells).foldl paintRun rules)[unit]? =
      some (some style)

/-- How a line that begins at `start`, inside a string when `inString` says so, agrees with the scan
of the whole text. -/
structure LineAgrees (palette : Palette) (text : Text) (start : Nat) (line : Text)
    (inString : Bool) : Prop where
  /-- The line computes the part of the text's kinds that lies in it. -/
  cells_eq : (Snapshot.scan line inString).cells =
    ((Snapshot.ofText text).cells.drop start).take line.length
  /-- The line leaves the state 1 exactly when the text up to its end ends in a string. -/
  state_eq_one_iff : (ofLine palette inString line).state = 1 ↔
    (Snapshot.ofText (text.take (start + line.length))).endsInString = true
  /-- The line shows what the rules painted, with the runs of one kind painted over it. -/
  runs_eq : (ofLine palette inString line).runs.foldl paintRun
      (List.replicate (Text.utf16Length line) none) =
    (overlays palette (Snapshot.scan line inString).cells).foldl paintRun
      (perUnit (line.zip (ruleStyles palette line)))
  /-- Strings have their own colour. -/
  strings : Shows palette text start line inString .string
    { colour := palette.string, bold := false, italic := false, underline := false }
  /-- Comments have their own colour and are slanted. -/
  comments : Shows palette text start line inString .comment
    { colour := palette.comment, bold := false, italic := true, underline := false }
  /-- Literals have the colour of constants. -/
  literals : Shows palette text start line inString .literal
    { colour := palette.constant, bold := false, italic := false, underline := false }
  /-- Nothing is painted over a unit of code. -/
  spared (offset unit : Nat) (cell : Cell) (run : Run) :
    (Snapshot.ofText text).cells[start + offset]? = some cell → IsUnitOf line offset unit →
    cell.kind = .code →
    run ∈ overlays palette (Snapshot.scan line inString).cells → ¬ run.Covers unit

/-- A coloured text agrees with the scan of the whole text: every line is coloured, told by the
state of the line above whether it begins inside a string, and agrees where it stands. -/
structure Agrees (palette : Palette) (text : Text) : Prop where
  length_eq : (ofText palette text).length = text.lines.length
  line (i start : Nat) (line : Text) :
    text.lines[i]? = some line → text.lineStarts[i]? = some start →
    (ofText palette text)[i]? =
        some (ofLine palette (beginsInString (ofText palette text) i) line) ∧
      LineAgrees palette text start line (beginsInString (ofText palette text) i)

/-- A line whose cells are a part of the text's agrees with the text in what is painted. -/
theorem lineAgrees_of_cells (palette : Palette) {text : Text} {start : Nat} {line : Text}
    {inString : Bool}
    (cells : (Snapshot.scan line inString).cells =
      ((Snapshot.ofText text).cells.drop start).take line.length)
    (ends : (ofLine palette inString line).endsInString =
      (Snapshot.ofText (text.take (start + line.length))).endsInString) :
    LineAgrees palette text start line inString := by
  -- The kind of a unit of the line is the kind of its character in the text.
  have kindOf {offset unit : Nat} {cell : Cell}
      (here : (Snapshot.ofText text).cells[start + offset]? = some cell)
      (belongs : IsUnitOf line offset unit) :
      (unitKinds (Snapshot.scan line inString).cells)[unit]? = some cell.kind := by
    apply getElem?_unitKinds
    · rw [cells, List.getElem?_take_of_lt belongs.lt_length, List.getElem?_drop, here]
    · exact (map_char_scan line inString).symm ▸ belongs
  have shows {kind : Kind} {style : Style} (known : kindStyle? palette kind = some style) :
      Shows palette text start line inString kind style := by
    rintro rules offset unit cell size here belongs rfl
    have units : rules.length = (unitKinds (Snapshot.scan line inString).cells).length :=
      size.trans (length_unitKinds_scan line inString).symm
    have kind := kindOf here belongs
    obtain ⟨old, found⟩ : ∃ old, rules[unit]? = some old :=
      ⟨_, List.getElem?_eq_getElem (units ▸ (List.getElem?_eq_some_iff.mp kind).1)⟩
    rw [foldl_overlays palette _ units, List.getElem?_zipWith, kind, found]
    exact congrArg some (styleOver_of_kindStyle? known old)
  refine ⟨cells, ?_, foldl_runs_ofLine palette inString line, shows rfl, shows rfl, shows rfl, ?_⟩
  · rw [state, ends]
    cases (Snapshot.ofText (text.take (start + line.length))).endsInString <;> simp
  · intro offset unit cell run here belongs code member covered
    exact getElem?_unitKinds_ne_code member covered (code ▸ kindOf here belongs)

/-- **Colouring line by line agrees with the scan of the whole text.** -/
theorem ofText_agrees (palette : Palette) (text : Text) : Agrees palette text := by
  refine ⟨length_ofLines palette false text.lines, fun i start line known starts => ?_⟩
  obtain ⟨inside, rfl⟩ := Text.getElem?_lineStarts.mp starts
  rw [beginsInString_ofText palette inside]
  refine ⟨(getElem?_ofLines palette false text.lines i).trans (known ▸ rfl), ?_⟩
  have begins : Mode.start (Mode.code.after (block (text.lines.take i))).inString =
      Mode.code.after (block (text.lines.take i)) :=
    Mode.start_inString false (Text.endsLine_block _)
  -- The text above the line, the line, and what follows it.
  obtain ⟨rest, division⟩ : ∃ rest, text = block (text.lines.take i) ++ line ++ rest := by
    refine ⟨Text.unlines ([] :: text.lines.drop (i + 1)), ?_⟩
    conv => lhs; rw [Text.eq_block_append inside]
    rw [List.drop_eq_getElem_cons inside, (List.getElem?_eq_some_iff.mp known).2,
      List.append_assoc, ← Text.unlines_append_head line, List.append_nil]
  generalize block (text.lines.take i) = above at *
  apply lineAgrees_of_cells
  · rw [Snapshot.scan_eq_snapshot, Snapshot.ofText_eq_snapshot, begins, division]
    show (Mode.code.after above).cells line =
      ((Mode.code.cells (above ++ line ++ rest)).drop above.length).take line.length
    rw [List.append_assoc, Mode.cells_append, Mode.cells_append,
      List.drop_left' (Mode.length_cells _ above), List.take_left' (Mode.length_cells _ line)]
  · rw [endsInString_ofLine, begins, division, ← List.length_append, List.take_left,
      Snapshot.ofText_eq_snapshot, ← Mode.after_append]
    rfl

end ColouredLine

end LispEditor
