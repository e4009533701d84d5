import Mathlib.Data.List.TakeWhile
import LispEditor.Motion.Column
import LispEditor.Proofs.ScanMode

/-!
# Strings of a scan

The spans of a scan lie in the text, in order and apart from each other. So the binary search among
them finds the span that an offset lies in, and an offset is inside a string exactly when the text
before it ends in one.

* `partitionPoint_append`: what the binary search finds in a list it can be used on.
* `spans_pairwise`, `spans_bounds`: the order of the spans.
* `stringSpan?_eq_some_iff`: look-up among ordered spans.
* `inString_scan`: the query at an offset against a scan of the text before it.
-/

namespace LispEditor

/-! ### Binary search -/

section PartitionPoint

variable {α : Type} {goesRight : α → Bool} {front back : List α}

theorem partitionPoint_search_append (right : ∀ item ∈ front, goesRight item = true)
    (left : ∀ item ∈ back, goesRight item = false) {low high : Nat} (above : low ≤ front.length)
    (below : front.length ≤ high) (inside : high ≤ (front ++ back).length) :
    partitionPoint.search goesRight (front ++ back) low high = front.length := by
  fun_induction partitionPoint.search goesRight (front ++ back) low high with
  | case1 low high apart middle item found goes ih =>
      refine ih ?_ below inside
      rcases Nat.lt_or_ge middle front.length with before | behind
      · exact before
      · rw [List.getElem?_append_right behind] at found
        rw [left item (List.mem_of_getElem? found)] at goes
        cases goes
  | case2 low high apart middle item found stays ih =>
      have middleLt : middle < high := by omega
      refine ih above ?_ (by omega)
      rcases Nat.lt_or_ge middle front.length with before | behind
      · rw [List.getElem?_append_left before] at found
        exact absurd (right item (List.mem_of_getElem? found)) stays
      · exact behind
  | case3 low high apart middle missing =>
      have middleLt : middle < high := by omega
      rw [List.getElem?_eq_none_iff] at missing
      omega
  | case4 low high together => omega

/-- In a list with all items that go right in front, the search ends behind them. -/
theorem partitionPoint_append (right : ∀ item ∈ front, goesRight item = true)
    (left : ∀ item ∈ back, goesRight item = false) :
    partitionPoint goesRight (front ++ back) = front.length := by
  refine partitionPoint_search_append right left (Nat.zero_le _) ?_ (Nat.le_refl _)
  rw [List.length_append]
  exact Nat.le_add_right _ _

end PartitionPoint

/-! ### The order of the spans -/

namespace Mode

/-- A span of a text lies in the text, except that the string which the text begins in may have
begun before it. -/
theorem spans_bounds {opened offset : Nat} (begun : opened ≤ offset) {mode : Mode} {text : Text}
    {span : Span} (member : span ∈ mode.spans opened offset text) :
    ((if mode.inString then opened else offset : Nat) : Int) ≤ span.start ∧
      span.start ≤ span.stop ∧ span.stop ≤ offset + text.length := by
  induction text generalizing mode opened offset with
  | nil =>
      cases inside : mode.inString with
      | false => simp [spans, inside] at member
      | true =>
          simp only [spans, inside, if_true, List.mem_singleton] at member
          subst member
          simp only [if_true, List.length_nil]
          omega
  | cons c rest ih =>
      have early : (if mode.inString then opened else offset) ≤ offset := by
        split <;> omega
      simp only [spans] at member
      split at member
      · next closes =>
        have inside : mode.inString = true := by simp_all
        rcases List.mem_cons.mp member with rfl | later
        · simp only [List.length_cons, inside, if_true]
          omega
        · obtain ⟨low, order, high⟩ := ih (Nat.le_succ offset) later
          simp only [List.length_cons]
          split at low <;> omega
      · obtain ⟨low, order, high⟩ := ih (Nat.le_succ_of_le early) member
        simp only [List.length_cons]
        split at low <;> omega

/-- No span is empty, unless the scan begins inside a string and the text is empty. -/
theorem spans_nonempty {mode : Mode} {opened offset : Nat}
    (begun : mode.inString = false ∨ opened < offset) {text : Text} {span : Span}
    (member : span ∈ mode.spans opened offset text) : span.start < span.stop := by
  induction text generalizing mode opened offset with
  | nil =>
      cases inside : mode.inString with
      | false => simp [spans, inside] at member
      | true =>
          simp only [spans, inside, if_true, List.mem_singleton] at member
          subst member
          simp only [inside, Bool.true_eq_false, false_or] at begun
          simp only
          omega
  | cons c rest ih =>
      simp only [spans] at member
      split at member
      · next closes =>
          have inside : mode.inString = true := by simp_all
          simp only [inside, Bool.true_eq_false, false_or] at begun
          rcases List.mem_cons.mp member with rfl | later
          · simp only
            omega
          · exact ih (Or.inr (Nat.lt_succ_self offset)) later
      · refine ih (Or.inr ?_) member
        split
        · next inside =>
            simp only [inside, Bool.true_eq_false, false_or] at begun
            omega
        · exact Nat.lt_succ_self offset

/-- The spans of a text stand in order and do not overlap. -/
theorem spans_pairwise {opened offset : Nat} (begun : opened ≤ offset) (mode : Mode) (text : Text) :
    (mode.spans opened offset text).Pairwise fun a b => a.stop ≤ b.start := by
  induction text generalizing mode opened offset with
  | nil =>
      cases inside : mode.inString <;> simp [spans, inside]
  | cons c rest ih =>
      have early : (if mode.inString then opened else offset) ≤ offset := by
        split <;> omega
      simp only [spans]
      split
      · next closes =>
          have outside : (mode.next c).inString = false := by simp_all
          refine List.pairwise_cons.mpr ⟨fun span later => ?_, ih (Nat.le_succ offset) _⟩
          have low := (spans_bounds (Nat.le_succ offset) later).1
          simpa [outside] using low
      · exact ih (Nat.le_succ_of_le early) _

/-- A text that ends in a string has one. -/
theorem spans_ne_nil {mode : Mode} {text : Text} (inside : (mode.after text).inString = true)
    (opened offset : Nat) : mode.spans opened offset text ≠ [] := by
  induction text generalizing mode opened offset with
  | nil =>
      have here : mode.inString = true := inside
      simp [spans, here]
  | cons c rest ih =>
      simp only [spans]
      split
      · exact List.cons_ne_nil _ _
      · exact ih inside _ _

/-- A text that begins in a string begins with the rest of it. -/
theorem spans_of_inString {mode : Mode} (inside : mode.inString = true) (opened offset : Nat)
    (text : Text) :
    ∃ (stop : Nat) (rest : List Span), mode.spans opened offset text = ⟨opened, stop⟩ :: rest ∧
      (text = [] ∧ stop = offset ∧ rest = [] ∨ offset < stop) := by
  induction text generalizing mode offset with
  | nil => exact ⟨offset, [], by simp [spans, inside], Or.inl ⟨rfl, rfl, rfl⟩⟩
  | cons c rest ih =>
      cases stays : (mode.next c).inString with
      | false =>
          refine ⟨offset + 1, (mode.next c).spans offset (offset + 1) rest, ?_, Or.inr ?_⟩
          · simp [spans, inside, stays]
          · exact Nat.lt_succ_self offset
      | true =>
          obtain ⟨stop, others, split, far⟩ := ih stays (offset + 1)
          refine ⟨stop, others, ?_, Or.inr ?_⟩
          · simpa [spans, inside, stays] using split
          · omega

/-- A character is of kind string where it is read in a string or opens one. -/
theorem kindOf_eq_string (mode : Mode) (c : Char) :
    mode.kindOf c = .string ↔ mode.inString = true ∨ (mode.next c).inString = true := by
  cases mode with
  | code =>
      simp only [kindOf, next]
      by_cases comment : c = ';'
      · simp [comment, inString]
      · by_cases quote : c = '"'
        · simp [quote, inString]
        · by_cases backslash : c = '\\' <;> simp [comment, quote, backslash, inString]
  | comment => by_cases newline : c = '\n' <;> simp [kindOf, next, newline, inString]
  | string => simp [kindOf, inString]
  | escape => simp [kindOf, inString]
  | literal => simp [kindOf, next, inString]

/-- The characters of a string are of kind string. -/
theorem kind_of_mem_spans {opened offset : Nat} (begun : opened ≤ offset) {mode : Mode}
    {text : Text} {span : Span} (member : span ∈ mode.spans opened offset text) {i : Nat}
    (above : span.start ≤ offset + i) (below : offset + i < span.stop) :
    ((mode.cells text)[i]?).map Cell.kind = some .string := by
  induction text generalizing mode opened offset i with
  | nil =>
      have high := (spans_bounds begun member).2.2
      simp only [List.length_nil] at high
      omega
  | cons c rest ih =>
      have early : (if mode.inString then opened else offset) ≤ offset := by
        split <;> omega
      cases i with
      | zero =>
          -- A span that begins at or before this character covers it or ends before the next one.
          simp only [cells_cons, List.getElem?_cons_zero, Option.map_some, Option.some.injEq]
          rw [kindOf_eq_string]
          simp only [spans] at member
          split at member
          · next closes => exact Or.inl (by simp_all)
          · refine Or.inr ?_
            cases inside : (mode.next c).inString with
            | true => rfl
            | false =>
                have low := (spans_bounds (Nat.le_succ_of_le early) member).1
                simp only [inside, Bool.false_eq_true, if_false] at low
                omega
      | succ i =>
          have place : (offset : Int) + (i + 1 : Nat) = (offset + 1 : Nat) + (i : Nat) := by omega
          rw [place] at above below
          simp only [cells_cons, List.getElem?_cons_succ]
          simp only [spans] at member
          split at member
          · rcases List.mem_cons.mp member with rfl | later
            · simp only at below
              omega
            · exact ih (Nat.le_succ offset) later above below
          · exact ih (Nat.le_succ_of_le early) member above below

/-- Every character of kind string lies in a span. -/
theorem exists_span_of_kind {opened offset : Nat} (begun : opened ≤ offset) {mode : Mode}
    {text : Text} {i : Nat} (string : ((mode.cells text)[i]?).map Cell.kind = some .string) :
    ∃ span ∈ mode.spans opened offset text, span.start ≤ offset + i ∧ offset + i < span.stop := by
  induction text generalizing mode opened offset i with
  | nil => simp at string
  | cons c rest ih =>
      have early : (if mode.inString then opened else offset) ≤ offset := by
        split <;> omega
      cases i with
      | zero =>
          simp only [cells_cons, List.getElem?_cons_zero, Option.map_some, Option.some.injEq]
            at string
          rw [kindOf_eq_string] at string
          simp only [spans]
          split
          · refine ⟨⟨opened, (offset + 1 : Nat)⟩, List.mem_cons_self, ?_, ?_⟩ <;> simp only <;> omega
          · next stays =>
              have inside : (mode.next c).inString = true := by
                rcases string with here | next
                · simpa [here] using stays
                · exact next
              obtain ⟨stop, others, split, far⟩ := spans_of_inString inside
                (if mode.inString then opened else offset) (offset + 1) rest
              rw [split]
              refine ⟨_, List.mem_cons_self, ?_, ?_⟩ <;> simp only <;> omega
      | succ i =>
          have place : (offset : Int) + (i + 1 : Nat) = (offset + 1 : Nat) + (i : Nat) := by omega
          rw [place]
          simp only [cells_cons, List.getElem?_cons_succ] at string
          simp only [spans]
          split
          · obtain ⟨span, member, bounds⟩ := ih (Nat.le_succ offset) string
            exact ⟨span, List.mem_cons_of_mem _ member, bounds⟩
          · exact ih (Nat.le_succ_of_le early) string

end Mode

/-! ### Look-up -/

namespace Snapshot

/-- Ordered spans fall into those that begin at or before an offset and those behind them. -/
theorem exists_split {spans : List Span} (ordered : spans.Pairwise fun a b => a.stop ≤ b.start)
    (valid : ∀ span ∈ spans, span.start ≤ span.stop) (offset : Int) :
    ∃ front back, spans = front ++ back ∧
      (∀ span ∈ front, decide (span.start ≤ offset) = true) ∧
      ∀ span ∈ back, decide (span.start ≤ offset) = false := by
  refine ⟨spans.takeWhile fun span => decide (span.start ≤ offset),
    spans.dropWhile fun span => decide (span.start ≤ offset),
    List.takeWhile_append_dropWhile.symm, fun span => List.mem_takeWhile_imp, ?_⟩
  induction spans with
  | nil => simp
  | cons first others ih =>
      obtain ⟨apart, ordered⟩ := List.pairwise_cons.mp ordered
      by_cases early : first.start ≤ offset
      · rw [List.dropWhile_cons_of_pos (by simpa using early)]
        exact ih ordered fun span member => valid span (List.mem_cons_of_mem first member)
      · rw [List.dropWhile_cons_of_neg (by simpa using early)]
        intro span member
        have nonempty := valid first List.mem_cons_self
        rcases List.mem_cons.mp member with rfl | later
        · exact decide_eq_false early
        · have order := apart span later
          exact decide_eq_false (by omega)

/-- Among ordered spans, the search finds the one that an offset lies in. -/
theorem stringSpan?_eq_some_iff {s : Snapshot}
    (ordered : s.strings.Pairwise fun a b => a.stop ≤ b.start)
    (valid : ∀ span ∈ s.strings, span.start ≤ span.stop) {offset : Int} {span : Span} :
    s.stringSpan? offset = some span ↔
      span ∈ s.strings ∧ span.start ≤ offset ∧ offset < span.stop := by
  constructor
  · intro found
    obtain ⟨front, back, split, right, left⟩ := exists_split ordered valid offset
    unfold stringSpan? at found
    rw [split, partitionPoint_append right left] at found
    cases size : front.length with
    | zero => simp [size] at found
    | succ last =>
        have shorter : last < front.length := by omega
        simp only [size, List.getElem?_append_left shorter, Option.filter_eq_some_iff,
          decide_eq_true_eq] at found
        have member := List.mem_of_getElem? found.1
        refine ⟨?_, by simpa using right span member, found.2⟩
        rw [split]
        exact List.mem_append_left back member
  · rintro ⟨member, above, below⟩
    obtain ⟨front, back, split⟩ := List.append_of_mem member
    rw [split, List.pairwise_append] at ordered
    obtain ⟨-, behind, before⟩ := ordered
    have right : ∀ item ∈ front ++ [span], decide (item.start ≤ offset) = true := by
      intro item itemMem
      rcases List.mem_append.mp itemMem with inFront | same
      · have order := before item inFront span List.mem_cons_self
        have nonempty := valid item (by rw [split]; exact List.mem_append_left _ inFront)
        exact decide_eq_true (by omega)
      · rw [List.mem_singleton.mp same]
        exact decide_eq_true above
    have left : ∀ item ∈ back, decide (item.start ≤ offset) = false := by
      intro item itemMem
      have order := (List.pairwise_cons.mp behind).1 item itemMem
      exact decide_eq_false (by omega)
    have point := partitionPoint_append right left
    have whole : s.strings = front ++ [span] ++ back := by rw [split]; simp
    unfold stringSpan?
    rw [whole, point]
    simp [below]

theorem ordered_scan (text : Text) (flag : Bool) :
    (scan text flag).strings.Pairwise fun a b => a.stop ≤ b.start := by
  rw [scan_eq_snapshot]
  exact Mode.spans_pairwise (Nat.le_refl 0) _ text

/-- The spans of a scan lie in the text. -/
theorem within_scan {text : Text} {flag : Bool} {span : Span}
    (member : span ∈ (scan text flag).strings) :
    0 ≤ span.start ∧ span.start ≤ span.stop ∧ span.stop ≤ text.length := by
  rw [scan_eq_snapshot] at member
  obtain ⟨low, order, high⟩ := Mode.spans_bounds (Nat.le_refl 0) member
  simp only [ite_self] at low
  exact ⟨low, order, by omega⟩

theorem valid_scan (text : Text) (flag : Bool) :
    ∀ span ∈ (scan text flag).strings, span.start ≤ span.stop :=
  fun _ member => (within_scan member).2.1

/-- No span of a scan is empty, unless the text is. -/
theorem nonempty_scan {text : Text} {flag : Bool} (some : text ≠ []) {span : Span}
    (member : span ∈ (scan text flag).strings) : span.start < span.stop := by
  obtain ⟨c, rest, rfl⟩ := List.exists_cons_of_ne_nil some
  rw [scan_eq_snapshot] at member
  simp only [Mode.snapshot, Mode.spans, ite_self] at member
  split at member
  · rcases List.mem_cons.mp member with rfl | later
    · exact Int.zero_lt_one
    · exact Mode.spans_nonempty (.inr Nat.zero_lt_one) later
  · exact Mode.spans_nonempty (.inr Nat.zero_lt_one) member

theorem clamp_clamp (s : Snapshot) (offset : Int) : s.clamp (s.clamp offset : Nat) = s.clamp offset :=
  Text.clamp_natCast_of_le (Text.clamp_le _ _)

/-- An offset inside the snapshot is its own clamp. -/
theorem clamp_scan_append (a b : Text) (flag : Bool) :
    (scan (a ++ b) flag).clamp (a.length : Int) = a.length := by
  refine Text.clamp_natCast_of_le ?_
  rw [size_scan, List.length_append]
  exact Nat.le_add_right _ _

/-- Where a piece of text ends in a string, the offset behind it is in that string. -/
theorem inString_scan_of_inside {a : Text} {flag : Bool} (nonempty : a ≠ [])
    (inside : ((Mode.start flag).after a).inString = true) (b : Text) :
    (scan (a ++ b) flag).inString a.length = true := by
  obtain ⟨last, size⟩ := Nat.exists_eq_succ_of_ne_zero (mt List.length_eq_zero_iff.mp nonempty)
  obtain ⟨closed, opened, bound, split⟩ := Mode.spans_split (Nat.le_refl 0) (Mode.start flag) a
  obtain ⟨stop, rest, first, far⟩ := Mode.spans_of_inString inside opened (0 + a.length) b
  have strings : (scan (a ++ b) flag).strings = closed ++ ⟨opened, stop⟩ :: rest := by
    rw [scan_eq_snapshot, ← first]
    exact split b
  have early : opened < a.length := by
    rcases bound with ⟨empty, -⟩ | early
    · exact absurd empty nonempty
    · omega
  have found : (scan (a ++ b) flag).stringSpan? last = some ⟨opened, stop⟩ := by
    rw [stringSpan?_eq_some_iff (ordered_scan _ _) (valid_scan _ _), strings]
    refine ⟨List.mem_append_right closed List.mem_cons_self, ?_, ?_⟩
    · show (opened : Int) ≤ last
      omega
    · show (last : Int) < stop
      omega
  unfold inString
  rw [clamp_scan_append, size]
  simp only [found, Bool.and_eq_true, Bool.or_eq_true, decide_eq_true_eq]
  refine ⟨by omega, ?_⟩
  rcases far with ⟨rfl, -, rfl⟩ | far
  · -- The text ends here, so the string is the one that the text ends in.
    refine Or.inr ?_
    have ends : (scan (a ++ []) flag).endsInString = true := by
      rw [scan_eq_snapshot, List.append_nil]
      exact inside
    rw [isOpenString, ends, strings]
    simp
  · exact Or.inl (by omega)

/-- Where a piece of text does not end in a string, the strings that begin in it are closed in it. -/
theorem closed_of_start_lt {a : Text} {flag : Bool}
    (outside : ((Mode.start flag).after a).inString = false) {b : Text} {span : Span}
    (member : span ∈ (scan (a ++ b) flag).strings) (early : span.start < a.length) :
    span.stop ≤ a.length ∧ (scan (a ++ b) flag).isOpenString span = false := by
  have strings : (scan (a ++ b) flag).strings = (Mode.start flag).spans 0 0 a ++
      ((Mode.start flag).after a).spans 0 (0 + a.length) b := by
    rw [scan_eq_snapshot]
    exact Mode.spans_append outside (Nat.le_refl 0) b 0
  have notBehind : span ∉ ((Mode.start flag).after a).spans 0 (0 + a.length) b := by
    intro member
    have low := (Mode.spans_bounds (Nat.zero_le _) member).1
    simp only [outside, Bool.false_eq_true, if_false] at low
    omega
  constructor
  · rw [strings] at member
    have inFront := (List.mem_append.mp member).resolve_right notBehind
    have := (Mode.spans_bounds (Nat.le_refl 0) inFront).2.2
    omega
  · rw [Bool.eq_false_iff]
    intro isOpen
    simp only [isOpenString, Bool.and_eq_true, beq_iff_eq] at isOpen
    obtain ⟨ends, isLast⟩ := isOpen
    -- The string that the text ends in begins behind the first piece.
    have later : ((Mode.start flag).after a).spans 0 (0 + a.length) b ≠ [] := by
      rw [scan_eq_snapshot] at ends
      refine Mode.spans_ne_nil ?_ _ _
      rw [← Mode.after_append]
      exact ends
    rw [strings, List.getLast?_append, List.getLast?_eq_some_getLast later,
      Option.some_or] at isLast
    exact notBehind (Option.some.inj isLast ▸ List.getLast_mem later)

/-- Where a piece of text does not end in a string, the offset behind it is in no string. -/
theorem inString_scan_of_outside {a : Text} {flag : Bool}
    (outside : ((Mode.start flag).after a).inString = false) (b : Text) :
    (scan (a ++ b) flag).inString a.length = false := by
  cases size : a.length with
  | zero =>
      unfold inString
      rw [← size, clamp_scan_append, size]
  | succ last =>
      unfold inString
      rw [← size, clamp_scan_append, size]
      cases found : (scan (a ++ b) flag).stringSpan? last with
      | none => simp [found]
      | some span =>
          obtain ⟨member, above, -⟩ :=
            (stringSpan?_eq_some_iff (ordered_scan _ _) (valid_scan _ _)).mp found
          obtain ⟨high, closed⟩ := closed_of_start_lt outside member (by omega)
          have notBefore : ¬ ((last : Int) + 1 < span.stop) := by omega
          simp [found, closed, notBefore]

/-- **An offset is inside a string exactly when the text before it ends in one.** -/
theorem inString_scan (a b : Text) (flag : Bool) (determined : a ≠ [] ∨ flag = false) :
    (scan (a ++ b) flag).inString a.length = ((Mode.start flag).after a).inString := by
  cases mode : ((Mode.start flag).after a).inString with
  | false => exact inString_scan_of_outside mode b
  | true =>
      refine inString_scan_of_inside ?_ mode b
      rintro rfl
      rcases determined with nonempty | rfl
      · exact nonempty rfl
      · cases mode

/-- The same for a text that begins in code. -/
theorem inString_ofText (a b : Text) :
    (ofText (a ++ b)).inString a.length = (Mode.code.after a).inString :=
  inString_scan a b false (Or.inr rfl)

end Snapshot

end LispEditor
