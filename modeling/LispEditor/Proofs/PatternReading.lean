import Mathlib.Logic.Relation
import LispEditor.Pattern.Search
import LispEditor.Proofs.Lines

/-!
# What patterns read

A pattern answers with all the rests that it can leave, so two questions are asked of it: which rests
there are, and which of them comes first. The rests of a repetition are those that a chain of single
readings reaches. The first rest of a sequence comes from the first rests of its parts, as long as the
later part does not fail there.

A search tries every place that no earlier find has passed.

* `mem_many`, `mem_oneOrMore`, `reaches_of_mem_star`: the rests.
* `head?_andThen`, `head?_oneOrMore_eq_some`, `head?_upTo`: the first rest.
* `exists_of_mem_search`: what is found was read at its place.
* `mem_search_or_overtaken`: what can be read at a place is found, or an earlier find goes beyond it.
* `pairwise_search`: finds do not overlap.
-/

namespace LispEditor

namespace Pattern

variable {accepts : Char → Bool} {text rest : Text}

/-! ### The rests -/

theorem mem_char : rest ∈ char accepts text ↔ ∃ c, text = c :: rest ∧ accepts c = true := by
  cases text with
  | nil => simp [char]
  | cons c others =>
      by_cases accepted : accepts c = true
      · simp only [char, accepted, if_true, List.mem_singleton]
        constructor
        · rintro rfl
          exact ⟨c, rfl, accepted⟩
        · rintro ⟨d, split, -⟩
          exact (List.cons.inj split).2.symm
      · simp only [char, if_neg accepted, List.not_mem_nil, false_iff]
        rintro ⟨d, split, accepted'⟩
        exact accepted ((List.cons.inj split).1 ▸ accepted')

theorem mem_word {w : Text} : rest ∈ word w text ↔ text = w ++ rest := by
  by_cases starts : w.isPrefixOf text = true
  · obtain ⟨others, rfl⟩ := List.isPrefixOf_iff_prefix.mp starts
    simp only [word, starts, if_true, List.mem_singleton, List.drop_left, List.append_cancel_left_eq]
    exact eq_comm
  · simp only [word, starts, Bool.false_eq_true, if_false, List.not_mem_nil, false_iff]
    rintro rfl
    exact starts (List.isPrefixOf_iff_prefix.mpr ⟨rest, rfl⟩)

theorem mem_many :
    rest ∈ many accepts text ↔ ∃ taken, text = taken ++ rest ∧ ∀ c ∈ taken, accepts c = true := by
  simp only [many, List.mem_map, List.mem_reverse, List.mem_range, Nat.lt_succ_iff]
  constructor
  · rintro ⟨count, bound, rfl⟩
    refine ⟨text.take count, (List.take_append_drop count text).symm, fun c member => ?_⟩
    have within : text.take count <+: text.takeWhile accepts := by
      refine List.prefix_of_prefix_length_le (List.take_prefix _ _) (List.takeWhile_prefix _) ?_
      exact (List.length_take_le _ _).trans bound
    exact List.mem_takeWhile_imp (within.subset member)
  · rintro ⟨taken, rfl, accepted⟩
    refine ⟨taken.length, ?_, List.drop_left⟩
    rw [List.takeWhile_append_of_pos accepted, List.length_append]
    exact Nat.le_add_right _ _

theorem mem_andThen {first second : Pattern} :
    rest ∈ first.andThen second text ↔ ∃ between ∈ first text, rest ∈ second between :=
  List.mem_flatMap

theorem mem_oneOrMore :
    rest ∈ oneOrMore accepts text ↔
      ∃ taken, taken ≠ [] ∧ text = taken ++ rest ∧ ∀ c ∈ taken, accepts c = true := by
  simp only [oneOrMore, mem_andThen, mem_char, mem_many]
  constructor
  · rintro ⟨between, ⟨c, rfl, accepted⟩, taken, rfl, others⟩
    exact ⟨c :: taken, List.cons_ne_nil _ _, rfl, List.forall_mem_cons.mpr ⟨accepted, others⟩⟩
  · rintro ⟨taken, nonempty, rfl, accepted⟩
    obtain ⟨c, others, rfl⟩ := List.exists_cons_of_ne_nil nonempty
    have ⟨here, there⟩ := List.forall_mem_cons.mp accepted
    exact ⟨others ++ rest, ⟨c, rfl, here⟩, others, rfl, there⟩

theorem mem_absent {pattern : Pattern} :
    rest ∈ absent pattern text ↔ pattern text = [] ∧ rest = text := by
  by_cases fails : pattern text = [] <;> simp [absent, fails]

theorem mem_ahead {condition : Text → Bool} :
    rest ∈ ahead condition text ↔ condition rest = true ∧ rest = text := by
  by_cases holds : condition text = true
  · simp only [ahead, holds, if_true, List.mem_singleton]
    constructor
    · rintro rfl
      exact ⟨holds, rfl⟩
    · exact And.right
  · simp only [ahead, if_neg holds, List.not_mem_nil, false_iff]
    rintro ⟨condition, rfl⟩
    exact holds condition

theorem mem_anyWord {words : List Text} :
    rest ∈ anyWord words text ↔ ∃ w ∈ words, text = w ++ rest := by
  simp only [anyWord, List.mem_flatMap, mem_word]

/-- A chain of readings of a pattern, each of which begins where the last one ended. -/
abbrev Reaches (pattern : Pattern) : Text → Text → Prop :=
  Relation.ReflTransGen fun text rest => rest ∈ pattern text

theorem reaches_of_mem_upTo {pattern : Pattern} {limit : Nat}
    (member : rest ∈ upTo pattern limit text) : Reaches pattern text rest := by
  induction limit generalizing text with
  | zero =>
      rw [List.mem_singleton.mp member]
  | succ limit ih =>
      rcases List.mem_append.mp member with more | none
      · obtain ⟨next, first, later⟩ := List.mem_flatMap.mp more
        exact .head first (ih later)
      · rw [List.mem_singleton.mp none]

/-- A repetition leaves rests only that chains of readings reach. -/
theorem reaches_of_mem_star {pattern : Pattern} (member : rest ∈ star pattern text) :
    Reaches pattern text rest :=
  reaches_of_mem_upTo member

/-! ### The first rest -/

theorem head?_flatMap_of_head? {α β : Type} {items : List α} {f : α → List β} {item : α} {value : β}
    (first : items.head? = some item) (second : (f item).head? = some value) :
    (items.flatMap f).head? = some value := by
  obtain ⟨others, rfl⟩ := List.head?_eq_some_iff.mp first
  obtain ⟨values, found⟩ := List.head?_eq_some_iff.mp second
  rw [List.flatMap_cons, found]
  rfl

theorem head?_andThen {first second : Pattern} {between : Text}
    (before : (first text).head? = some between) (behind : (second between).head? = some rest) :
    (first.andThen second text).head? = some rest :=
  head?_flatMap_of_head? before behind

theorem head?_many (accepts : Char → Bool) (text : Text) :
    (many accepts text).head? = some (text.dropWhile accepts) := by
  have longest : text.drop (text.takeWhile accepts).length = text.dropWhile accepts :=
    calc text.drop (text.takeWhile accepts).length
      _ = (text.takeWhile accepts ++ text.dropWhile accepts).drop (text.takeWhile accepts).length := by
        rw [List.takeWhile_append_dropWhile]
      _ = text.dropWhile accepts := List.drop_left
  rw [many, List.head?_map, List.head?_reverse, List.getLast?_range]
  simp [longest]

theorem head?_oneOrMore_eq_some :
    (oneOrMore accepts text).head? = some rest ↔
      (∃ c ∈ text.head?, accepts c = true) ∧ rest = text.dropWhile accepts := by
  cases text with
  | nil => simp [oneOrMore, andThen, char]
  | cons c others =>
      by_cases accepted : accepts c = true
      · simp only [oneOrMore, andThen, char, accepted, if_true, List.flatMap_singleton, head?_many,
          List.dropWhile_cons_of_pos, Option.some.injEq, List.head?_cons, Option.mem_def,
          exists_eq_left', true_and]
        exact eq_comm
      · simp [oneOrMore, andThen, char, accepted]

theorem head?_oneOrMore_append {taken : Text} (nonempty : taken ≠ [])
    (accepted : ∀ c ∈ taken, accepts c = true) (stops : ∀ c ∈ rest.head?, accepts c = false) :
    (oneOrMore accepts (taken ++ rest)).head? = some rest := by
  obtain ⟨c, others, rfl⟩ := List.exists_cons_of_ne_nil nonempty
  refine head?_oneOrMore_eq_some.mpr ⟨⟨c, rfl, accepted c List.mem_cons_self⟩, ?_⟩
  exact (dropWhile_append_eq accepted stops).symm

theorem head?_upTo {pattern : Pattern} {limit : Nat} {next : Text}
    (first : (pattern text).head? = some next) (later : (upTo pattern limit next).head? = some rest) :
    (upTo pattern (limit + 1) text).head? = some rest := by
  rw [upTo, List.head?_append, head?_flatMap_of_head? first later]
  rfl

theorem head?_upTo_of_fails {pattern : Pattern} (fails : pattern text = []) (limit : Nat) :
    (upTo pattern limit text).head? = some text := by
  cases limit with
  | zero => rfl
  | succ limit => simp [upTo, fails]

end Pattern

/-! ### Searching -/

section Search

variable {α : Type} {attempt : Option Char → Text → Option (α × Nat)} {place : Nat} {found : α}

/-- The character before a place is the last one in front of it, or else the one before the text. -/
theorem getLast?_cons_or (c : Char) (front : Text) (before : Option Char) :
    (c :: front).getLast?.or before = front.getLast?.or (some c) := by
  rw [List.getLast?_cons, Option.some_or, Option.or_some]

/-- What is found was read at its place. -/
theorem exists_of_mem_searchFrom {skip offset : Nat} {before : Option Char} {text : Text}
    (member : (place, found) ∈ searchFrom attempt skip offset before text) :
    ∃ front target taken, text = front ++ target ∧ place = offset + front.length ∧
      attempt (front.getLast?.or before) target = some (found, taken) := by
  induction text generalizing skip offset before with
  | nil => cases member
  | cons c rest ih =>
      -- A find in the rest lies one character further from the start.
      have inRest {skip : Nat}
          (later : (place, found) ∈ searchFrom attempt skip (offset + 1) (some c) rest) :
          ∃ front target taken, c :: rest = front ++ target ∧ place = offset + front.length ∧
            attempt (front.getLast?.or before) target = some (found, taken) := by
        obtain ⟨front, target, taken, rfl, rfl, reads⟩ := ih later
        refine ⟨c :: front, target, taken, rfl, ?_, ?_⟩
        · rw [List.length_cons, Nat.add_assoc, Nat.add_comm 1]
        · rw [getLast?_cons_or, reads]
      cases skip with
      | succ skip => exact inRest member
      | zero =>
          simp only [searchFrom] at member
          split at member
          · next other taken reads =>
              rcases List.mem_cons.mp member with here | later
              · obtain ⟨rfl, rfl⟩ := Prod.mk.inj here
                exact ⟨[], c :: rest, taken, rfl, rfl, reads⟩
              · exact inRest later
          · exact inRest member

theorem exists_of_mem_search {text : Text} (member : (place, found) ∈ search attempt text) :
    ∃ front target taken, text = front ++ target ∧ place = front.length ∧
      attempt front.getLast? target = some (found, taken) := by
  obtain ⟨front, target, taken, split, here, reads⟩ := exists_of_mem_searchFrom member
  rw [Option.or_none] at reads
  exact ⟨front, target, taken, split, here.trans (Nat.zero_add _), reads⟩

theorem mem_searchFrom_or_overtaken {skip offset taken : Nat} {before : Option Char}
    {front target : Text} (skipped : skip ≤ front.length) (nonempty : target ≠ [])
    (reads : attempt (front.getLast?.or before) target = some (found, taken)) :
    (offset + front.length, found) ∈ searchFrom attempt skip offset before (front ++ target) ∨
      ∃ early late other beyond, front = early ++ late ∧ late ≠ [] ∧
        attempt (early.getLast?.or before) (late ++ target) = some (other, beyond) ∧
        late.length < beyond ∧
        (offset + early.length, other) ∈ searchFrom attempt skip offset before (front ++ target) := by
  -- The induction is on the text before the place; `skipped` says that nothing has passed it yet.
  induction front generalizing skip offset before with
  | nil =>
      obtain ⟨c, rest, rfl⟩ := List.exists_cons_of_ne_nil nonempty
      obtain rfl : skip = 0 := Nat.le_zero.mp skipped
      have here : attempt before (c :: rest) = some (found, taken) := reads
      refine .inl ?_
      simp only [List.nil_append, searchFrom, here]
      exact List.mem_cons_self
  | cons c front ih =>
      rw [getLast?_cons_or] at reads
      -- What the search of the rest finds is among the finds, one character further.
      have inRest {skip : Nat} {finds : List (Nat × α)} (skipped : skip ≤ front.length)
          (among : searchFrom attempt skip (offset + 1) (some c) (front ++ target) ⊆ finds) :
          (offset + (c :: front).length, found) ∈ finds ∨
            ∃ early late other beyond, c :: front = early ++ late ∧ late ≠ [] ∧
              attempt (early.getLast?.or before) (late ++ target) = some (other, beyond) ∧
              late.length < beyond ∧ (offset + early.length, other) ∈ finds := by
        have further (part : Text) : offset + (c :: part).length = offset + 1 + part.length := by
          rw [List.length_cons, Nat.add_assoc, Nat.add_comm 1]
        rcases ih skipped reads with here | ⟨early, late, other, beyond, rfl, some, overtakes⟩
        · rw [further]
          exact .inl (among here)
        · refine .inr ⟨c :: early, late, other, beyond, rfl, some, ?_, overtakes.2.1, ?_⟩
          · rw [getLast?_cons_or, overtakes.1]
          · rw [further]
            exact among overtakes.2.2
      cases skip with
      | succ skip => exact inRest (Nat.le_of_succ_le_succ skipped) (List.Subset.refl _)
      | zero =>
          simp only [List.cons_append, searchFrom]
          split
          · next other beyond overtakes =>
              by_cases short : beyond - 1 ≤ front.length
              · exact inRest short (List.subset_cons_self _ _)
              · refine .inr ⟨[], c :: front, other, beyond, rfl, List.cons_ne_nil _ _,
                  overtakes, ?_, List.mem_cons_self⟩
                rw [List.length_cons]
                omega
          · exact inRest (Nat.zero_le _) (List.Subset.refl _)

/-- **What can be read at a place is found**, or an earlier find goes beyond the place. -/
theorem mem_search_or_overtaken {taken : Nat} (front : Text) {target : Text} (nonempty : target ≠ [])
    (reads : attempt front.getLast? target = some (found, taken)) :
    (front.length, found) ∈ search attempt (front ++ target) ∨
      ∃ early late other beyond, front = early ++ late ∧ late ≠ [] ∧
        attempt early.getLast? (late ++ target) = some (other, beyond) ∧ late.length < beyond ∧
        (early.length, other) ∈ search attempt (front ++ target) := by
  have finds := @mem_searchFrom_or_overtaken α attempt found 0 0 taken none front target
    (Nat.zero_le _) nonempty (by rw [Option.or_none, reads])
  simpa only [search, Nat.zero_add, Option.or_none] using finds

/-- A find lies behind what is skipped. -/
theorem le_of_mem_searchFrom {skip offset : Nat} {before : Option Char} {text : Text}
    (member : (place, found) ∈ searchFrom attempt skip offset before text) : offset + skip ≤ place := by
  induction text generalizing skip offset before with
  | nil => cases member
  | cons c rest ih =>
      cases skip with
      | succ skip =>
          have later := ih member
          omega
      | zero =>
          simp only [searchFrom] at member
          split at member
          · rcases List.mem_cons.mp member with here | later
            · exact Nat.le_of_eq (Prod.mk.inj here).1.symm
            · have := ih later
              omega
          · have := ih member
            omega

theorem pairwise_searchFrom {size : α → Nat}
    (sizes : ∀ last text found taken, attempt last text = some (found, taken) → taken = size found)
    (skip offset : Nat) (before : Option Char) (text : Text) :
    (searchFrom attempt skip offset before text).Pairwise
      fun a b => a.1 < b.1 ∧ a.1 + size a.2 ≤ b.1 := by
  induction text generalizing skip offset before with
  | nil => exact .nil
  | cons c rest ih =>
      cases skip with
      | succ skip => exact ih skip (offset + 1) (some c)
      | zero =>
          simp only [searchFrom]
          split
          · next found taken reads =>
              refine List.pairwise_cons.mpr ⟨fun later member => ?_, ih _ _ _⟩
              have behind := le_of_mem_searchFrom member
              obtain rfl := sizes _ _ _ _ reads
              show offset < later.1 ∧ offset + size found ≤ later.1
              omega
          · exact ih 0 (offset + 1) (some c)

/-- **Finds do not overlap.** -/
theorem pairwise_search {size : α → Nat}
    (sizes : ∀ last text found taken, attempt last text = some (found, taken) → taken = size found)
    (text : Text) :
    (search attempt text).Pairwise fun a b => a.1 < b.1 ∧ a.1 + size a.2 ≤ b.1 :=
  pairwise_searchFrom sizes 0 0 none text

end Search

end LispEditor
