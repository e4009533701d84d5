import LispEditor.Proofs.BlankEdits
import LispEditor.Proofs.DefinitionHead

/-!
# Names in code

The menu lists a definition if its bracket is code. Between the bracket and the name it reads metadata as
plain characters: a word goes on over quotes and semicolons, and a map ends at its first brace, also at
one in a string. So the name it comes to can be part of a string or of a comment. It is in code exactly
if what stands between the form and the name, scanned on its own, ends in code.

* `exists_reads`: what a listed definition was read from.
* `Reads.nameKinds_eq`: the kinds of a name follow from what leads to it.
* `isInCode_iff_endsInCode`: which names are in code, and what the others are.
-/

namespace LispEditor

/-! ### Texts without quotes and semicolons -/

namespace Mode

/-- A character that opens nothing leaves the scan in code. -/
theorem next_of_plain {c : Char} (plain : c ≠ ';' ∧ c ≠ '"' ∧ c ≠ '\\') : code.next c = code := by
  simp [next, plain]

/-- In code, and between a backslash and its character, nothing but quotes and semicolons leads into
strings and comments. -/
theorem step_plain {mode : Mode} (outside : mode = code ∨ mode = literal) {c : Char}
    (plain : c ≠ '"' ∧ c ≠ ';') :
    (mode.next c = code ∨ mode.next c = literal) ∧
      (mode.kindOf c = .code ∨ mode.kindOf c = .literal) := by
  rcases outside with rfl | rfl
  · by_cases backslash : c = '\\' <;> simp [next, kindOf, plain, backslash]
  · simp [next, kindOf]

theorem after_plain {mode : Mode} (outside : mode = code ∨ mode = literal) {text : Text}
    (plain : ∀ c ∈ text, c ≠ '"' ∧ c ≠ ';') : mode.after text = code ∨ mode.after text = literal := by
  induction text generalizing mode with
  | nil => exact outside
  | cons c rest ih =>
      obtain ⟨here, there⟩ := List.forall_mem_cons.mp plain
      exact ih (step_plain outside here).1 there

theorem kinds_plain {mode : Mode} (outside : mode = code ∨ mode = literal) {text : Text}
    (plain : ∀ c ∈ text, c ≠ '"' ∧ c ≠ ';') :
    ∀ kind ∈ (mode.cells text).map Cell.kind, kind = .code ∨ kind = .literal := by
  induction text generalizing mode with
  | nil => simp
  | cons c rest ih =>
      obtain ⟨here, there⟩ := List.forall_mem_cons.mp plain
      rw [cells_cons, List.map_cons]
      exact List.forall_mem_cons.mpr
        ⟨(step_plain outside here).2, ih (step_plain outside here).1 there⟩

/-- A string goes on where there is no quote. -/
theorem kinds_inString {mode : Mode} (inside : mode.inString = true) {text : Text}
    (noQuote : ∀ c ∈ text, c ≠ '"') : ∀ kind ∈ (mode.cells text).map Cell.kind, kind = .string := by
  induction text generalizing mode with
  | nil => simp
  | cons c rest ih =>
      obtain ⟨here, there⟩ := List.forall_mem_cons.mp noQuote
      have stays : (mode.next c).inString = true := by
        cases mode with
        | string => by_cases backslash : c = '\\' <;> simp [next, here, backslash, inString]
        | escape => rfl
        | code => cases inside
        | comment => cases inside
        | literal => cases inside
      rw [cells_cons, List.map_cons]
      exact List.forall_mem_cons.mpr ⟨(kindOf_eq_string mode c).mpr (.inl inside), ih stays there⟩

/-- A comment goes on where there is no newline. -/
theorem kinds_comment {text : Text} (noNewline : '\n' ∉ text) :
    ∀ kind ∈ (comment.cells text).map Cell.kind, kind = .comment := by
  have all : ∀ c ∈ text, (c != '\n') = true := by
    rintro c member
    simp only [bne_iff_ne, ne_eq]
    rintro rfl
    exact noNewline member
  rw [cells_comment, List.takeWhile_eq_self_iff.mpr all, List.dropWhile_eq_nil_iff.mpr all]
  simp

/-- Behind a blank nothing waits for its character. -/
theorem next_blank {c : Char} (blank : Text.isBlank c = true) (mode : Mode) :
    mode.next c = code ∨ mode.next c = comment ∨ mode.next c = string := by
  have plain : c ≠ ';' ∧ c ≠ '"' ∧ c ≠ '\\' := by
    refine ⟨?_, ?_, ?_⟩ <;> rintro rfl <;> cases blank
  cases mode with
  | code => exact .inl (next_of_plain plain)
  | comment => by_cases newline : c = '\n' <;> simp [next, newline]
  | string => exact .inr (.inr (by simp [next, plain]))
  | escape => exact .inr (.inr rfl)
  | literal => exact .inl rfl

end Mode

namespace Definition

/-! ### What a listed definition is read from -/

/-- The kinds of the characters of a definition's name. -/
def nameKinds (text : Text) (d : Definition) : List Kind :=
  ((Snapshot.ofText text).kinds.drop d.position).take d.name.length

/-- Whether no character of a definition's name is part of a string or a comment. -/
def IsInCode (text : Text) (d : Definition) : Prop :=
  ∀ kind ∈ nameKinds text d, kind ≠ .string ∧ kind ≠ .comment

/-- A text that is divided as a definition in it was read: up to its bracket, which is code, and then
into form, what leads to the name, name and rest. -/
structure Reads (text : Text) (d : Definition) (front form between rest : Text) : Prop where
  text_eq : text = front ++ '(' :: (form ++ (between ++ (d.name ++ rest)))
  position_eq : d.position = (front ++ '(' :: (form ++ between)).length
  kind_eq : d.kind = .ofForm form
  bracket : (Snapshot.ofText text).kinds[front.length]? = some .code
  isForm : IsForm isFormChar form
  leads : Leads Text.isBlank IsPiece between
  isName : IsRun isNameChar d.name

theorem exists_reads {text : Text} {d : Definition} (reported : d ∈ ofText text) :
    ∃ front form between rest, Reads text d front form between rest := by
  obtain ⟨⟨place, m⟩, filtered, rfl⟩ := List.mem_map.mp reported
  obtain ⟨found, isCode⟩ := List.mem_filter.mp filtered
  obtain ⟨front, between, rest, division, rfl, distance, divides⟩ := exists_of_mem_matches found
  refine ⟨front, m.form, between, rest, division, ?_, rfl, ?_, divides.isForm, divides.leads,
    divides.isName⟩
  · rw [List.length_append, ← distance]
    rfl
  · rw [← Snapshot.kindAt?_natCast]
    exact eq_of_beq isCode

namespace Reads

variable {text : Text} {d : Definition} {front form between rest : Text}

/-- Up to the form a listed definition is code, so only what leads to the name has a say in its kinds. -/
theorem after_eq (reads : Reads text d front form between rest) :
    Mode.code.after (front ++ '(' :: (form ++ between)) = Mode.code.after between := by
  have bracket := reads.bracket
  rw [reads.text_eq, Snapshot.kinds_ofText_append, Option.some.injEq] at bracket
  have inForm : Mode.code.after form = .code := by
    refine Mode.after_of_stays fun c member => Mode.next_of_plain ⟨?_, ?_, ?_⟩
    · rintro rfl
      exact reads.isForm.not_mem (by decide) member
    · rintro rfl
      exact reads.isForm.not_mem (by decide) member
    · rintro rfl
      exact reads.isForm.not_mem (by decide) member
  rw [Mode.after_append, Mode.after_cons, Mode.next_of_kindOf bracket, Mode.after_append, inForm]

theorem nameKinds_eq (reads : Reads text d front form between rest) :
    nameKinds text d = ((Mode.code.after between).cells d.name).map Cell.kind := by
  have division : text = front ++ '(' :: (form ++ between) ++ (d.name ++ rest) := by
    rw [reads.text_eq]
    simp only [List.append_assoc, List.cons_append]
  rw [nameKinds, division, reads.position_eq, Snapshot.kinds_between, reads.after_eq]

/-- What leads to a name ends in code, in a comment or in a string. -/
theorem after_cases (reads : Reads text d front form between rest) :
    Mode.code.after between = .code ∨ Mode.code.after between = .comment ∨
      Mode.code.after between = .string := by
  obtain ⟨init, c, rfl, blank⟩ := reads.leads.exists_last_blank
  rw [Mode.after_append]
  exact Mode.next_blank blank _

theorem not_mem_name (reads : Reads text d front form between rest) {c : Char}
    (other : isNameChar c = false) : c ∉ d.name := by
  intro member
  cases other.symm.trans (reads.isName.all c member)

/-- A name that is read in code holds nothing but code and literals. -/
theorem isInCode_of_after (reads : Reads text d front form between rest)
    (inCode : Mode.code.after between = .code) : IsInCode text d := by
  have plain : ∀ c ∈ d.name, c ≠ '"' ∧ c ≠ ';' := by
    intro c member
    constructor
    · rintro rfl
      exact reads.not_mem_name rfl member
    · rintro rfl
      exact reads.not_mem_name rfl member
  intro kind member
  rw [reads.nameKinds_eq, inCode] at member
  rcases Mode.kinds_plain (.inl rfl) plain kind member with rfl | rfl
  · simp
  · simp

/-- A name that is read elsewhere lies in one string or in one comment as a whole. -/
theorem nameKinds_cases (reads : Reads text d front form between rest)
    (elsewhere : Mode.code.after between ≠ .code) :
    (∀ kind ∈ nameKinds text d, kind = .string) ∨ ∀ kind ∈ nameKinds text d, kind = .comment := by
  rw [reads.nameKinds_eq]
  rcases reads.after_cases with inCode | inComment | inString
  · exact absurd inCode elsewhere
  · rw [inComment]
    exact .inr (Mode.kinds_comment (reads.not_mem_name rfl))
  · rw [inString]
    refine .inl (Mode.kinds_inString rfl ?_)
    rintro c member rfl
    exact reads.not_mem_name rfl member

theorem isInCode_iff (reads : Reads text d front form between rest) :
    IsInCode text d ↔ Mode.code.after between = .code := by
  refine ⟨fun inCode => ?_, reads.isInCode_of_after⟩
  by_contra elsewhere
  obtain ⟨kind, member⟩ : ∃ kind, kind ∈ nameKinds text d := by
    refine List.exists_mem_of_ne_nil _ fun empty => reads.isName.nonempty ?_
    have size := congrArg List.length empty
    rw [reads.nameKinds_eq, List.length_map, Mode.length_cells] at size
    exact List.length_eq_zero_iff.mp size
  rcases reads.nameKinds_cases elsewhere with inString | inComment
  · exact (inCode kind member).1 (inString kind member)
  · exact (inCode kind member).2 (inComment kind member)

/-- Without quotes and semicolons, metadata cannot lead out of code. -/
theorem after_of_plain (reads : Reads text d front form between rest)
    (plain : ∀ c ∈ between, c ≠ '"' ∧ c ≠ ';') : Mode.code.after between = .code := by
  rcases Mode.after_plain (.inl rfl) plain with inCode | waits
  · exact inCode
  · rcases reads.after_cases with inCode | inComment | inString
    · exact inCode
    · cases waits.symm.trans inComment
    · cases waits.symm.trans inString

end Reads

/-- **Which names of the menu are in code.** A listed definition was read from a bracket in code, a form,
what leads to the name, and the name. However the text is divided in this way, the name is in code exactly
if what leads to it ends in code, and this is so wherever that holds no quote and no semicolon. Any other
name lies in one string or comment. -/
theorem isInCode_iff_endsInCode {text : Text} {d : Definition} (reported : d ∈ ofText text) :
    (∃ front form between rest, Reads text d front form between rest) ∧
      ∀ front form between rest, Reads text d front form between rest →
        (IsInCode text d ↔ EndsInCode between) ∧
          ((∀ c ∈ between, c ≠ '"' ∧ c ≠ ';') → IsInCode text d) ∧
          (¬ IsInCode text d →
            (∀ kind ∈ nameKinds text d, kind = .string) ∨
              ∀ kind ∈ nameKinds text d, kind = .comment) := by
  refine ⟨exists_reads reported, fun front form between rest reads => ?_⟩
  refine ⟨?_, fun plain => ?_, fun outside => ?_⟩
  · rw [reads.isInCode_iff, endsInCode_iff]
  · exact reads.isInCode_of_after (reads.after_of_plain plain)
  · exact reads.nameKinds_cases (mt reads.isInCode_of_after outside)

/-- A map may hold a string, as long as the string ends in the map. -/
theorem isInCode_iff_endsInCode_doc :
    ⟨['f'], .functions, 18, 1⟩ ∈ ofText "(defn ^\x7b:doc \"x\"\x7d f [] 1)".toList ∧
      IsInCode "(defn ^\x7b:doc \"x\"\x7d f [] 1)".toList ⟨['f'], .functions, 18, 1⟩ ∧
      ∃ front form between rest, Reads "(defn ^\x7b:doc \"x\"\x7d f [] 1)".toList
        ⟨['f'], .functions, 18, 1⟩ front form between rest ∧ EndsInCode between := by
  have reported : ⟨['f'], .functions, 18, 1⟩ ∈ ofText "(defn ^\x7b:doc \"x\"\x7d f [] 1)".toList := by
    simp only [ofText, Snapshot.ofText_eq_snapshot]
    decide +kernel
  have inCode : IsInCode "(defn ^\x7b:doc \"x\"\x7d f [] 1)".toList ⟨['f'], .functions, 18, 1⟩ := by
    rw [IsInCode, nameKinds, Snapshot.ofText_eq_snapshot]
    decide +kernel
  obtain ⟨⟨front, form, between, rest, reads⟩, everywhere⟩ := isInCode_iff_endsInCode reported
  have agree := (everywhere front form between rest reads).1
  exact ⟨reported, inCode, front, form, between, rest, reads, agree.mp inCode⟩

/-- A brace in a string ends a map of metadata too early: the name is looked for in the string. -/
theorem not_isInCode_brace :
    ⟨['b'], .functions, 18, 1⟩ ∈ ofText "(defn ^\x7b:doc \"a \x7d b\"\x7d f [] 1)".toList ∧
      ¬ IsInCode "(defn ^\x7b:doc \"a \x7d b\"\x7d f [] 1)".toList ⟨['b'], .functions, 18, 1⟩ := by
  constructor
  · simp only [ofText, Snapshot.ofText_eq_snapshot]
    decide +kernel
  · rw [IsInCode, nameKinds, Snapshot.ofText_eq_snapshot]
    decide +kernel

end Definition

end LispEditor
