import LispEditor.Storage.Disk

/-!
# Texts on a disk

What is written to a file can be read back. Three things have to fit for that: the bytes of a text
decode to it, the path leads to the same place once the file is there, and no newline is read where
none was written. The last holds for texts without carriage returns, and only such texts are ever
read.

* `Utf8.decode_encode`: the bytes of a text decode to it.
* `Disk.locate_put`: writing a file leads no path elsewhere.
* `Disk.readText_of_writeText`: a file holds the text that was written to it.
-/

namespace LispEditor

namespace Utf8

/-! ### One character -/

theorem toNat_continuation (n : Nat) : (continuation n).toNat = 0x80 + n % 64 := by
  rw [continuation, UInt8.toNat_ofNat']
  omega

theorem toNat_ofNat_of_lt {n : Nat} (small : n < 256) : (UInt8.ofNat n).toNat = n := by
  rw [UInt8.toNat_ofNat']
  omega

section

variable {low high n : Nat}

/-- A byte in the middle of a character. -/
theorem decodeFrom_continuation (position start first left bits : Nat) (above : low ≤ 0x80 + n % 64)
    (below : 0x80 + n % 64 ≤ high) (rest : List UInt8) :
    decodeFrom position (some ⟨start, first, left + 2, low, high, bits⟩) (continuation n :: rest) =
      decodeFrom (position + 1) (some ⟨start, first, left + 1, 0x80, 0xBF, bits * 64 + n % 64⟩)
        rest := by
  rw [decodeFrom, toNat_continuation, if_pos ⟨above, below⟩, Nat.add_sub_cancel_left]
  rfl

/-- The last byte of a character. -/
theorem decodeFrom_last (position start first bits : Nat) (above : low ≤ 0x80 + n % 64)
    (below : 0x80 + n % 64 ≤ high) (rest : List UInt8) :
    decodeFrom position (some ⟨start, first, 1, low, high, bits⟩) (continuation n :: rest) =
      (decodeFrom (position + 1) none rest).map (Char.ofNat (bits * 64 + n % 64) :: ·) := by
  rw [decodeFrom, toNat_continuation, if_pos ⟨above, below⟩, Nat.add_sub_cancel_left]
  rfl

end

/-- The first byte of a character of several bytes. -/
theorem decodeFrom_lead {position b : Nat} {p : Pending} (large : 0x80 ≤ b) (small : b < 256)
    (lead : lead? position b = some p) (rest : List UInt8) :
    decodeFrom position none (UInt8.ofNat b :: rest) = decodeFrom (position + 1) (some p) rest := by
  rw [decodeFrom, toNat_ofNat_of_lt small, if_neg (Nat.not_lt_of_le large), lead]

theorem lead?_two (position : Nat) {n : Nat} (least : 0x80 ≤ n) (most : n < 0x800) :
    lead? position (0xC0 + n / 0x40) =
      some ⟨position, 0xC0 + n / 0x40, 1, 0x80, 0xBF, n / 0x40⟩ := by
  rw [lead?, if_neg (by omega), if_pos (by omega), Nat.add_sub_cancel_left]

/-- The first of three bytes leaves room for the next one: no character is half a UTF-16 one. -/
theorem lead?_three (position : Nat) {n : Nat} (least : 0x800 ≤ n) (most : n < 0x10000)
    (whole : n < 0xD800 ∨ 0xDFFF < n) :
    ∃ low high, lead? position (0xE0 + n / 0x1000) =
        some ⟨position, 0xE0 + n / 0x1000, 2, low, high, n / 0x1000⟩ ∧
      low ≤ 0x80 + n / 0x40 % 64 ∧ 0x80 + n / 0x40 % 64 ≤ high := by
  rw [lead?, if_neg (by omega), if_neg (by omega)]
  by_cases first : n / 0x1000 = 0
  · exact ⟨0xA0, 0xBF, by rw [if_pos (by omega), first], by omega, by omega⟩
  · rw [if_neg (by omega)]
    by_cases halves : n / 0x1000 = 0xD
    · exact ⟨0x80, 0x9F, by rw [if_pos (by omega), halves], by omega, by omega⟩
    · exact ⟨0x80, 0xBF, by rw [if_neg (by omega), if_pos (by omega), Nat.add_sub_cancel_left],
        by omega, by omega⟩

/-- The first of four bytes leaves room for the next one: no character is beyond the last. -/
theorem lead?_four (position : Nat) {n : Nat} (least : 0x10000 ≤ n) (most : n < 0x110000) :
    ∃ low high, lead? position (0xF0 + n / 0x40000) =
        some ⟨position, 0xF0 + n / 0x40000, 3, low, high, n / 0x40000⟩ ∧
      low ≤ 0x80 + n / 0x1000 % 64 ∧ 0x80 + n / 0x1000 % 64 ≤ high := by
  rw [lead?, if_neg (by omega), if_neg (by omega), if_neg (by omega), if_neg (by omega),
    if_neg (by omega)]
  by_cases first : n / 0x40000 = 0
  · exact ⟨0x90, 0xBF, by rw [if_pos (by omega), first], by omega, by omega⟩
  · rw [if_neg (by omega)]
    by_cases last : n / 0x40000 = 4
    · exact ⟨0x80, 0x8F, by rw [if_neg (by omega), if_pos (by omega), last], by omega, by omega⟩
    · exact ⟨0x80, 0xBF, by rw [if_pos (by omega), Nat.add_sub_cancel_left], by omega, by omega⟩

/-- **The bytes of a character decode to it**, whatever follows them. -/
theorem decodeFrom_encodeChar (position : Nat) (c : Char) (rest : List UInt8) :
    decodeFrom position none (encodeChar c ++ rest) =
      (decodeFrom (position + (encodeChar c).length) none rest).map (c :: ·) := by
  obtain ⟨most, whole⟩ := Text.toNat_bounds c
  have restored {n : Nat} (same : n = c.toNat) : Char.ofNat n = c := same ▸ Char.ofNat_toNat c
  unfold encodeChar
  generalize c.toNat = n at *
  dsimp only
  split
  next ascii =>
    show decodeFrom position none (UInt8.ofNat n :: rest) = _
    rw [decodeFrom, toNat_ofNat_of_lt (by omega), if_pos ascii, restored rfl]
    rfl
  next large =>
  split
  next two =>
    show decodeFrom position none (_ :: continuation n :: rest) = _
    rw [decodeFrom_lead (by omega) (by omega) (lead?_two position (by omega) two),
      decodeFrom_last _ _ _ _ (by omega) (by omega), restored (by omega)]
    rfl
  next large =>
  split
  next three =>
    obtain ⟨low, high, lead, above, below⟩ := lead?_three position (by omega) three whole
    show decodeFrom position none (_ :: continuation (n / 0x40) :: continuation n :: rest) = _
    rw [decodeFrom_lead (by omega) (by omega) lead, decodeFrom_continuation _ _ _ 0 _ above below,
      decodeFrom_last _ _ _ _ (by omega) (by omega), restored (by omega)]
    rfl
  next four =>
    obtain ⟨low, high, lead, above, below⟩ := lead?_four position (by omega) most
    show decodeFrom position none (_ :: continuation (n / 0x1000) :: continuation (n / 0x40) ::
      continuation n :: rest) = _
    rw [decodeFrom_lead (by omega) (by omega) lead, decodeFrom_continuation _ _ _ 1 _ above below,
      decodeFrom_continuation _ _ _ 0 _ (by omega) (by omega),
      decodeFrom_last _ _ _ _ (by omega) (by omega), restored (by omega)]
    rfl

/-! ### Texts -/

/-- **The bytes of a text decode to it.** -/
theorem decode_encode (text : Text) : decode (encode text) = .ok text := by
  suffices general : ∀ position, decodeFrom position none (encode text) = .ok text from general 0
  induction text with
  | nil => exact fun position => rfl
  | cons c rest ih =>
      intro position
      have bytes : encode (c :: rest) = encodeChar c ++ encode rest := List.flatMap_cons
      rw [bytes, decodeFrom_encodeChar, ih]
      rfl

end Utf8

/-! ### Newlines -/

/-- What is read has no carriage returns. -/
theorem not_mem_unifyNewlines (text : Text) : '\r' ∉ unifyNewlines text := by
  fun_induction unifyNewlines text with
  | case1 => exact List.not_mem_nil
  | case2 rest ih => exact List.not_mem_cons_of_ne_of_not_mem (by decide) ih
  | case3 c rest _ ih =>
      refine List.not_mem_cons_of_ne_of_not_mem ?_ ih
      split
      next => decide
      next other => exact fun same => other (beq_iff_eq.mpr same.symm)

/-- A text without carriage returns is read as it was written. -/
theorem unifyNewlines_of_not_mem {text : Text} (free : '\r' ∉ text) :
    unifyNewlines text = text := by
  fun_induction unifyNewlines text with
  | case1 => rfl
  | case2 rest ih => exact absurd List.mem_cons_self free
  | case3 c rest _ ih =>
      obtain ⟨other, behind⟩ := List.ne_and_not_mem_of_not_mem_cons free
      rw [ih behind, if_neg fun same => other (beq_iff_eq.mp same).symm]

namespace Disk

/-! ### Files -/

theorem entry?_put_self (disk : Disk) {location : Location} (named : location.names ≠ [])
    (entry : Entry) : Disk.entry? (disk.put location entry) location = some entry := by
  have others : (disk.entries.filter fun old => old.1 != location).find?
      (fun found => found.1 == location) = none := by
    rw [List.find?_eq_none]
    intro old member
    have other := (List.mem_filter.mp member).2
    simpa using other
  rw [ entry?, if_neg (by simpa using named), put, List.find?_append, others]
  simp

theorem entry?_put_of_ne (disk : Disk) {location other : Location} (elsewhere : other ≠ location)
    (entry : Entry) : Disk.entry? (disk.put location entry) other = disk.entry? other := by
  have kept : (disk.entries.filter fun old => old.1 != location).find? (fun old => old.1 == other) =
      disk.entries.find? fun old => old.1 == other := by
    rw [List.find?_filter]
    congr 1
    funext old
    by_cases here : old.1 = other
    · simp [here, elsewhere]
    · simp [here]
  rw [ entry?, entry?, put, List.find?_append, kept]
  simp [Ne.symm elsewhere]

theorem readRefusal?_put (disk : Disk) (location other : Location) (entry : Entry) :
    (disk.put location entry).readRefusal? other = disk.readRefusal? other := rfl

/-- A step on a way that leads somewhere begins in a directory that can be searched. -/
theorem follow_cons {disk : Disk} {start target : Location} {part : Text} {parts : List Text}
    (leads : disk.follow start (part :: parts) = .ok target) :
    disk.entry? start = some .directory ∧ disk.readRefusal? start = none ∧
      ((part == ['.', '.']) = true ∧ disk.follow start.parent parts = .ok target ∨
        ¬ (part == ['.', '.']) = true ∧ ¬ (Utf8.encode part).length > maxNameBytes ∧
          disk.follow (start.child part) parts = .ok target) := by
  rw [follow] at leads
  split at leads
  next => exact nomatch leads
  next => exact nomatch leads
  next => exact nomatch leads
  next found free =>
    refine ⟨found, free, ?_⟩
    split at leads
    next up => exact .inl ⟨up, leads⟩
    next down =>
      split at leads
      next => exact nomatch leads
      next short => exact .inr ⟨down, short, leads⟩

/-- Following a path fails for what is found on the way, and never because there is a directory at its
end or for a null character. -/
theorem follow_eq_error {disk : Disk} {location : Location} {parts : List Text} {fault : Fault}
    (failed : disk.follow location parts = .error fault) :
    fault ≠ .isDirectory ∧ fault ≠ .nullInName := by
  induction parts generalizing location with
  | nil => exact nomatch failed
  | cons part parts ih =>
      rw [follow] at failed
      split at failed
      next => cases failed; simp
      next => cases failed; simp
      next => cases failed; simp
      next =>
        split at failed
        next => exact ih failed
        next =>
          split at failed
          next => cases failed; simp
          next => exact ih failed

/-- What was no directory is on the way to nothing, so writing there leads no path elsewhere. -/
theorem follow_put (disk : Disk) {location : Location}
    (closed : disk.entry? location ≠ some .directory) (entry : Entry) {start target : Location}
    {parts : List Text} (leads : disk.follow start parts = .ok target) :
    (disk.put location entry).follow start parts = .ok target := by
  induction parts generalizing start with
  | nil => exact leads
  | cons part parts ih =>
      obtain ⟨found, free, onwards⟩ := follow_cons leads
      have elsewhere : start ≠ location := fun same => closed (same ▸ found)
      rw [follow, entry?_put_of_ne disk elsewhere, found, readRefusal?_put, free]
      dsimp only
      rcases onwards with ⟨up, leads⟩ | ⟨down, short, leads⟩
      · rw [if_pos up]
        exact ih leads
      · rw [if_neg down, if_neg short]
        exact ih leads

/-- A path is found or not whatever is at its end. -/
theorem locate_ne_isDirectory {disk : Disk} {path : Path} {fault : Fault}
    (failed : disk.locate path = .error fault) : fault ≠ .isDirectory := by
  rw [locate] at failed
  split at failed
  next => cases failed; simp
  next =>
    split at failed
    next => cases failed; simp
    next => exact (follow_eq_error failed).1

/-- **Writing a file leads no path elsewhere.** -/
theorem locate_put (disk : Disk) {location : Location}
    (closed : disk.entry? location ≠ some .directory) (entry : Entry) {path : Path}
    {target : Location} (leads : disk.locate path = .ok target) :
    (disk.put location entry).locate path = .ok target := by
  rw [locate] at leads ⊢
  split at leads
  next => exact nomatch leads
  next named =>
    rw [if_neg named]
    split at leads
    next => exact nomatch leads
    next short =>
      rw [if_neg short]
      exact follow_put disk closed entry leads

/-- What can be changed can be read. -/
theorem readRefusal?_of_change {disk : Disk} {location : Location}
    (free : disk.changeRefusal? location = none) : disk.readRefusal? location = none := by
  unfold changeRefusal? at free
  unfold readRefusal?
  split at free
  next => exact nomatch free
  next => exact nomatch free
  next none => rw [none]

/-- Where a file was written, and what the disk is then. -/
theorem write_eq_ok {disk after : Disk} {path : Path} {bytes : List UInt8}
    (written : disk.write path bytes = .ok after) :
    ∃ location, disk.locate path = .ok location ∧ disk.entry? location ≠ some .directory ∧
      disk.readRefusal? location = none ∧ after = disk.put location (.file bytes) := by
  rw [write] at written
  cases leads : disk.locate path with
  | error fault => rw [leads] at written; exact nomatch written
  | ok location =>
      refine ⟨location, rfl, ?_⟩
      rw [leads] at written
      dsimp only at written
      split at written
      next => exact nomatch written
      next => exact nomatch written
      next free closed =>
        refine ⟨closed, ?_, (Except.ok.inj written).symm⟩
        exact readRefusal?_of_change (Option.or_eq_none_iff.mp free).1

/-- A written file holds the bytes that were written. -/
theorem read_of_write {disk after : Disk} {path : Path} {bytes : List UInt8}
    (written : disk.write path bytes = .ok after) : after.read path = .ok bytes := by
  obtain ⟨location, leads, closed, free, rfl⟩ := write_eq_ok written
  have named : location.names ≠ [] := by
    intro none
    apply closed
    rw [ entry?, none]
    rfl
  rw [read, locate_put disk closed _ leads]
  dsimp only
  rw [entry?_put_self disk named, readRefusal?_put, free]

/-- **A file holds the text that was written to it**, if that has no carriage returns. -/
theorem readText_of_writeText {disk after : Disk} {path : Path} {text : Text} (free : '\r' ∉ text)
    (written : disk.writeText path text = .ok after) : after.readText path = .ok text := by
  rw [readText, read_of_write written]
  dsimp only
  rw [Utf8.decode_encode]
  dsimp only
  rw [unifyNewlines_of_not_mem free]

/-- A text that was read has no carriage returns. -/
theorem not_mem_of_readText {disk : Disk} {path : Path} {text : Text}
    (found : disk.readText path = .ok text) : '\r' ∉ text := by
  rw [readText] at found
  split at found
  next => exact nomatch found
  next =>
    split at found
    next => exact nomatch found
    next decoded _ =>
      rw [← Except.ok.inj found]
      exact not_mem_unifyNewlines decoded

end Disk

end LispEditor
