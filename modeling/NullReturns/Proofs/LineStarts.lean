import NullReturns.Text.Lines

/-! # Where lines start

The table of line starts comes from one pass over the bytes of a text. Its entries are the start of the text
and the offsets right behind its line feeds, so that the entry of a line has as many line feeds before it as
the number of the line says. The table ascends, and looking up an offset by halving finds the last line that
starts at or before it: the number of that line is the number of line feeds before the offset.
-/

namespace NullReturns.Text

/-! ## Bytes -/

theorem bytes_cons (c : Char) (rest : List Char) : bytes (c :: rest) = String.utf8EncodeChar c ++ bytes rest :=
  List.flatMap_cons

theorem bytes_append (first second : List Char) : bytes (first ++ second) = bytes first ++ bytes second :=
  List.flatMap_append

theorem length_bytes (text : List Char) : (bytes text).length = byteLength text := by
  induction text with
  | nil => rfl
  | cons c rest ih => rw [bytes_cons, List.length_append, String.length_utf8EncodeChar, ih, byteLength]

theorem bytes_lineFeed : String.utf8EncodeChar '\n' = [lineFeed] := by decide

/-- The byte of the line feed is part of no other character. -/
theorem lineFeed_not_mem {c : Char} (other : c ≠ '\n') : lineFeed ∉ String.utf8EncodeChar c := by
  have code : c.val.toNat ≠ 10 := fun same => other (Char.ext (UInt32.toNat_inj.mp same))
  have differs {n : Nat} (small : n < 256) (apart : n ≠ 10) : lineFeed ≠ UInt8.ofNat n := by
    intro same
    have value := congrArg UInt8.toNat same
    rw [UInt8.toNat_ofNat', Nat.mod_eq_of_lt small] at value
    exact apart value.symm
  -- The bytes of a longer form are all greater than those of short ones.
  have high {n : Nat} (large : 128 ≤ n) (small : n < 256) : lineFeed ≠ UInt8.ofNat n := differs small (by omega)
  simp only [String.utf8EncodeChar]
  split
  · exact fun member => differs (by omega) code (List.mem_singleton.mp member)
  · split
    · simp (disch := omega) only [List.mem_cons, List.not_mem_nil, high, or_self, not_false_eq_true]
    · split <;> simp (disch := omega) only [List.mem_cons, List.not_mem_nil, high, or_self, not_false_eq_true]

/-- A text has as many bytes of a line feed as it has line feeds. -/
theorem count_bytes (text : List Char) : (bytes text).count lineFeed = text.count '\n' := by
  induction text with
  | nil => rfl
  | cons c rest ih =>
    rw [bytes_cons, List.count_append, ih]
    by_cases feed : c = '\n'
    · rw [feed, bytes_lineFeed, List.count_singleton_self, List.count_cons_self, Nat.add_comm]
    · rw [List.count_eq_zero.mpr (lineFeed_not_mem feed), Nat.zero_add, List.count_cons_of_ne feed]

/-! ## The table -/

private theorem length_startsBehind (offset : Nat) (content : List UInt8) :
    (startsBehind offset content).length = content.count lineFeed := by
  induction content generalizing offset with
  | nil => rfl
  | cons byte rest ih =>
    by_cases feed : byte = lineFeed
    · rw [startsBehind, if_pos feed, List.length_cons, ih, feed, List.count_cons_self]
    · rw [startsBehind, if_neg feed, ih, List.count_cons_of_ne feed]

/-- Each entry is the offset behind a line feed, which has as many others before it as the table has entries
before this one. -/
theorem getElem?_startsBehind {offset : Nat} {content : List UInt8} {index start : Nat} :
    (startsBehind offset content)[index]? = some start ↔
      ∃ place, content[place]? = some lineFeed ∧ (content.take place).count lineFeed = index ∧
        start = offset + place + 1 := by
  induction content generalizing offset index with
  | nil => simp [startsBehind]
  | cons byte rest ih =>
    by_cases feed : byte = lineFeed
    · subst feed
      rw [startsBehind, if_pos rfl]
      cases index with
      | zero =>
        rw [List.getElem?_cons_zero, Option.some_inj]
        constructor
        · rintro rfl
          exact ⟨0, rfl, rfl, rfl⟩
        · rintro ⟨place, _, count, rfl⟩
          cases place with
          | zero => rfl
          | succ place => simp [List.take_succ_cons] at count
      | succ index =>
        rw [List.getElem?_cons_succ, ih]
        constructor
        · rintro ⟨place, here, count, rfl⟩
          refine ⟨place + 1, here, ?_, by omega⟩
          rw [List.take_succ_cons, List.count_cons_self, count]
        · rintro ⟨place, here, count, rfl⟩
          cases place with
          | zero => simp at count
          | succ place =>
            rw [List.take_succ_cons, List.count_cons_self] at count
            exact ⟨place, here, by omega, by omega⟩
    · rw [startsBehind, if_neg feed, ih]
      constructor
      · rintro ⟨place, here, count, rfl⟩
        refine ⟨place + 1, here, ?_, by omega⟩
        rw [List.take_succ_cons, List.count_cons_of_ne feed, count]
      · rintro ⟨place, here, count, rfl⟩
        cases place with
        | zero => exact absurd (Option.some.inj here) feed
        | succ place =>
          rw [List.take_succ_cons, List.count_cons_of_ne feed] at count
          exact ⟨place, here, count, by omega⟩

variable {text : List Char} {line start offset : Nat}

private theorem size_lineStarts (text : List Char) : (lineStarts text).size = (bytes text).count lineFeed + 1 := by
  rw [lineStarts, List.size_toArray, List.length_cons, length_startsBehind]

private theorem lineStart?_zero (text : List Char) : lineStart? text 0 = some 0 := rfl

theorem lineStart?_succ_iff : lineStart? text (line + 1) = some start ↔
    ∃ place, (bytes text)[place]? = some lineFeed ∧ ((bytes text).take place).count lineFeed = line ∧
      start = place + 1 := by
  rw [lineStart?, lineStarts, List.getElem?_toArray, List.getElem?_cons_succ, getElem?_startsBehind]
  simp only [Nat.zero_add]

theorem isSome_lineStart? (text : List Char) (line : Nat) :
    (lineStart? text line).isSome ↔ line ≤ (bytes text).count lineFeed := by
  have size := size_lineStarts text
  rw [lineStart?, isSome_getElem?]
  omega

/-- A line has as many line feeds before it as its number says. -/
theorem count_of_lineStart? (found : lineStart? text line = some start) :
    ((bytes text).take start).count lineFeed = line := by
  cases line with
  | zero =>
    rw [lineStart?_zero, Option.some_inj] at found
    rw [← found, List.take_zero, List.count_nil]
  | succ line =>
    obtain ⟨place, here, count, rfl⟩ := lineStart?_succ_iff.mp found
    rw [List.take_add_one, here, Option.toList_some, List.count_append, count, List.count_singleton_self]

private theorem count_take_mono (content : List UInt8) {first second : Nat} (order : first ≤ second) :
    (content.take first).count lineFeed ≤ (content.take second).count lineFeed :=
  (List.take_prefix_take_left order).sublist.count_le lineFeed

/-- The lines that start at or before an offset are those with a number up to its number of line feeds. -/
theorem lineStart?_le_iff (found : lineStart? text line = some start) (offset : Nat) :
    start ≤ offset ↔ line ≤ ((bytes text).take offset).count lineFeed := by
  constructor
  · intro order
    rw [← count_of_lineStart? found]
    exact count_take_mono _ order
  · intro reached
    cases line with
    | zero =>
      rw [lineStart?_zero, Option.some_inj] at found
      omega
    | succ line =>
      obtain ⟨place, _, count, rfl⟩ := lineStart?_succ_iff.mp found
      rcases Nat.lt_or_ge place offset with within | outside
      · exact within
      · have fewer := count_take_mono (bytes text) outside
        omega

/-! ## Looking up an offset -/

/-- Every entry is smaller than the ones behind it. -/
def Ascends (table : Array Nat) : Prop :=
  ∀ (first second entry next : Nat), first < second → table[first]? = some entry →
    table[second]? = some next → entry < next

theorem ascends_lineStarts (text : List Char) : Ascends (lineStarts text) := by
  intro first second entry next order found found'
  have reached : next ≤ entry ↔ second ≤ ((bytes text).take entry).count lineFeed := lineStart?_le_iff found' entry
  have count : ((bytes text).take entry).count lineFeed = first := count_of_lineStart? found
  omega

/-- What may be said of a number: the place where it stands, or the place between the smaller entries and the
greater ones. -/
inductive Place.IsOf (table : Array Nat) (number : Nat) : Place → Prop
  | found {index : Nat} (here : table[index]? = some number) : IsOf table number (.found index)
  | absent {next : Nat} (bound : next ≤ table.size)
      (smaller : ∀ (index entry : Nat), table[index]? = some entry → index < next → entry < number)
      (greater : ∀ (index entry : Nat), table[index]? = some entry → next ≤ index → number < entry) :
      IsOf table number (.absent next)

/-- What is left to be searched is always between the smaller entries and the greater ones. -/
theorem searchBetween_isOf {table : Array Nat} (ascends : Ascends table) (number low high : Nat)
    (inside : high ≤ table.size) (order : low ≤ high)
    (smaller : ∀ (index entry : Nat), table[index]? = some entry → index < low → entry < number)
    (greater : ∀ (index entry : Nat), table[index]? = some entry → high ≤ index → number < entry) :
    (searchBetween table number low high inside).IsOf table number := by
  fun_induction searchBetween table number low high inside with
  | case1 low high inside left middle same =>
    have here : table[middle]? = some table[middle] := Array.getElem?_eq_getElem _
    exact .found (here.trans (congrArg some same))
  | case2 low high inside left middle other less ih =>
    -- The middle entry is too small, and so are all before it.
    have here : table[middle]? = some table[middle] := Array.getElem?_eq_getElem _
    refine ih (by omega) ?_ greater
    intro index entry found before
    rcases Nat.lt_or_eq_of_le (Nat.le_of_lt_succ before) with earlier | rfl
    · exact Nat.lt_trans (ascends index middle entry _ earlier found here) less
    · rw [here, Option.some_inj] at found
      rwa [← found]
  | case3 low high inside left middle other notLess ih =>
    -- The middle entry is too great, and so are all behind it.
    have here : table[middle]? = some table[middle] := Array.getElem?_eq_getElem _
    have above : number < table[middle] := by omega
    refine ih (by omega) smaller ?_
    intro index entry found behind
    rcases Nat.lt_or_eq_of_le behind with later | rfl
    · exact Nat.lt_trans above (ascends middle index _ entry later here found)
    · rw [here, Option.some_inj] at found
      rwa [← found]
  | case4 low high inside done =>
    have met : high = low := by omega
    subst met
    exact .absent inside smaller greater

private theorem search_isOf {table : Array Nat} (ascends : Ascends table) (number : Nat) :
    (search table number).IsOf table number := by
  apply searchBetween_isOf ascends number 0 table.size _ (Nat.zero_le _)
  · intro index entry _ before
    omega
  · intro index entry found behind
    rw [Array.getElem?_eq_none behind] at found
    contradiction

/-- Some line starts before every offset: there is always one to go back to. -/
theorem search_ne_absent_zero (text : List Char) (offset : Nat) : search (lineStarts text) offset ≠ .absent 0 := by
  intro nowhere
  have said := search_isOf (ascends_lineStarts text) offset
  rw [nowhere] at said
  cases said with
  | absent _ _ greater => exact Nat.not_lt_zero offset (greater 0 0 rfl (Nat.le_refl 0))

/-- The line of an offset is the number of line feeds before it. -/
theorem lineOf?_eq (within : offset ≤ byteLength text) :
    lineOf? text offset = some (((bytes text).take offset).count lineFeed) := by
  have said := search_isOf (ascends_lineStarts text) offset
  have somewhere := search_ne_absent_zero text offset
  rw [lineOf?, if_pos within]
  cases looked : search (lineStarts text) offset with
  | found line =>
    rw [looked] at said
    cases said with
    | found here => rw [count_of_lineStart? here]
  | absent next =>
    rw [looked] at said somewhere
    cases said with
    | absent bound smaller greater =>
      obtain ⟨line, rfl⟩ : ∃ line, next = line + 1 := Nat.exists_eq_succ_of_ne_zero (by rintro rfl; contradiction)
      have here : lineStart? text line = some (lineStarts text)[line] := Array.getElem?_eq_getElem _
      have reached := (lineStart?_le_iff here offset).mp (Nat.le_of_lt (smaller line _ here (Nat.lt_succ_self line)))
      -- With one more line feed before the offset, the next line would start at or before it.
      rcases Nat.lt_or_eq_of_le reached with further | last
      · have total := (List.take_sublist offset (bytes text)).count_le lineFeed
        obtain ⟨start, there⟩ := Option.isSome_iff_exists.mp ((isSome_lineStart? text (line + 1)).mpr (by omega))
        have before := (lineStart?_le_iff there offset).mpr further
        have behind := greater (line + 1) start there (Nat.le_refl _)
        omega
      · exact congrArg some last

/-- Offsets at the start of a line, on its line feed, on an empty line, at the end and behind it. -/
example : [0, 2, 3, 6, 7, 9, 10].map (lineOf? "ab\ncd\n\nef".toList) =
    [some 0, some 0, some 1, some 2, some 3, some 3, none] := by decide

end NullReturns.Text
