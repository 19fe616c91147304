import ClassAtlas.ClassFile.Instruction

/-!
# How long switches are

The words of a switch start at the first multiple of four after its opcode. A table has a word for
the default, two words for the ends of its range and one word for each key of the range; a lookup
has a word for the default, one for the number of its pairs and two words for each pair.

A lookup is refused exactly if the number of its pairs is negative. A table is refused exactly if
its high end lies more than one below its low end: a range whose high end lies directly below its
low end has no keys, and is measured as such.

Ends and numbers are signed words of 32 bits. Computed in words of 64 bits, no length overflows.
-/

namespace ClassAtlas.ClassFile.Instruction

/-- Where the words of a switch start. -/
def wordsStart (offset : Nat) : Nat := offset + 1 + padding offset

/-- The signed word of four bytes of the code. -/
def wordAt (code : List UInt8) (position : Nat) : Int32 :=
  (Decoder.join32 (code.getD position 0) (code.getD (position + 1) 0)
    (code.getD (position + 2) 0) (code.getD (position + 3) 0)).toInt32

/-- The low end of a table. -/
def lowEnd (code : List UInt8) (offset : Nat) : Int32 := wordAt code (wordsStart offset + 4)

/-- The high end of a table. -/
def highEnd (code : List UInt8) (offset : Nat) : Int32 := wordAt code (wordsStart offset + 8)

/-- The number of pairs of a lookup. -/
def pairCount (code : List UInt8) (offset : Nat) : Int32 := wordAt code (wordsStart offset + 4)

/-- The words of a switch are aligned, and as close to its opcode as that allows. -/
theorem wordsStart_aligned (offset : Nat) :
    offset < wordsStart offset ∧ wordsStart offset % 4 = 0 ∧
      ∀ position, offset < position → position % 4 = 0 → wordsStart offset ≤ position := by
  simp only [wordsStart, padding]
  refine ⟨by omega, by omega, ?_⟩
  intro position after aligned
  omega

/-! ## Words of the code -/

variable {code following : List UInt8} {offset : Nat} {opcode : UInt8}

/-- The code from a place on starts with its byte. -/
theorem drop_eq_getD_cons {position : Nat} (inside : position < code.length) :
    code.drop position = code.getD position 0 :: code.drop (position + 1) := by
  rw [List.drop_eq_getElem_cons inside, List.getD, List.getElem?_eq_getElem inside]
  rfl

/-- Four bytes of the code are read as their signed word. -/
theorem signedWord?_drop_eq {position : Nat} (inside : position + 4 ≤ code.length) :
    signedWord? (code.drop position) = some (wordAt code position).toInt := by
  rw [drop_eq_getD_cons (by omega), drop_eq_getD_cons (by omega), drop_eq_getD_cons (by omega),
    drop_eq_getD_cons (by omega)]
  rfl

/-- The bytes after an opcode are those of the code from the next place on. -/
theorem drop_of_holds (holds : code.drop offset = opcode :: following) (count : Nat) :
    following.drop count = code.drop (offset + 1 + count) := by
  rw [← List.drop_drop, ← List.drop_drop, holds]
  rfl

/-- A word behind the padding, by its place in the code. -/
theorem signedWord?_of_holds (holds : code.drop offset = opcode :: following) (count : Nat)
    (inside : wordsStart offset + count + 4 ≤ code.length) :
    signedWord? (following.drop (padding offset + count)) =
      some (wordAt code (wordsStart offset + count)).toInt := by
  rw [drop_of_holds holds, ← Nat.add_assoc, ← wordsStart, signedWord?_drop_eq inside]

/-! ## Lengths -/

section Table

variable (holds : code.drop offset = 0xaa :: following)
  (inside : wordsStart offset + 12 ≤ code.length)
include holds inside

/-- A table with its words in the code is measured by its two ends. -/
theorem operandCount_table
    (ordered : (lowEnd code offset).toInt - 1 ≤ (highEnd code offset).toInt) :
    operandCount offset 0xaa following = .ok (padding offset + 12 +
      4 * ((highEnd code offset).toInt - (lowEnd code offset).toInt + 1).toNat) := by
  have isTable : shape 0xaa = .tableSwitch := rfl
  have low := signedWord?_of_holds holds 4 (by omega)
  have high := signedWord?_of_holds holds 8 (by omega)
  rw [lowEnd, highEnd] at ordered ⊢
  simp only [operandCount, isTable, low, high]
  exact if_neg (by omega)

/-- A table whose high end lies more than one below its low end is refused. -/
theorem operandCount_table_refused
    (disordered : (highEnd code offset).toInt < (lowEnd code offset).toInt - 1) :
    operandCount offset 0xaa following = .error .emptyTable := by
  have isTable : shape 0xaa = .tableSwitch := rfl
  have low := signedWord?_of_holds holds 4 (by omega)
  have high := signedWord?_of_holds holds 8 (by omega)
  rw [lowEnd, highEnd] at disordered
  simp only [operandCount, isTable, low, high]
  exact if_pos (by omega)

end Table

section Lookup

variable (holds : code.drop offset = 0xab :: following)
  (inside : wordsStart offset + 8 ≤ code.length)
include holds inside

/-- A lookup with its words in the code is measured by the number of its pairs. -/
theorem operandCount_lookup (nonnegative : 0 ≤ (pairCount code offset).toInt) :
    operandCount offset 0xab following =
      .ok (padding offset + 8 + 8 * (pairCount code offset).toInt.toNat) := by
  have isLookup : shape 0xab = .lookupSwitch := rfl
  have pairs := signedWord?_of_holds holds 4 (by omega)
  rw [pairCount] at nonnegative ⊢
  simp only [operandCount, isLookup, pairs]
  exact if_neg (by omega)

/-- A negative number of pairs is refused. -/
theorem operandCount_lookup_refused (negative : (pairCount code offset).toInt < 0) :
    operandCount offset 0xab following = .error .negativePairs := by
  have isLookup : shape 0xab = .lookupSwitch := rfl
  have pairs := signedWord?_of_holds holds 4 (by omega)
  rw [pairCount] at negative
  simp only [operandCount, isLookup, pairs]
  exact if_pos negative

end Lookup

/-! ## Words of 64 bits -/

/-- The number of keys of a table, in signed words of 64 bits. -/
def keys64 (low high : Int32) : Int64 := high.toInt64 - low.toInt64 + 1

/-- The length of a table, in words of 64 bits. -/
def tableLength64 (offset : Nat) (low high : Int32) : UInt64 :=
  .ofNat (1 + padding offset) + 12 + 4 * (keys64 low high).toUInt64

/-- The length of a lookup, in words of 64 bits. -/
def lookupLength64 (offset : Nat) (pairs : Int32) : UInt64 :=
  .ofNat (1 + padding offset) + 8 + 8 * pairs.toInt64.toUInt64

/-- The range of signed words. -/
theorem toInt_range (word : Int32) : -0x80000000 ≤ word.toInt ∧ word.toInt < 0x80000000 :=
  ⟨word.le_toInt, word.toInt_lt⟩

/-- Counting the keys of a table does not overflow. -/
theorem toInt_keys64 (low high : Int32) :
    (keys64 low high).toInt = high.toInt - low.toInt + 1 := by
  have lowRange := toInt_range low
  have highRange := toInt_range high
  have difference : (high.toInt64 - low.toInt64).toInt = high.toInt - low.toInt := by
    rw [Int64.toInt_sub, Int32.toInt_toInt64, Int32.toInt_toInt64]
    apply Int.bmod_eq_of_le <;> omega
  rw [keys64, Int64.toInt_add, difference]
  apply Int.bmod_eq_of_le
  · simp only [Int64.reduceToInt]
    omega
  · simp only [Int64.reduceToInt]
    omega

/-- A word that is not negative is the same number without a sign. -/
theorem toNat_toUInt64 (word : Int64) (positive : 0 ≤ word.toInt) :
    word.toUInt64.toNat = word.toInt.toNat := by
  have cases := BitVec.toInt_eq_toNat_cond word.toBitVec
  have bound := word.toUInt64.toNat_lt
  rw [Int64.toInt_toBitVec, Int64.toNat_toBitVec] at cases
  split at cases <;> omega

/-- The length of a table does not overflow. -/
theorem toNat_tableLength64 {low high : Int32} (nonnegative : low.toInt - 1 ≤ high.toInt) :
    (tableLength64 offset low high).toNat =
      1 + padding offset + 12 + 4 * (high.toInt - low.toInt + 1).toNat := by
  have keys := toInt_keys64 low high
  have number := toNat_toUInt64 (keys64 low high) (by omega)
  have lowRange := toInt_range low
  have highRange := toInt_range high
  have small : padding offset < 4 := Nat.mod_lt _ (by decide)
  simp only [tableLength64, UInt64.toNat_add, UInt64.toNat_mul, UInt64.toNat_ofNat', number, keys,
    UInt64.reduceToNat]
  omega

/-- The length of a lookup does not overflow. -/
theorem toNat_lookupLength64 {pairs : Int32} (nonnegative : 0 ≤ pairs.toInt) :
    (lookupLength64 offset pairs).toNat = 1 + padding offset + 8 + 8 * pairs.toInt.toNat := by
  have number := toNat_toUInt64 pairs.toInt64 (by rwa [Int32.toInt_toInt64])
  have range := toInt_range pairs
  have small : padding offset < 4 := Nat.mod_lt _ (by decide)
  simp only [lookupLength64, UInt64.toNat_add, UInt64.toNat_mul, UInt64.toNat_ofNat', number,
    Int32.toInt_toInt64, UInt64.reduceToNat]
  omega

/-! ## Measured and refused switches -/

/-- An instruction takes its opcode and its operands. -/
theorem length_eq_ok {count : Nat} (counted : operandCount offset opcode following = .ok count) :
    length offset opcode following = .ok (1 + count) := by
  rw [length, counted, Nat.add_comm]
  rfl

/-- An instruction that cannot be measured is refused where it stands. -/
theorem refused_of_operandCount {reason : CodeFault}
    (counted : operandCount offset opcode following = .error reason) :
    length offset opcode following = .error reason ∧
      (Listing.ofCode offset (opcode :: following)).fault = some (.badCode offset reason) := by
  constructor
  · rw [length, counted]
    rfl
  · rw [Listing.ofCode]
    simp only [counted]

/-- The words of a switch start at the first multiple of four after its opcode. A table with its
words in the code is refused exactly if its high end lies more than one below its low end, a lookup
exactly if the number of its pairs is negative; otherwise each has one word for every key and two
words for every pair after its first words. No word of 64 bits overflows on the way. -/
theorem length_of_switch (code : List UInt8) (offset : Nat) :
    (offset < wordsStart offset ∧ wordsStart offset % 4 = 0 ∧
      ∀ position, offset < position → position % 4 = 0 → wordsStart offset ≤ position) ∧
    (∀ following, code.drop offset = 0xaa :: following → wordsStart offset + 12 ≤ code.length →
      ((highEnd code offset).toInt < (lowEnd code offset).toInt - 1 →
        length offset 0xaa following = .error .emptyTable ∧
        (Listing.ofCode offset (code.drop offset)).fault = some (.badCode offset .emptyTable)) ∧
      ((lowEnd code offset).toInt - 1 ≤ (highEnd code offset).toInt →
        length offset 0xaa following = .ok (1 + padding offset + 12 +
          4 * ((highEnd code offset).toInt - (lowEnd code offset).toInt + 1).toNat))) ∧
    (∀ low high : Int32, (keys64 low high).toInt = high.toInt - low.toInt + 1 ∧
      (low.toInt - 1 ≤ high.toInt → (tableLength64 offset low high).toNat =
        1 + padding offset + 12 + 4 * (high.toInt - low.toInt + 1).toNat)) ∧
    (∀ following, code.drop offset = 0xab :: following → wordsStart offset + 8 ≤ code.length →
      ((pairCount code offset).toInt < 0 →
        length offset 0xab following = .error .negativePairs ∧
        (Listing.ofCode offset (code.drop offset)).fault = some (.badCode offset .negativePairs)) ∧
      (0 ≤ (pairCount code offset).toInt →
        length offset 0xab following =
          .ok (1 + padding offset + 8 + 8 * (pairCount code offset).toInt.toNat))) ∧
    ∀ pairs : Int32, 0 ≤ pairs.toInt →
      (lookupLength64 offset pairs).toNat = 1 + padding offset + 8 + 8 * pairs.toInt.toNat := by
  refine ⟨wordsStart_aligned offset, ?_, ?_, ?_, fun pairs => toNat_lookupLength64⟩
  · intro following holds inside
    rw [holds]
    refine ⟨fun disordered =>
      refused_of_operandCount (operandCount_table_refused holds inside disordered), ?_⟩
    intro ordered
    rw [length_eq_ok (operandCount_table holds inside ordered), ← Nat.add_assoc, ← Nat.add_assoc]
  · exact fun low high => ⟨toInt_keys64 low high, toNat_tableLength64⟩
  · intro following holds inside
    rw [holds]
    refine ⟨fun negative =>
      refused_of_operandCount (operandCount_lookup_refused holds inside negative), ?_⟩
    intro nonnegative
    rw [length_eq_ok (operandCount_lookup holds inside nonnegative), ← Nat.add_assoc,
      ← Nat.add_assoc]

/-- A table from 3 to some high end at offset 1, in code that goes on behind its first words. -/
def tableCode (high : UInt8) : List UInt8 :=
  [0x03, 0xaa, 0, 0, 0, 0, 0, 15, 0, 0, 0, 3, 0, 0, 0, high, 0xb1]

/-- A lookup of some number of pairs at offset 0. -/
def lookupCode (high : UInt8) : List UInt8 := [0xab, 0, 0, 0, 0, 0, 0, 0, high, 0, 0, 0]

/-- A table from 3 to 2 has no keys and takes 15 bytes; one from 3 to 1 is refused. A lookup of
`0x7f000000` pairs is long, and one of `-0x80000000` pairs is refused. -/
theorem length_of_switch_ends :
    length 1 0xaa ((tableCode 2).drop 2) = .ok 15 ∧
    length 1 0xaa ((tableCode 1).drop 2) = .error .emptyTable ∧
    length 0 0xab ((lookupCode 0x7f).drop 1) = .ok 0x3f800000c ∧
    length 0 0xab ((lookupCode 0x80).drop 1) = .error .negativePairs := by
  obtain ⟨_, noKeys, _⟩ := length_of_switch (tableCode 2) 1
  obtain ⟨_, disordered, _⟩ := length_of_switch (tableCode 1) 1
  obtain ⟨_, _, _, long, _⟩ := length_of_switch (lookupCode 0x7f) 0
  obtain ⟨_, _, _, negative, _⟩ := length_of_switch (lookupCode 0x80) 0
  exact ⟨(noKeys _ rfl (by decide)).2 (by decide), ((disordered _ rfl (by decide)).1 (by decide)).1,
    (long _ rfl (by decide)).2 (by decide), ((negative _ rfl (by decide)).1 (by decide)).1⟩

end ClassAtlas.ClassFile.Instruction
