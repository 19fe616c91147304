import ClassAtlas.Proofs.CodeUnits
import ClassAtlas.Proofs.Encoding

/-!
# Entries of a constant pool and their numbers

An entry is written as a tag and what the tag announces. Numbers start at one, and a 64-bit entry
takes two of them, so the number of an entry is decided by all entries before it. A pool that was
written is read back entry by entry: each first number leads to its entry, and every other number
leads nowhere.

A count that leaves no room for the second number of a 64-bit entry is refused, whatever comes
after that entry.
-/

namespace ClassAtlas.ClassFile

/-- An entry as it is written, with all that follows its tag. A text is short enough for its length
to be written. -/
inductive PoolEntry
  | text (content : String) (short : (ModifiedUtf8.encode content).length < 0x10000)
  | integer (value : Int32)
  | float (bits : UInt32)
  | long (value : Int64)
  | double (bits : UInt64)
  | classRef (name : UInt16)
  | string (content : UInt16)
  | fieldRef (owner pair : UInt16)
  | methodRef (owner pair : UInt16)
  | interfaceMethodRef (owner pair : UInt16)
  | nameAndType (name descriptor : UInt16)
  | methodHandle (kind : UInt8) (reference : UInt16)
  | methodType (descriptor : UInt16)
  | dynamic (bootstrap pair : UInt16)
  | invokeDynamic (bootstrap pair : UInt16)
  | module (name : UInt16)
  | package (name : UInt16)

namespace PoolEntry

/-- What a pool keeps of an entry: all of it, or its kind. -/
def constant : PoolEntry → Constant
  | text content _ => .text content
  | integer value => .integer value
  | float bits => .float bits
  | long value => .long value
  | double bits => .double bits
  | classRef name => .classRef name
  | string content => .string content
  | fieldRef owner pair => .fieldRef owner pair
  | methodRef owner pair => .methodRef owner pair
  | interfaceMethodRef owner pair => .interfaceMethodRef owner pair
  | nameAndType name descriptor => .nameAndType name descriptor
  | methodHandle .. => .methodHandle
  | methodType _ => .methodType
  | dynamic .. => .dynamic
  | invokeDynamic .. => .invokeDynamic
  | module _ => .module
  | package _ => .package

/-- The first byte of an entry. -/
def tag : PoolEntry → UInt8
  | text .. => 1
  | integer _ => 3
  | float _ => 4
  | long _ => 5
  | double _ => 6
  | classRef _ => 7
  | string _ => 8
  | fieldRef .. => 9
  | methodRef .. => 10
  | interfaceMethodRef .. => 11
  | nameAndType .. => 12
  | methodHandle .. => 15
  | methodType _ => 16
  | dynamic .. => 17
  | invokeDynamic .. => 18
  | module _ => 19
  | package _ => 20

/-- The bytes after the tag. -/
def content : PoolEntry → List UInt8
  | text content _ =>
    bytes16 (.ofNat (ModifiedUtf8.encode content).length) ++ ModifiedUtf8.encode content
  | integer value => bytes32 value.toUInt32
  | float bits => bytes32 bits
  | long value => bytes64 value.toUInt64
  | double bits => bytes64 bits
  | classRef number | string number | methodType number | module number | package number =>
    bytes16 number
  | fieldRef first second | methodRef first second | interfaceMethodRef first second
  | nameAndType first second | dynamic first second | invokeDynamic first second =>
    bytes16 first ++ bytes16 second
  | methodHandle kind reference => kind :: bytes16 reference

/-- The bytes of an entry: its tag and its content. -/
def bytes (entry : PoolEntry) : List UInt8 := entry.tag :: entry.content

/-- How many numbers an entry takes. -/
def width : PoolEntry → Nat
  | long _ | double _ => 2
  | _ => 1

/-- What stands at the numbers of an entry. -/
def slots (entry : PoolEntry) : List Constant :=
  entry.constant :: List.replicate (entry.width - 1) .unusable

/-- How many numbers some entries take together. -/
def slotCount : List PoolEntry → Nat
  | [] => 0
  | entry :: rest => entry.width + slotCount rest

/-- The number that is free after some entries. -/
def nextNumber (entries : List PoolEntry) : Nat := 1 + slotCount entries

end PoolEntry

/-- A pool leads from numbers to entries as they were written one after the other. -/
structure ConstantPool.Lists (pool : ConstantPool) (entries : List PoolEntry) : Prop where
  entry : ∀ before entry after, entries = before ++ entry :: after →
    ∀ index : UInt16, index.toNat = PoolEntry.nextNumber before →
      pool.get index = .ok entry.constant
  second : ∀ before entry after, entries = before ++ entry :: after → entry.width = 2 →
    ∀ index : UInt16, index.toNat = PoolEntry.nextNumber before + 1 →
      pool.get index = .error (.badIndex index)
  zero : pool.get 0 = .error (.badIndex 0)
  beyond : ∀ index : UInt16, PoolEntry.nextNumber entries ≤ index.toNat →
    pool.get index = .error (.badIndex index)

namespace PoolEntry

/-! ## Single entries -/

/-- After its tag, the content of an entry is read as its constant. -/
theorem reads_ofTag (entry : PoolEntry) :
    Reads (Constant.ofTag entry.tag) entry.content entry.constant := by
  have numbers (kept : UInt16 → UInt16 → Constant) (first second : UInt16) :
      Reads (do return kept (← Decoder.u2) (← Decoder.u2)) (bytes16 first ++ bytes16 second)
        (kept first second) :=
    .bind (.u2 first) (.andThen (.u2 second) (.pure _))
  have passed (bytes : List UInt8) (kept : Constant) :
      Reads (do Decoder.skip bytes.length; return kept) bytes kept :=
    .andThen (.skip bytes) (.pure _)
  cases entry with
  | text content short =>
    refine .bind (.u2 _) ?_
    rw [UInt16.toNat_ofNat_of_lt' short]
    refine .andThen (.take _) ?_
    rw [ModifiedUtf8.decode_encode]
    exact .pure _
  | integer value => exact .andThen (.u4 _) (.pure _)
  | float bits => exact .andThen (.u4 _) (.pure _)
  | long value => exact .andThen (.u8 _) (.pure _)
  | double bits => exact .andThen (.u8 _) (.pure _)
  | classRef name => exact .andThen (.u2 _) (.pure _)
  | string content => exact .andThen (.u2 _) (.pure _)
  | fieldRef owner pair => exact numbers .fieldRef owner pair
  | methodRef owner pair => exact numbers .methodRef owner pair
  | interfaceMethodRef owner pair => exact numbers .interfaceMethodRef owner pair
  | nameAndType name descriptor => exact numbers .nameAndType name descriptor
  | methodHandle kind reference => exact passed (kind :: bytes16 reference) .methodHandle
  | methodType descriptor => exact passed (bytes16 descriptor) .methodType
  | dynamic bootstrap pair =>
    exact passed (bytes16 bootstrap ++ bytes16 pair) .dynamic
  | invokeDynamic bootstrap pair =>
    exact passed (bytes16 bootstrap ++ bytes16 pair) .invokeDynamic
  | module name => exact passed (bytes16 name) .module
  | package name => exact passed (bytes16 name) .package

/-- An entry is read as its constant. -/
theorem reads (entry : PoolEntry) : Reads Constant.decode entry.bytes entry.constant :=
  .bind (.u1 entry.tag) entry.reads_ofTag

/-- The constant of an entry is usable. -/
theorem constant_ne_unusable (entry : PoolEntry) : entry.constant ≠ .unusable := by
  cases entry <;> simp [constant]

/-- Only wide constants take two numbers. -/
theorem width_cases (entry : PoolEntry) :
    entry.width = 1 ∧ entry.constant.isWide = false ∨
      entry.width = 2 ∧ entry.constant.isWide = true := by
  cases entry <;> simp [width, constant, Constant.isWide]

/-- An entry takes as many places as numbers. -/
@[simp]
theorem length_slots (entry : PoolEntry) : entry.slots.length = entry.width := by
  rcases entry.width_cases with ⟨width, _⟩ | ⟨width, _⟩ <;> simp [slots, width]

/-! ## Sequences of entries -/

/-- Entries take as many places as numbers, together. -/
theorem length_flatMap_slots (entries : List PoolEntry) :
    (entries.flatMap slots).length = slotCount entries := by
  induction entries with
  | nil => rfl
  | cons entry others inductionHypothesis =>
    rw [List.flatMap_cons, List.length_append, length_slots, inductionHypothesis, slotCount]

/-- One more entry in front. -/
theorem reads_slots_cons {entry : PoolEntry} {count : Nat} {more : List UInt8}
    {others : List Constant} (later : Reads (ConstantPool.slots count) more others) :
    Reads (ConstantPool.slots (entry.width + count)) (entry.bytes ++ more)
      (entry.slots ++ others) := by
  rcases entry.width_cases with ⟨width, narrow⟩ | ⟨width, wide⟩
  · rw [slots, width, Nat.add_comm]
    cases count with
    | zero =>
      have nothing : (Except.ok ([], more ++ []) : Except Fault _) = .ok (others, []) := later []
      simp only [List.append_nil, Except.ok.injEq, Prod.mk.injEq] at nothing
      obtain ⟨rfl, rfl⟩ := nothing
      refine .bind entry.reads ?_
      rw [narrow]
      exact .pure _
    | succ count =>
      refine .bind entry.reads ?_
      rw [narrow]
      exact .andThen later (.pure _)
  · rw [slots, width, Nat.add_comm]
    refine .bind entry.reads ?_
    rw [wide]
    exact .andThen later (.pure _)

/-- Entries that were written are read back with their numbers. -/
theorem reads_slots (entries : List PoolEntry) :
    Reads (ConstantPool.slots (slotCount entries)) (entries.flatMap bytes)
      (entries.flatMap slots) := by
  induction entries with
  | nil => exact .pure _
  | cons entry others inductionHypothesis =>
    rw [slotCount, List.flatMap_cons, List.flatMap_cons]
    exact reads_slots_cons inductionHypothesis

/-- What is refused at the front is refused behind any entries, if the count reaches it. By
induction on the entries before it, which are read without a fault. -/
theorem refuses_slots_behind (before : List PoolEntry) {more : Nat} {last : List UInt8}
    {fault : Fault} (refuses : Refuses (ConstantPool.slots (more + 1)) last fault) :
    Refuses (ConstantPool.slots (slotCount before + (more + 1))) (before.flatMap bytes ++ last)
      fault := by
  induction before with
  | nil =>
    rw [slotCount, Nat.zero_add]
    exact refuses
  | cons first others inductionHypothesis =>
    rw [slotCount, List.flatMap_cons, List.append_assoc, Nat.add_assoc, Nat.add_comm first.width]
    rcases first.width_cases with ⟨width, narrow⟩ | ⟨width, isWide⟩
    · rw [width]
      refine .bind first.reads ?_
      rw [narrow]
      exact .first inductionHypothesis
    · rw [width]
      refine .bind first.reads ?_
      rw [isWide]
      exact .first inductionHypothesis

/-- Entries are refused when the count ends on the first number of a wide one. -/
theorem refuses_slots (before : List PoolEntry) {entry : PoolEntry} (wide : entry.width = 2) :
    Refuses (ConstantPool.slots (slotCount before + 1))
      ((before ++ [entry]).flatMap bytes) (.malformed .constantPool) := by
  have isWide : entry.constant.isWide = true := by
    rcases entry.width_cases with ⟨narrow, _⟩ | ⟨_, isWide⟩
    · omega
    · exact isWide
  rw [List.flatMap_append]
  apply refuses_slots_behind before
  refine .bind entry.reads ?_
  rw [isWide]
  exact .throw _

/-! ## Numbers -/

/-- The pool of some entries: nothing at number zero, then each entry at its numbers. -/
def pool (entries : List PoolEntry) : ConstantPool :=
  { entries := (.unusable :: entries.flatMap slots).toArray }

variable {before after : List PoolEntry} {entry : PoolEntry}

/-- The numbers of an entry follow those of all entries before it. -/
theorem getElem?_pool {offset number : Nat} (within : offset < entry.width)
    (isNumber : number = nextNumber before + offset) :
    (pool (before ++ entry :: after)).entries[number]? = entry.slots[offset]? := by
  have shifted : number = (before.flatMap slots).length + offset + 1 := by
    rw [isNumber, nextNumber, length_flatMap_slots]
    omega
  rw [pool, List.getElem?_toArray, shifted, List.getElem?_cons_succ, List.flatMap_append,
    List.getElem?_append_right (Nat.le_add_right _ _), Nat.add_sub_cancel_left, List.flatMap_cons,
    List.getElem?_append_left (by rwa [length_slots])]

/-- The next number is the one after all places, of which the first is not used. -/
theorem size_pool (entries : List PoolEntry) :
    (pool entries).entries.size = nextNumber entries := by
  rw [pool, List.size_toArray, List.length_cons, length_flatMap_slots, nextNumber, Nat.add_comm]

/-- The pool that is built for entries lists them. -/
theorem lists_pool (entries : List PoolEntry) : (pool entries).Lists entries where
  entry := by
    rintro before entry after rfl index number
    have within : 0 < entry.width := by
      rcases entry.width_cases with ⟨width, _⟩ | ⟨width, _⟩ <;> omega
    exact ConstantPool.get_eq (getElem?_pool within number) entry.constant_ne_unusable
  second := by
    rintro before entry after rfl wide index number
    have stands : (pool (before ++ entry :: after)).entries[index.toNat]? = entry.slots[1]? :=
      getElem?_pool (by omega) number
    refine ConstantPool.get_eq_badIndex fun found isFound => ?_
    simpa [slots, wide] using isFound.symm.trans stands
  zero := rfl
  beyond := by
    intro index number
    have outside : (pool entries).entries[index.toNat]? = none :=
      Array.getElem?_eq_none (by rwa [size_pool])
    refine ConstantPool.get_eq_badIndex fun found isFound => ?_
    simp [outside] at isFound

end PoolEntry

namespace ConstantPool

open PoolEntry

/-- A pool that was written is read back with nothing left of it, and each number leads to what
stands there. A count that ends on the first number of a 64-bit entry is refused. -/
theorem decode_lists_written :
    (∀ entries : List PoolEntry, nextNumber entries < 0x10000 →
      ∃ pool, Reads decode
        (bytes16 (.ofNat (nextNumber entries)) ++ entries.flatMap PoolEntry.bytes) pool ∧
        pool.Lists entries) ∧
    ∀ (before : List PoolEntry) (entry : PoolEntry), entry.width = 2 →
      nextNumber before + 1 < 0x10000 →
      Refuses decode
        (bytes16 (.ofNat (nextNumber before + 1)) ++ (before ++ [entry]).flatMap PoolEntry.bytes)
        (.malformed .constantPool) := by
  constructor
  · intro entries fits
    refine ⟨PoolEntry.pool entries, ?_, lists_pool entries⟩
    refine .bind (.u2 _) ?_
    rw [UInt16.toNat_ofNat_of_lt' fits, nextNumber, Nat.add_sub_cancel_left]
    exact .andThen (reads_slots entries) (.pure _)
  · intro before entry wide fits
    refine .bind (.u2 _) ?_
    rw [UInt16.toNat_ofNat_of_lt' fits, nextNumber, Nat.add_assoc, Nat.add_sub_cancel_left]
    exact .first (refuses_slots before wide)

/-- A 64-bit number, a text and a constant of which only the kind is kept. -/
def mixedEntries : List PoolEntry := [.long 42, .text "x" (by decide), .dynamic 0 3]

/-- They have the numbers one, three and four. With a count of two, the first of them is refused. -/
theorem decode_lists_written_samples :
    (∃ pool, Reads decode [0, 5, 5, 0, 0, 0, 0, 0, 0, 0, 42, 1, 0, 1, 120, 17, 0, 0, 0, 3] pool ∧
      pool.get 1 = .ok (.long 42) ∧ pool.get 2 = .error (.badIndex 2) ∧
      pool.get 3 = .ok (.text "x") ∧ pool.get 4 = .ok .dynamic ∧
      pool.get 5 = .error (.badIndex 5)) ∧
    Refuses decode [0, 2, 5, 0, 0, 0, 0, 0, 0, 0, 42] (.malformed .constantPool) := by
  have written : bytes16 (.ofNat (nextNumber mixedEntries)) ++
      mixedEntries.flatMap PoolEntry.bytes =
        [0, 5, 5, 0, 0, 0, 0, 0, 0, 0, 42, 1, 0, 1, 120, 17, 0, 0, 0, 3] := by decide
  have overrun : bytes16 (.ofNat (nextNumber [] + 1)) ++
      ([] ++ [PoolEntry.long 42]).flatMap PoolEntry.bytes =
        [0, 2, 5, 0, 0, 0, 0, 0, 0, 0, 42] := by decide
  obtain ⟨pool, reads, lists⟩ := decode_lists_written.1 mixedEntries (by decide)
  rw [written] at reads
  rw [← overrun]
  refine ⟨⟨pool, reads, ?_⟩, decode_lists_written.2 [] (.long 42) rfl (by decide)⟩
  exact ⟨lists.entry [] _ _ rfl 1 rfl, lists.second [] _ _ rfl rfl 2 rfl,
    lists.entry [_] _ _ rfl 3 rfl, lists.entry [_, _] _ [] rfl 4 rfl, lists.beyond 5 (by decide)⟩

end ConstantPool

end ClassAtlas.ClassFile
