import ClassAtlas.Proofs.ClassAttributes
import ClassAtlas.Proofs.CodeScan

/-!
# Accepted code attributes

A code attribute that is written out is read back. Here the converse is shown: content that is read
to its end was written from a code attribute, of which it has the sizes, the code, the guarded
ranges and the attributes. No bytes are passed over that do not belong to one of these, and each
number of the constant pool that is looked up stands for what the attribute says it does.
-/

namespace ClassAtlas.ClassFile

/-! ## Decoders that take what is written -/

/-- All that a decoder takes off the front is the written form of some item, and it gives the value
of that item. -/
def Takes {ι α : Type} (step : Decoder α) (valid : ι → Prop) (write : ι → List UInt8)
    (value : ι → α) : Prop :=
  ∀ bytes found rest, step bytes = .ok (found, rest) →
    ∃ item, valid item ∧ value item = found ∧ write item ++ rest = bytes

section Takes

variable {bytes rest : List UInt8}

/-- A number joined from two bytes is written as these bytes. -/
theorem bytes16_join16 (high low : UInt8) : bytes16 (Decoder.join16 high low) = [high, low] := by
  have highBound := high.toNat_lt
  have lowBound := low.toNat_lt
  simp only [bytes16, Decoder.join16, UInt16.toNat_ofNat', List.cons.injEq, and_true,
    ← UInt8.toNat_inj, UInt8.toNat_ofNat']
  omega

/-- A number joined from four bytes is written as these bytes. -/
theorem bytes32_join32 (first second third fourth : UInt8) :
    bytes32 (Decoder.join32 first second third fourth) = [first, second, third, fourth] := by
  have firstBound := first.toNat_lt
  have secondBound := second.toNat_lt
  have thirdBound := third.toNat_lt
  have fourthBound := fourth.toNat_lt
  simp only [bytes32, Decoder.join32, UInt32.toNat_ofNat', List.cons.injEq, and_true,
    ← UInt8.toNat_inj, UInt8.toNat_ofNat']
  omega

/-- A number of two bytes that was read is what the bytes start with. -/
theorem bytes16_of_u2 {number : UInt16} (taken : Decoder.u2 bytes = .ok (number, rest)) :
    bytes16 number ++ rest = bytes := by
  unfold Decoder.u2 at taken
  split at taken
  · rename_i high low rest
    obtain ⟨rfl, rfl⟩ := Prod.mk.inj (Except.ok.inj taken)
    rw [bytes16_join16]
    rfl
  · cases taken

/-- A number of four bytes that was read is what the bytes start with. -/
theorem bytes32_of_u4 {number : UInt32} (taken : Decoder.u4 bytes = .ok (number, rest)) :
    bytes32 number ++ rest = bytes := by
  unfold Decoder.u4 at taken
  split at taken
  · rename_i first second third fourth rest
    obtain ⟨rfl, rfl⟩ := Prod.mk.inj (Except.ok.inj taken)
    rw [bytes32_join32]
    rfl
  · cases taken

/-- Bytes that were taken are as many as were asked for, and the bytes start with them. -/
theorem append_of_take {count : Nat} {front : List UInt8}
    (taken : Decoder.take count bytes = .ok (front, rest)) :
    front.length = count ∧ front ++ rest = bytes := by
  rw [Decoder.take] at taken
  split at taken
  · cases taken
  · rename_i enough
    obtain ⟨rfl, rfl⟩ := Prod.mk.inj (Except.ok.inj taken)
    refine ⟨?_, List.take_append_drop count bytes⟩
    rw [List.length_take] at enough ⊢
    omega

/-- Four bytes that are passed over are two numbers. -/
theorem bytes16_of_skip (taken : Decoder.skip 4 bytes = .ok ((), rest)) :
    ∃ first second, bytes16 first ++ bytes16 second ++ rest = bytes := by
  obtain ⟨front, between, isFront, ended⟩ := run_bind_eq_ok_iff.mp taken
  obtain ⟨_, same⟩ := run_pure_eq_ok_iff.mp ended
  obtain ⟨width, written⟩ := append_of_take isFront
  rw [← written, same]
  rcases front with _ | ⟨first, _ | ⟨second, _ | ⟨third, _ | ⟨fourth, others⟩⟩⟩⟩
  -- Fewer than four bytes do not have this length.
  iterate 4 cases width
  obtain rfl : others = [] := List.eq_nil_of_length_eq_zero (by simpa using width)
  refine ⟨Decoder.join16 first second, Decoder.join16 third fourth, ?_⟩
  rw [bytes16_join16, bytes16_join16]
  rfl

variable {ι α : Type} {step : Decoder α} {valid : ι → Prop} {write : ι → List UInt8} {value : ι → α}

/-- What is read some times over was written as so many items, one after the other. -/
theorem Takes.times (takes : Takes step valid write value) {count : Nat} {values : List α}
    (taken : Decoder.times step count bytes = .ok (values, rest)) :
    ∃ items : List ι, items.length = count ∧ (∀ item ∈ items, valid item) ∧
      items.map value = values ∧ items.flatMap write ++ rest = bytes := by
  induction count generalizing bytes values with
  | zero =>
    obtain ⟨rfl, rfl⟩ := run_pure_eq_ok_iff.mp taken
    exact ⟨[], rfl, by simp, rfl, rfl⟩
  | succ count inductionHypothesis =>
    rw [Decoder.times] at taken
    obtain ⟨first, between, isFirst, taken⟩ := run_bind_eq_ok_iff.mp taken
    obtain ⟨others, behind, areOthers, taken⟩ := run_bind_eq_ok_iff.mp taken
    obtain ⟨rfl, rfl⟩ := run_pure_eq_ok_iff.mp taken
    obtain ⟨item, isValid, rfl, rfl⟩ := takes _ _ _ isFirst
    obtain ⟨items, rfl, areValid, rfl, rfl⟩ := inductionHypothesis areOthers
    refine ⟨item :: items, rfl, List.forall_mem_cons.mpr ⟨isValid, areValid⟩, rfl, ?_⟩
    rw [List.flatMap_cons, List.append_assoc]

/-- What is read as a counted list was written as a count that fits and so many items. -/
theorem Takes.counted (takes : Takes step valid write value) {values : List α}
    (taken : Decoder.counted step bytes = .ok (values, rest)) :
    ∃ items : List ι, items.length < 0x10000 ∧ (∀ item ∈ items, valid item) ∧
      items.map value = values ∧
      bytes16 (.ofNat items.length) ++ (items.flatMap write ++ rest) = bytes := by
  obtain ⟨count, between, isCount, taken⟩ := run_bind_eq_ok_iff.mp taken
  obtain ⟨items, length, areValid, areValues, written⟩ := takes.times taken
  refine ⟨items, length ▸ count.toNat_lt, areValid, areValues, ?_⟩
  rw [written, length, UInt16.ofNat_toNat, bytes16_of_u2 isCount]

end Takes

/-! ## From the parts to the whole -/

section Accepted

variable {pool : ConstantPool}

/-- An entry that is found stands at its number. -/
theorem ConstantPool.getElem?_of_get {index : UInt16} {entry : Constant}
    (found : pool.get index = .ok entry) : pool.entries[index.toNat]? = some entry := by
  rw [get] at found
  split at found
  · cases found
  · cases found
  · rename_i stands
    rw [stands, Except.ok.inj found]

/-- A text that is found stands at its number. -/
theorem ConstantPool.holdsText_of_text {index : UInt16} {content : String}
    (found : pool.text index = .ok content) : pool.HoldsText index content := by
  obtain ⟨entry, isEntry, found⟩ := bind_eq_ok_iff.mp found
  have stands := getElem?_of_get isEntry
  cases entry with
  | text content =>
    cases found
    exact stands
  | _ => cases found

/-- A class name that is found with dots is that of a class entry, written with slashes. -/
theorem ConstantPool.holdsClass_of_dottedClassName {index : UInt16} {dotted : String}
    (found : pool.dottedClassName index = .ok dotted) :
    ∃ name, pool.HoldsClass index name ∧ Name.dotted name = dotted := by
  obtain ⟨name, isName, isDotted⟩ := map_eq_ok_iff.mp found
  obtain ⟨entry, isEntry, isName⟩ := bind_eq_ok_iff.mp isName
  have stands := getElem?_of_get isEntry
  cases entry with
  | classRef text => exact ⟨name, ⟨text, stands, holdsText_of_text isName⟩, isDotted⟩
  | _ => cases isName

/-- Every handler that is read was written as a guarded range whose type resolves. -/
theorem GuardedRange.takes (pool : ConstantPool) :
    Takes (Handler.decode pool) (GuardedRange.Resolves pool) bytes handler? := by
  intro bytes found rest taken
  obtain ⟨_, behindRange, isRange, taken⟩ := run_bind_eq_ok_iff.mp taken
  obtain ⟨target, behindTarget, isTarget, taken⟩ := run_bind_eq_ok_iff.mp taken
  obtain ⟨index, behindIndex, isIndex, taken⟩ := run_bind_eq_ok_iff.mp taken
  obtain ⟨start, stop, written⟩ := bytes16_of_skip isRange
  rw [← bytes16_of_u2 isTarget, ← bytes16_of_u2 isIndex] at written
  by_cases catchesAll : index = 0
  · rw [if_pos catchesAll] at taken
    obtain ⟨rfl, rfl⟩ := run_pure_eq_ok_iff.mp taken
    refine ⟨{ start, stop, target, caught := none }, ?_, rfl, ?_⟩
    · rintro _ _ ⟨⟩
    · simp [GuardedRange.bytes, ← written, catchesAll]
  · rw [if_neg catchesAll] at taken
    obtain ⟨dotted, behind, lookedUp, taken⟩ := run_bind_eq_ok_iff.mp taken
    obtain ⟨isDotted, rfl⟩ := run_lift_eq_ok_iff.mp lookedUp
    obtain ⟨rfl, rfl⟩ := run_pure_eq_ok_iff.mp taken
    obtain ⟨name, holds, rfl⟩ := ConstantPool.holdsClass_of_dottedClassName isDotted
    refine ⟨{ start, stop, target, caught := some (index, name) }, ?_, rfl, ?_⟩
    · rintro _ _ ⟨⟩
      exact ⟨catchesAll, holds⟩
    · simp [GuardedRange.bytes, ← written]

/-- Every line entry that is read was written as two numbers. -/
theorem LineEntry.takes : Takes LineEntry.decode (fun _ => True)
    (fun row : UInt16 × UInt16 => bytes16 row.1 ++ bytes16 row.2)
    fun row => { start := row.1.toNat, line := row.2.toNat } := by
  intro bytes found rest taken
  obtain ⟨start, behindStart, isStart, taken⟩ := run_bind_eq_ok_iff.mp taken
  obtain ⟨line, behindLine, isLine, taken⟩ := run_bind_eq_ok_iff.mp taken
  obtain ⟨rfl, rfl⟩ := run_pure_eq_ok_iff.mp taken
  refine ⟨(start, line), trivial, rfl, ?_⟩
  rw [List.append_assoc, bytes16_of_u2 isLine, bytes16_of_u2 isStart]

/-- Every attribute that is read was written as the number of its name, its length and its
content. -/
theorem Attribute.written_of_decode {found : Attribute} {bytes rest : List UInt8}
    (taken : Attribute.decode pool bytes = .ok (found, rest)) :
    ∃ index, pool.HoldsText index found.name ∧ found.content.length < 0x100000000 ∧
      bytes16 index ++ (bytes32 (.ofNat found.content.length) ++ found.content) ++ rest = bytes := by
  obtain ⟨index, behindIndex, isIndex, taken⟩ := run_bind_eq_ok_iff.mp taken
  obtain ⟨name, behindName, lookedUp, taken⟩ := run_bind_eq_ok_iff.mp taken
  obtain ⟨isName, rfl⟩ := run_lift_eq_ok_iff.mp lookedUp
  obtain ⟨length, behindLength, isLength, taken⟩ := run_bind_eq_ok_iff.mp taken
  obtain ⟨content, behindContent, isContent, taken⟩ := run_bind_eq_ok_iff.mp taken
  obtain ⟨rfl, rfl⟩ := run_pure_eq_ok_iff.mp taken
  obtain ⟨isLong, written⟩ := append_of_take isContent
  refine ⟨index, ConstantPool.holdsText_of_text isName, isLong ▸ length.toNat_lt, ?_⟩
  rw [isLong, UInt32.ofNat_toNat, List.append_assoc, List.append_assoc, written,
    bytes32_of_u4 isLength, bytes16_of_u2 isIndex]

/-- An attribute that is accepted is a table of lines, or has another name. -/
theorem BodyAttribute.takes (pool : ConstantPool) :
    Takes (do let block ← Attribute.decode pool; LineEntry.ofAttribute block)
      (BodyAttribute.Resolves pool) bytes entries := by
  intro bytes found rest taken
  obtain ⟨⟨name, content⟩, behind, isBlock, taken⟩ := run_bind_eq_ok_iff.mp taken
  obtain ⟨areEntries, rfl⟩ := run_lift_eq_ok_iff.mp taken
  obtain ⟨index, holds, fits, written⟩ := Attribute.written_of_decode isBlock
  by_cases isTable : name = "LineNumberTable"
  · subst isTable
    rw [LineEntry.ofAttribute, if_pos rfl, whole_eq_ok_iff] at areEntries
    obtain ⟨rows, fits, _, areRows, isContent⟩ := LineEntry.takes.counted areEntries
    rw [List.append_nil] at isContent
    refine ⟨.lineNumbers index rows fits, holds, areRows, ?_⟩
    rw [← written, ← isContent]
    rfl
  · rw [LineEntry.ofAttribute, if_neg isTable] at areEntries
    exact ⟨.other index name isTable content fits, holds, Except.ok.inj areEntries, written⟩

/-- Content that is read to its end is that of some code attribute. -/
theorem CodeBlock.exists_of_decode {content : List UInt8} {body : CodeBody}
    (accepted : Decoder.whole (CodeBody.decode pool) content = .ok body) :
    ∃ block : CodeBlock, block.Resolves pool ∧ block.bytes = content := by
  rw [whole_eq_ok_iff] at accepted
  obtain ⟨_, behindSizes, areSizes, accepted⟩ := run_bind_eq_ok_iff.mp accepted
  obtain ⟨length, behindLength, isLength, accepted⟩ := run_bind_eq_ok_iff.mp accepted
  obtain ⟨code, behindCode, isCode, accepted⟩ := run_bind_eq_ok_iff.mp accepted
  obtain ⟨handlers, behindHandlers, areHandlers, accepted⟩ := run_bind_eq_ok_iff.mp accepted
  obtain ⟨entries, behindEntries, areEntries, accepted⟩ := run_bind_eq_ok_iff.mp accepted
  obtain ⟨_, rfl⟩ := run_pure_eq_ok_iff.mp accepted
  obtain ⟨stack, locals, sizes⟩ := bytes16_of_skip areSizes
  obtain ⟨isLong, written⟩ := append_of_take isCode
  obtain ⟨guarded, guardedFits, guardedResolve, _, areGuarded⟩ :=
    (GuardedRange.takes pool).counted areHandlers
  obtain ⟨attributes, attributesFit, attributesResolve, _, areAttributes⟩ :=
    (BodyAttribute.takes pool).counted areEntries
  rw [List.append_nil] at areAttributes
  refine ⟨{ stack, locals, code, guarded, attributes, codeFits := isLong ▸ length.toNat_lt
            guardedFits, attributesFit }, ⟨guardedResolve, attributesResolve⟩, ?_⟩
  simp only [CodeBlock.bytes]
  rw [areAttributes, List.append_assoc (bytes16 (.ofNat guarded.length)), areGuarded, written,
    isLong, UInt32.ofNat_toNat, bytes32_of_u4 isLength, sizes]

end Accepted

end ClassAtlas.ClassFile
