import ClassAtlas.ClassFile.ConstantPool

/-!
# Writing what decoders read

Numbers are written big-endian. A decoder reads some bytes back as a value if it takes exactly
these bytes off the front, whatever follows, and gives that value. This passes from the parts
of a sequence to the sequence, and from the entries of a table to the table with its count. In the
same way, a decoder refuses some bytes if it stops at them with a fault, whatever follows.

What a number of the constant pool stands for is stated by the entries it leads to, one after
the other. The lookups of the pool then answer just that.
-/

namespace ClassAtlas.ClassFile

/-- The two bytes of a number, the more significant first. -/
def bytes16 (number : UInt16) : List UInt8 :=
  [.ofNat (number.toNat / 0x100), .ofNat number.toNat]

/-- The four bytes of a number, the more significant first. -/
def bytes32 (number : UInt32) : List UInt8 :=
  [.ofNat (number.toNat / 0x1000000), .ofNat (number.toNat / 0x10000),
    .ofNat (number.toNat / 0x100), .ofNat number.toNat]

/-- The eight bytes of a number, the more significant half first. -/
def bytes64 (number : UInt64) : List UInt8 :=
  bytes32 (.ofNat (number.toNat / 0x100000000)) ++ bytes32 (.ofNat number.toNat)

/-- A number of sixteen bits takes two bytes. -/
@[simp] theorem length_bytes16 (number : UInt16) : (bytes16 number).length = 2 := rfl

/-- A number of thirty-two bits takes four bytes. -/
@[simp] theorem length_bytes32 (number : UInt32) : (bytes32 number).length = 4 := rfl

/-- The length of entries that are written in the same number of bytes each. -/
theorem length_flatMap_of_width {ι : Type} {write : ι → List UInt8} {width : Nat}
    (each : ∀ item, (write item).length = width) (items : List ι) :
    (items.flatMap write).length = width * items.length := by
  induction items with
  | nil => rfl
  | cons item rest inductionHypothesis =>
    rw [List.flatMap_cons, List.length_append, inductionHypothesis, each, List.length_cons,
      Nat.mul_succ, Nat.add_comm]

/-- A number is joined again from its two bytes. -/
theorem join16_bytes (number : UInt16) :
    Decoder.join16 (.ofNat (number.toNat / 0x100)) (.ofNat number.toNat) = number := by
  have bound := number.toNat_lt
  apply UInt16.toNat_inj.mp
  simp only [Decoder.join16, UInt16.toNat_ofNat', UInt8.toNat_ofNat']
  omega

/-- A number is joined again from its four bytes. -/
theorem join32_bytes (number : UInt32) :
    Decoder.join32 (.ofNat (number.toNat / 0x1000000)) (.ofNat (number.toNat / 0x10000))
      (.ofNat (number.toNat / 0x100)) (.ofNat number.toNat) = number := by
  have bound := number.toNat_lt
  apply UInt32.toNat_inj.mp
  simp only [Decoder.join32, UInt32.toNat_ofNat', UInt8.toNat_ofNat']
  omega

/-- A count that is small enough is the same as a signed number. -/
theorem toInt_ofNat {count : Nat} (small : count < 0x80000000) :
    (UInt32.ofNat count).toInt32.toInt = count := by
  have number : (UInt32.ofNat count).toBitVec.toNat = count :=
    UInt32.toNat_ofNat_of_lt' (by simp only [UInt32.size]; omega)
  have positive : 2 * (UInt32.ofNat count).toBitVec.toNat < 2 ^ 32 := by omega
  exact (BitVec.toInt_eq_toNat_of_lt positive).trans (congrArg Int.ofNat number)

/-- A decoder reads some bytes as a value, whatever follows them. -/
def Reads {α : Type} (step : Decoder α) (bytes : List UInt8) (value : α) : Prop :=
  ∀ rest, step (bytes ++ rest) = .ok (value, rest)

namespace Reads

variable {α β : Type}

/-- A byte is read as itself. -/
theorem u1 (byte : UInt8) : Reads Decoder.u1 [byte] byte := fun _ => rfl

/-- A number is read from its two bytes. -/
theorem u2 (number : UInt16) : Reads Decoder.u2 (bytes16 number) number := by
  intro rest
  simp only [Decoder.u2, bytes16, List.cons_append, List.nil_append, join16_bytes]

/-- A number is read from its four bytes. -/
theorem u4 (number : UInt32) : Reads Decoder.u4 (bytes32 number) number := by
  intro rest
  simp only [Decoder.u4, bytes32, List.cons_append, List.nil_append, join32_bytes]

/-- All bytes asked for are taken. -/
theorem take (bytes : List UInt8) : Reads (Decoder.take bytes.length) bytes bytes := by
  intro rest
  simp [Decoder.take]

/-- A value that is given takes no bytes. -/
theorem pure (value : α) : Reads (Pure.pure value : Decoder α) [] value := fun _ => rfl

/-- A successful outcome that is given takes no bytes. -/
theorem lift {outcome : Except Fault α} {value : α} (given : outcome = .ok value) :
    Reads (liftM outcome : Decoder α) [] value := by
  subst given
  exact fun _ => rfl

/-- One decoder after the other. -/
theorem bind {step : Decoder α} {next : α → Decoder β} {front back : List UInt8} {middle : α}
    {value : β} (first : Reads step front middle) (second : Reads (next middle) back value) :
    Reads (step >>= next) (front ++ back) value := by
  intro rest
  rw [List.append_assoc]
  show (step (front ++ (back ++ rest)) >>= fun taken => next taken.1 taken.2) = _
  rw [first]
  exact second rest

/-- A decoder after a step that takes no bytes. -/
theorem after {step : Decoder α} {next : α → Decoder β} {bytes : List UInt8} {middle : α}
    {value : β} (first : Reads step [] middle) (second : Reads (next middle) bytes value) :
    Reads (step >>= next) bytes value := bind first second

/-- A step after which no bytes are taken. -/
theorem andThen {step : Decoder α} {next : α → Decoder β} {bytes : List UInt8} {middle : α}
    {value : β} (first : Reads step bytes middle) (second : Reads (next middle) [] value) :
    Reads (step >>= next) bytes value := by
  simpa using bind first second

/-- A number is read from its eight bytes. -/
theorem u8 (number : UInt64) : Reads Decoder.u8 (bytes64 number) number := by
  have bound := number.toNat_lt
  have joined : UInt64.ofNat (0x100000000 * (UInt32.ofNat (number.toNat / 0x100000000)).toNat +
      (UInt32.ofNat number.toNat).toNat) = number := by
    apply UInt64.toNat_inj.mp
    simp only [UInt64.toNat_ofNat', UInt32.toNat_ofNat']
    omega
  refine bind (u4 _) (andThen (u4 _) ?_)
  show Reads (Pure.pure (UInt64.ofNat (0x100000000 * _ + _))) [] number
  rw [joined]
  exact pure number

/-- All bytes asked for are skipped. -/
theorem skip (bytes : List UInt8) : Reads (Decoder.skip bytes.length) bytes () :=
  andThen (take bytes) (pure _)

/-- Entries written one after the other are read one after the other. -/
theorem times {ι : Type} {step : Decoder α} {write : ι → List UInt8} {value : ι → α}
    {items : List ι} (each : ∀ item ∈ items, Reads step (write item) (value item)) :
    Reads (Decoder.times step items.length) (items.flatMap write) (items.map value) := by
  induction items with
  | nil => exact pure _
  | cons item others inductionHypothesis =>
    rw [List.forall_mem_cons] at each
    rw [List.flatMap_cons, List.map_cons]
    exact bind each.1 (andThen (inductionHypothesis each.2) (pure _))

/-- Entries that are read one after the other are read after their count. -/
theorem counted_of_times {step : Decoder α} {count : Nat} {bytes : List UInt8} {values : List α}
    (fits : count < 0x10000) (reads : Reads (Decoder.times step count) bytes values) :
    Reads (Decoder.counted step) (bytes16 (.ofNat count) ++ bytes) values := by
  refine bind (u2 _) ?_
  rwa [UInt16.toNat_ofNat_of_lt' fits]

/-- A table is written as the count of its entries and then the entries. -/
theorem counted {ι : Type} {step : Decoder α} {write : ι → List UInt8} {value : ι → α}
    {items : List ι} (fits : items.length < 0x10000)
    (each : ∀ item ∈ items, Reads step (write item) (value item)) :
    Reads (Decoder.counted step) (bytes16 (.ofNat items.length) ++ items.flatMap write)
      (items.map value) :=
  counted_of_times fits (times each)

/-- Bytes that are read to their end are accepted as a whole. -/
theorem whole {step : Decoder α} {bytes : List UInt8} {value : α}
    (reads : Reads step bytes value) : Decoder.whole step bytes = .ok value := by
  have taken := reads []
  rw [List.append_nil] at taken
  rw [Decoder.whole, StateT.run, taken]
  rfl

end Reads

/-- A decoder stops at some bytes with a fault, whatever follows them. -/
def Refuses {α : Type} (step : Decoder α) (bytes : List UInt8) (fault : Fault) : Prop :=
  ∀ rest, step (bytes ++ rest) = .error fault

namespace Refuses

variable {α β : Type}

/-- A fault refuses without taking bytes. -/
theorem throw (fault : Fault) : Refuses (MonadExcept.throw fault : Decoder α) [] fault :=
  fun _ => rfl

/-- What is read before a fault does not prevent it. -/
theorem bind {step : Decoder α} {next : α → Decoder β} {front back : List UInt8} {middle : α}
    {fault : Fault} (first : Reads step front middle) (second : Refuses (next middle) back fault) :
    Refuses (step >>= next) (front ++ back) fault := by
  intro rest
  rw [List.append_assoc]
  show (step (front ++ (back ++ rest)) >>= fun taken => next taken.1 taken.2) = _
  rw [first]
  exact second rest

/-- A fault that is found without taking more bytes. -/
theorem andThen {step : Decoder α} {next : α → Decoder β} {bytes : List UInt8} {middle : α}
    {fault : Fault} (first : Reads step bytes middle) (second : Refuses (next middle) [] fault) :
    Refuses (step >>= next) bytes fault := by
  simpa using bind first second

/-- A fault stops all that would come later. -/
theorem first {step : Decoder α} {next : α → Decoder β} {bytes : List UInt8} {fault : Fault}
    (refuses : Refuses step bytes fault) : Refuses (step >>= next) bytes fault := by
  intro rest
  show (step (bytes ++ rest) >>= fun taken => next taken.1 taken.2) = _
  rw [refuses]
  rfl

/-- A fault is found in all bytes that begin with it. -/
theorem whole {step : Decoder α} {bytes : List UInt8} {fault : Fault}
    (refuses : Refuses step bytes fault) (rest : List UInt8) :
    Decoder.whole step (bytes ++ rest) = .error fault := by
  rw [Decoder.whole, StateT.run, refuses]
  rfl

end Refuses

namespace ConstantPool

/-- A number stands for a text. -/
def HoldsText (pool : ConstantPool) (index : UInt16) (content : String) : Prop :=
  pool.entries[index.toNat]? = some (.text content)

/-- A number stands for a class, spelled with slashes. -/
def HoldsClass (pool : ConstantPool) (index : UInt16) (name : String) : Prop :=
  ∃ text, pool.entries[index.toNat]? = some (.classRef text) ∧ pool.HoldsText text name

/-- An owner and a pair of name and descriptor stand for a member. -/
def HoldsMember (pool : ConstantPool) (owner pair : UInt16) (member : MemberRef) : Prop :=
  pool.HoldsClass owner member.owner ∧
    ∃ name descriptor, pool.entries[pair.toNat]? = some (.nameAndType name descriptor) ∧
      pool.HoldsText name member.name ∧ pool.HoldsText descriptor member.descriptor

/-- A number stands for a field. -/
def HoldsField (pool : ConstantPool) (index : UInt16) (member : MemberRef) : Prop :=
  ∃ owner pair, pool.entries[index.toNat]? = some (.fieldRef owner pair) ∧
    pool.HoldsMember owner pair member

/-- A number stands for a method, of a class or of an interface. -/
def HoldsMethod (pool : ConstantPool) (index : UInt16) (member : MemberRef) : Prop :=
  ∃ owner pair, (pool.entries[index.toNat]? = some (.methodRef owner pair) ∨
    pool.entries[index.toNat]? = some (.interfaceMethodRef owner pair)) ∧
    pool.HoldsMember owner pair member

variable {pool : ConstantPool} {index : UInt16}

/-- A usable entry is found by its number. -/
theorem get_eq {entry : Constant} (stands : pool.entries[index.toNat]? = some entry)
    (usable : entry ≠ .unusable) : pool.get index = .ok entry := by
  rw [get, stands]
  cases entry with
  | unusable => exact absurd rfl usable
  | _ => rfl

/-- A number at which nothing usable stands is refused. -/
theorem get_eq_badIndex (unused : ∀ entry, pool.entries[index.toNat]? = some entry →
    entry = .unusable) : pool.get index = .error (.badIndex index) := by
  rw [get]
  cases stands : pool.entries[index.toNat]? with
  | none => rfl
  | some entry => rw [unused entry stands]

/-- A text is found by its number. -/
theorem text_eq {content : String} (holds : pool.HoldsText index content) :
    pool.text index = .ok content := by
  rw [text, get_eq holds (by simp)]
  rfl

/-- A text counts as a string constant. -/
theorem stringConstant_of_text {content : String} (holds : pool.HoldsText index content) :
    pool.stringConstant index = .ok content := by
  rw [stringConstant, get_eq holds (by simp)]
  rfl

/-- The name of a class is found by its number. -/
theorem className_eq {name : String} (holds : pool.HoldsClass index name) :
    pool.className index = .ok name := by
  obtain ⟨text, stands, spelled⟩ := holds
  rw [className, get_eq stands (by simp)]
  exact text_eq spelled

/-- The name of a class is found by its number and given dots. -/
theorem dottedClassName_eq {name : String} (holds : pool.HoldsClass index name) :
    pool.dottedClassName index = .ok (Name.dotted name) := by
  rw [dottedClassName, className_eq holds]
  rfl

/-- A member is found by the numbers of its owner and of its name and descriptor. -/
theorem memberRef_eq {owner pair : UInt16} {member : MemberRef}
    (holds : pool.HoldsMember owner pair member) : pool.memberRef owner pair = .ok member := by
  obtain ⟨ownerHolds, name, descriptor, stands, named, described⟩ := holds
  have pairHolds : pool.nameAndType pair = .ok (member.name, member.descriptor) := by
    rw [nameAndType, get_eq stands (by simp)]
    simp only [Bind.bind, Except.bind, text_eq named, text_eq described]
    rfl
  rw [memberRef, className_eq ownerHolds, pairHolds]
  rfl

/-- A field is found by its number. -/
theorem fieldRef_eq {member : MemberRef} (holds : pool.HoldsField index member) :
    pool.fieldRef index = .ok member := by
  obtain ⟨owner, pair, stands, refers⟩ := holds
  rw [fieldRef, get_eq stands (by simp)]
  exact memberRef_eq refers

/-- A method is found by its number, be it that of an interface or not. -/
theorem methodRef_eq {member : MemberRef} (holds : pool.HoldsMethod index member) :
    pool.methodRef index = .ok member := by
  obtain ⟨owner, pair, stands | stands, refers⟩ := holds
  · rw [methodRef, get_eq stands (by simp)]
    exact memberRef_eq refers
  · rw [methodRef, get_eq stands (by simp)]
    exact memberRef_eq refers

end ConstantPool

end ClassAtlas.ClassFile
