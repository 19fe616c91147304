import ClassAtlas.ClassFile.Reader
import ClassAtlas.Proofs.Typing

/-!
# Class files delimit themselves

A decoder is self-delimiting if the bytes it takes decide all that it does: the same bytes are
taken whatever follows them, and any strict part of them from the front is found too short.
Sequencing two self-delimiting decoders gives a self-delimiting one, so that the property
passes from numbers and blocks of bytes up to whole class records. Of two different class
files, then, neither is the beginning of the other.
-/

namespace ClassAtlas

namespace ClassFile

/-- The bytes that a decoder takes decide all that it does. -/
def SelfDelimiting {α : Type} (step : Decoder α) : Prop :=
  ∀ bytes value rest, step bytes = .ok (value, rest) →
    ∃ used, bytes = used ++ rest ∧
      (∀ more, step (used ++ more) = .ok (value, more)) ∧
      ∀ short, short <+: used → short ≠ used → step short = .error .unexpectedEnd

/-- The beginnings of two pieces: those of the first, and the first with those of the second. -/
theorem prefix_append_cases {short first second : List UInt8} (isPrefix : short <+: first ++ second)
    (strict : short ≠ first ++ second) :
    (short <+: first ∧ short ≠ first) ∨
      ∃ shorter, short = first ++ shorter ∧ shorter <+: second ∧ shorter ≠ second := by
  rcases List.prefix_or_prefix_of_prefix isPrefix (List.prefix_append first second) with
    within | ⟨shorter, rfl⟩
  · by_cases isFirst : short = first
    · subst isFirst
      refine Or.inr ⟨[], by simp, List.nil_prefix, ?_⟩
      rintro rfl
      simp at strict
    · exact Or.inl ⟨within, isFirst⟩
  · refine Or.inr ⟨shorter, rfl, (List.prefix_append_right_inj first).mp isPrefix, ?_⟩
    rintro rfl
    exact strict rfl

namespace SelfDelimiting

variable {α β : Type}

/-- What takes no bytes and cannot look at them. -/
theorem lift (outcome : Except Fault α) :
    SelfDelimiting (liftM outcome : Decoder α) := by
  rintro bytes value rest taken
  cases outcome with
  | error fault => cases taken
  | ok answer =>
    cases taken
    refine ⟨[], rfl, fun more => rfl, ?_⟩
    intro short isPrefix strict
    exact absurd (List.prefix_nil.mp isPrefix) strict

/-- A value that is given takes no bytes. -/
theorem pure (value : α) : SelfDelimiting (Pure.pure value : Decoder α) := lift (.ok value)

/-- A fault takes no bytes. -/
theorem throw (fault : Fault) : SelfDelimiting (MonadExcept.throw fault : Decoder α) :=
  lift (.error fault)

/-- One decoder after the other. -/
theorem bind {step : Decoder α} {next : α → Decoder β} (first : SelfDelimiting step)
    (second : ∀ value, SelfDelimiting (next value)) : SelfDelimiting (step >>= next) := by
  have run (bytes : List UInt8) :
      (step >>= next) bytes = (step bytes >>= fun taken => next taken.1 taken.2) := rfl
  intro bytes value rest taken
  rw [run, bind_eq_ok_iff] at taken
  obtain ⟨⟨middle, remaining⟩, takenFirst, takenSecond⟩ := taken
  obtain ⟨front, rfl, againFirst, shortFirst⟩ := first bytes middle remaining takenFirst
  obtain ⟨back, rfl, againSecond, shortSecond⟩ := second middle remaining value rest takenSecond
  refine ⟨front ++ back, by rw [List.append_assoc], ?_, ?_⟩
  · intro more
    rw [run, List.append_assoc, againFirst]
    exact againSecond more
  · intro short isPrefix strict
    rw [run]
    rcases prefix_append_cases isPrefix strict with
      ⟨within, strictly⟩ | ⟨shorter, rfl, within, strictly⟩
    · rw [shortFirst short within strictly]
      rfl
    · rw [againFirst]
      exact shortSecond shorter within strictly

/-- A decoder that takes a fixed number of bytes whatever they are. -/
theorem fixed {step : Decoder α} (count : Nat) (value : List UInt8 → α)
    (short : ∀ bytes : List UInt8, bytes.length < count → step bytes = .error .unexpectedEnd)
    (full : ∀ used more : List UInt8, used.length = count →
      step (used ++ more) = .ok (value used, more)) : SelfDelimiting step := by
  intro bytes result rest taken
  by_cases enough : bytes.length < count
  · simp [short bytes enough] at taken
  have length : (bytes.take count).length = count := by simp; omega
  have whole := full (bytes.take count) (bytes.drop count) length
  rw [List.take_append_drop, taken] at whole
  cases whole
  refine ⟨bytes.take count, (List.take_append_drop count bytes).symm, ?_, ?_⟩
  · exact fun more => full _ more length
  · intro shorter isPrefix strict
    refine short shorter (Nat.lt_of_le_of_ne (length ▸ isPrefix.length_le) fun same => ?_)
    exact strict (isPrefix.eq_of_length (same.trans length.symm))

/-- A byte delimits itself. -/
theorem u1 : SelfDelimiting Decoder.u1 := by
  refine fixed 1 (fun used => used.headD 0) ?_ ?_
  · intro bytes short
    match bytes, short with
    | [], _ => rfl
  · intro used more length
    match used, length with
    | [_], _ => rfl

/-- A number of two bytes delimits itself. -/
theorem u2 : SelfDelimiting Decoder.u2 := by
  refine fixed 2 (fun used => Decoder.join16 (used.getD 0 0) (used.getD 1 0)) ?_ ?_
  · intro bytes short
    match bytes, short with
    | [], _ => rfl
    | [_], _ => rfl
  · intro used more length
    match used, length with
    | [_, _], _ => rfl

/-- A number of four bytes delimits itself. -/
theorem u4 : SelfDelimiting Decoder.u4 := by
  refine fixed 4 (fun used => Decoder.join32 (used.getD 0 0) (used.getD 1 0) (used.getD 2 0)
    (used.getD 3 0)) ?_ ?_
  · intro bytes short
    match bytes, short with
    | [], _ => rfl
    | [_], _ => rfl
    | [_, _], _ => rfl
    | [_, _, _], _ => rfl
  · intro used more length
    match used, length with
    | [_, _, _, _], _ => rfl

/-- A number of eight bytes delimits itself. -/
theorem u8 : SelfDelimiting Decoder.u8 :=
  bind u4 fun _ => bind u4 fun _ => pure _

/-- A given number of bytes is taken, whatever follows. -/
theorem take (count : Nat) : SelfDelimiting (Decoder.take count) := by
  refine fixed count id ?_ ?_
  · intro bytes short
    rw [Decoder.take, if_pos (by simp; omega)]
  · intro used more length
    subst length
    simp [Decoder.take]

/-- A given number of bytes is skipped, whatever follows. -/
theorem skip (count : Nat) : SelfDelimiting (Decoder.skip count) :=
  bind (take count) fun _ => pure _

/-- What is read a given number of times delimits itself if it does so each time. -/
theorem times {step : Decoder α} (delimits : SelfDelimiting step) (count : Nat) :
    SelfDelimiting (Decoder.times step count) := by
  induction count with
  | zero => exact pure _
  | succ count inductionHypothesis =>
    exact bind delimits fun _ => bind inductionHypothesis fun _ => pure _

/-- What is read as often as a count says delimits itself if it does so each time. -/
theorem counted {step : Decoder α} (delimits : SelfDelimiting step) :
    SelfDelimiting (Decoder.counted step) :=
  bind u2 fun count => times delimits count.toNat

/-- Either of two decoders. -/
theorem ite {condition : Prop} [Decidable condition] {step other : Decoder α}
    (first : SelfDelimiting step) (second : SelfDelimiting other) :
    SelfDelimiting (if condition then step else other) := by
  split
  · exact first
  · exact second

/-- A decoder behind a check. -/
theorem guard {condition : Prop} [Decidable condition] {fault : Fault} {next : Unit → Decoder α}
    (later : ∀ checked, SelfDelimiting (next checked)) :
    SelfDelimiting (if condition then MonadExcept.throw fault >>= next else next ()) :=
  ite (bind (throw fault) later) (later ())

/-- A decoder behind a choice between two. -/
theorem branch {condition : Prop} [Decidable condition] {step other : Decoder α}
    {next : α → Decoder β} (first : SelfDelimiting step) (second : SelfDelimiting other)
    (later : ∀ value, SelfDelimiting (next value)) :
    SelfDelimiting (if condition then step >>= next else other >>= next) :=
  ite (bind first later) (bind second later)

/-- A self-delimiting decoder that has to use up all bytes accepts no two inputs of which one
begins with the other. -/
theorem whole_prefix_free {step : Decoder α} (delimits : SelfDelimiting step)
    {bytes : List UInt8} {value : α} (accepted : Decoder.whole step bytes = .ok value) :
    (∀ short, short <+: bytes → short ≠ bytes →
      Decoder.whole step short = .error .unexpectedEnd) ∧
    ∀ more, more ≠ [] → Decoder.whole step (bytes ++ more) = .error (.trailingBytes more.length) := by
  obtain ⟨⟨result, rest⟩, taken, finished⟩ := bind_eq_ok_iff.mp accepted
  obtain ⟨used, rfl, again, short⟩ := delimits bytes result rest taken
  cases rest with
  | cons first others => cases finished
  | nil =>
    rw [List.append_nil]
    constructor
    · intro shorter isPrefix strict
      rw [Decoder.whole, StateT.run, short shorter isPrefix strict]
      rfl
    · intro more nonempty
      rw [Decoder.whole, StateT.run, again more]
      cases more with
      | nil => exact absurd rfl nonempty
      | cons first others => rfl

end SelfDelimiting

namespace Constant

/-- The tag of a constant tells how its content ends. -/
theorem ofTag_selfDelimiting (tag : UInt8) : SelfDelimiting (ofTag tag) := by
  have pair (entry : UInt16 → UInt16 → Constant) :
      SelfDelimiting (do return entry (← Decoder.u2) (← Decoder.u2)) :=
    .bind .u2 fun _ => .bind .u2 fun _ => .pure _
  have passed (count : Nat) (entry : Constant) :
      SelfDelimiting (do Decoder.skip count; return entry) :=
    .bind (.skip count) fun _ => .pure _
  unfold ofTag
  split
  · refine .bind .u2 fun length => .bind (.take length.toNat) fun bytes => ?_
    split
    · exact .pure _
    · exact .throw _
  · exact .bind .u4 fun _ => .pure _
  · exact .bind .u4 fun _ => .pure _
  · exact .bind .u8 fun _ => .pure _
  · exact .bind .u8 fun _ => .pure _
  · exact .bind .u2 fun _ => .pure _
  · exact .bind .u2 fun _ => .pure _
  · exact pair fieldRef
  · exact pair methodRef
  · exact pair interfaceMethodRef
  · exact pair nameAndType
  · exact passed 3 methodHandle
  · exact passed 2 methodType
  · exact passed 4 dynamic
  · exact passed 4 invokeDynamic
  · exact passed 2 module
  · exact passed 2 package
  · exact .throw _

/-- A constant delimits itself. -/
theorem decode_selfDelimiting : SelfDelimiting decode :=
  .bind .u1 ofTag_selfDelimiting

end Constant

namespace ConstantPool

/-- By induction on the count, which a wide entry lowers by two. -/
theorem slots_selfDelimiting (count : Nat) : SelfDelimiting (slots count) := by
  fun_induction slots count with
  | case1 => exact .pure _
  | case2 =>
    refine .bind Constant.decode_selfDelimiting fun entry => ?_
    exact .ite (.throw _) (.pure _)
  | case3 count afterWide afterOther =>
    refine .bind Constant.decode_selfDelimiting fun entry => ?_
    exact .ite (.bind afterWide fun _ => .pure _) (.bind afterOther fun _ => .pure _)

/-- The constant pool delimits itself by its count. -/
theorem decode_selfDelimiting : SelfDelimiting decode :=
  .bind .u2 fun _ => .bind (slots_selfDelimiting _) fun _ => .pure _

end ConstantPool

/-- An attribute delimits itself by its length. -/
theorem Attribute.decode_selfDelimiting (pool : ConstantPool) :
    SelfDelimiting (Attribute.decode pool) :=
  .bind .u2 fun _ => .bind (.lift _) fun _ => .bind .u4 fun _ => .bind (.take _) fun _ => .pure _

namespace AttributeSummary

/-- A given number of attributes delimit themselves. -/
theorem read_selfDelimiting (pool : ConstantPool) (carrier : Carrier) (count : Nat)
    (summary : AttributeSummary) : SelfDelimiting (read pool carrier count summary) := by
  induction count generalizing summary with
  | zero => exact .pure _
  | succ count inductionHypothesis =>
    refine .bind (Attribute.decode_selfDelimiting pool) fun block => ?_
    exact .bind (.lift _) inductionHypothesis

/-- A table of attributes delimits itself by its count. -/
theorem decode_selfDelimiting (pool : ConstantPool) (carrier : Carrier) :
    SelfDelimiting (decode pool carrier) :=
  .bind .u2 fun count => read_selfDelimiting pool carrier count.toNat {}

end AttributeSummary

end ClassFile

open ClassFile

/-- A field delimits itself. -/
theorem FieldRecord.decode_selfDelimiting (pool : ConstantPool) :
    SelfDelimiting (FieldRecord.decode pool) :=
  .bind .u2 fun _ => .bind .u2 fun _ => .bind (.lift _) fun _ => .bind .u2 fun _ =>
    .bind (.lift _) fun _ => .bind (AttributeSummary.decode_selfDelimiting pool _) fun _ => .pure _

/-- A method delimits itself. -/
theorem MethodRecord.decode_selfDelimiting (pool : ConstantPool) :
    SelfDelimiting (MethodRecord.decode pool) :=
  .bind .u2 fun _ => .bind .u2 fun _ => .bind (.lift _) fun _ => .bind .u2 fun _ =>
    .bind (.lift _) fun _ => .bind (AttributeSummary.decode_selfDelimiting pool _) fun _ => .pure _

/-- A class file delimits itself. -/
theorem ClassRecord.decode_selfDelimiting : SelfDelimiting ClassRecord.decode := by
  refine .bind .u4 fun found => .guard fun _ => ?_
  refine .bind .u2 fun minor => .bind .u2 fun major => .guard fun _ => ?_
  refine .bind ConstantPool.decode_selfDelimiting fun pool => .bind .u2 fun flags => ?_
  refine .bind .u2 fun _ => .bind (.lift _) fun name => .bind .u2 fun superIndex => ?_
  refine .branch (.pure _) (.bind (.lift _) fun _ => .pure _) fun superclass => ?_
  refine .bind (.counted (.bind .u2 fun _ => .lift _)) fun interfaces => ?_
  refine .bind (.counted (FieldRecord.decode_selfDelimiting pool)) fun fields => ?_
  refine .bind (.counted (MethodRecord.decode_selfDelimiting pool)) fun methods => ?_
  exact .bind (AttributeSummary.decode_selfDelimiting pool _) fun _ => .pure _

/-- Class files are prefix-free and used up: what begins a class file without being all of it
ends too early, and what goes on after one has trailing bytes. -/
theorem ClassFile.read_prefix_free {bytes : List UInt8} {record : ClassRecord}
    (accepted : ClassFile.read bytes = .ok record) :
    (∀ short, short <+: bytes → short ≠ bytes →
      ClassFile.read short = .error .unexpectedEnd) ∧
    ∀ more, more ≠ [] → ClassFile.read (bytes ++ more) = .error (.trailingBytes more.length) :=
  ClassRecord.decode_selfDelimiting.whole_prefix_free accepted

/-- The class file of a public class and its superclass, whose names are one letter each. -/
def ClassFile.derivedClass (name superclass : UInt8) : List UInt8 :=
  [0xCA, 0xFE, 0xBA, 0xBE, 0, 0, 0, 52, 0, 5, 1, 0, 1, name, 7, 0, 1, 1, 0, 1, superclass, 7, 0, 3,
    0, 0x21, 0, 2, 0, 4, 0, 0, 0, 0, 0, 0, 0, 0]

/-- The file of a class `A` without members, cut short anywhere or followed by any bytes. -/
theorem ClassFile.read_prefix_free_derivedClass :
    (ClassFile.read (derivedClass 65 66)).toOption.map ClassRecord.name = some "A" ∧
    (∀ short, short <+: derivedClass 65 66 → short ≠ derivedClass 65 66 →
      ClassFile.read short = .error .unexpectedEnd) ∧
    ∀ more, more ≠ [] →
      ClassFile.read (derivedClass 65 66 ++ more) = .error (.trailingBytes more.length) := by
  have accepted : ClassFile.read (derivedClass 65 66) = .ok {
      name := "A", flags := 0x21, major := 52, minor := 0, superclass := some "B"
      interfaces := [], fields := [], methods := [], annotations := [], sourceFile := none
      nesting := {} } := rfl
  exact ⟨by rw [accepted]; rfl, ClassFile.read_prefix_free accepted⟩

end ClassAtlas
