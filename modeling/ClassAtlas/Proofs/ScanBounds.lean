import ClassAtlas.Proofs.CodeScan
import ClassAtlas.Proofs.SwitchLengths

/-!
# Scanning code by position

A listing takes code apart from the front, and has no occasion to look beside it. A scan that keeps
the whole code and a position has: it asks for the bytes at positions, and relies on some of them
being there. Such a scan is stated here as a computation that knows nothing of the code but the
bytes it is given for the positions it asks for, so that what it used can be read off.

The scan ends after at most one step for each byte. It never relies on a byte that is not there,
and finds what the listing finds. Where it finds no fault, the instructions that it visits cover the
code from end to end, and each was visited by its own bytes alone.
-/

namespace ClassAtlas.ClassFile

/-- A computation that sees code only through the bytes at positions it asks for. It is told where
there is no byte, and is `outside` if it relied on one. -/
inductive Look (α : Type)
  | answer (value : α)
  | outside (position : Nat)
  | ask (position : Nat) (next : Option UInt8 → Look α)

namespace Look

variable {α β : Type}

/-- The computation that goes on with what another one answers. -/
def bind (next : α → Look β) : Look α → Look β
  | answer value => next value
  | outside position => outside position
  | ask position rest => ask position fun byte => (rest byte).bind next

instance : Monad Look where
  pure := answer
  bind look next := look.bind next

/-- What a computation answers about some code, or the position it relied on in vain. -/
def result (code : List UInt8) : Look α → Except Nat α
  | answer value => .ok value
  | outside position => .error position
  | ask position next => (next code[position]?).result code

/-- The positions of the bytes that a computation was given, in order. -/
def reads (code : List UInt8) : Look α → List Nat
  | answer _ => []
  | outside _ => []
  | ask position next =>
    (if position < code.length then [position] else []) ++ (next code[position]?).reads code

/-! ## Scanning one instruction -/

/-- The byte at a position, if there is one. -/
def byte? (position : Nat) : Look (Option UInt8) := ask position answer

/-- The byte at a position that has to be there. -/
def byte (position : Nat) : Look UInt8 := do
  match ← byte? position with
  | some value => return value
  | none => outside position

/-- The signed word at a position, if all of it is there. -/
def signedWord? (position : Nat) : Look (Option Int) := do
  let first ← byte? position
  let second ← byte? (position + 1)
  let third ← byte? (position + 2)
  let fourth ← byte? (position + 3)
  return Instruction.signedWord? ([first, second, third, fourth].filterMap id)

/-- The length of a widened instruction, by the opcode that is widened. -/
def wideLength (offset : Nat) : Look (Except CodeFault Nat) := do
  match ← byte? (offset + 1) with
  | some widened => return .ok (if widened = 0x84 then 6 else 4)
  | none => return .error .truncated

/-- The length of a table, by its two ends. -/
def tableLength (offset : Nat) : Look (Except CodeFault Nat) := do
  let start := Instruction.wordsStart offset
  match ← signedWord? (start + 4), ← signedWord? (start + 8) with
  | some low, some high =>
    if high - low + 1 < 0 then return .error .emptyTable
    else return .ok (start - offset + 12 + 4 * (high - low + 1).toNat)
  | _, _ => return .error .truncated

/-- The length of a lookup, by the number of its pairs. -/
def lookupLength (offset : Nat) : Look (Except CodeFault Nat) := do
  let start := Instruction.wordsStart offset
  match ← signedWord? (start + 4) with
  | some pairs =>
    if pairs < 0 then return .error .negativePairs
    else return .ok (start - offset + 8 + 8 * pairs.toNat)
  | none => return .error .truncated

/-- The length of the instruction at an offset. -/
def length (offset : Nat) : Look (Except CodeFault Nat) := do
  match Instruction.shape (← byte offset) with
  | .fixed count => return .ok (count + 1)
  | .wide => wideLength offset
  | .tableSwitch => tableLength offset
  | .lookupSwitch => lookupLength offset
  | .undefined => return .error .undefinedOpcode

/-- Whether instructions with an opcode start with a number of the pool in two bytes. -/
def hasIndex (opcode : UInt8) : Bool :=
  (0xb2 ≤ opcode && opcode ≤ 0xb9) || opcode ∈ [0xbb, 0xbd, 0xc0, 0xc1, 0xc5] || opcode = 0x13

/-- The operand bytes that hold a number of the pool. -/
def indexBytes (offset : Nat) (opcode : UInt8) : Look (List UInt8) :=
  if hasIndex opcode then do
    let high ← byte (offset + 1)
    let low ← byte (offset + 2)
    return [high, low]
  else if opcode = 0x12 then do
    let low ← byte (offset + 1)
    return [low]
  else return []

/-- What the instruction at an offset mentions. -/
def mention (pool : ConstantPool) (lines : LineTable) (offset : Nat) :
    Look (Except Fault (Option Mention)) := do
  let opcode ← byte offset
  let operands ← indexBytes offset opcode
  return Instruction.mention pool lines { offset, opcode, operands }

end Look

/-- An instruction by its place, and what it mentions. -/
structure Visit where
  start : Nat
  length : Nat
  mention : Option Mention

/-- Visit the instruction at an offset in code of some size. -/
def Look.visit (pool : ConstantPool) (lines : LineTable) (size offset : Nat) :
    Look (Except Fault Visit) := do
  match ← Look.length offset with
  | .error reason => return .error (.badCode offset reason)
  | .ok length =>
    if size < offset + length then return .error (.badCode offset .runsPastEnd)
    else
      let mention ← Look.mention pool lines offset
      return mention.map fun mention => { start := offset, length, mention }

/-! ## Scanning all instructions -/

/-- A visit with the positions of the bytes that it was given. -/
structure Visited extends Visit where
  reads : List Nat

/-- How a scan can end without an answer: it relied on a byte that is not there, it ran out of
steps, or it found a fault. -/
inductive ScanStop
  | outside (position : Nat)
  | unfinished
  | refused (fault : Fault)

section Scan

variable (pool : ConstantPool) (lines : LineTable) (code : List UInt8)

/-- Visit the instruction at an offset of the code. -/
def visitAt (offset : Nat) : Except ScanStop Visited :=
  let look := Look.visit pool lines code.length offset
  match look.result code with
  | .error position => .error (.outside position)
  | .ok (.error fault) => .error (.refused fault)
  | .ok (.ok visit) => .ok { visit with reads := look.reads code }

/-- Visit the instructions from an offset on to the end of the code, in a number of steps. -/
def scanFrom : Nat → Nat → Except ScanStop (List Visited)
  | 0, offset => if offset < code.length then .error .unfinished else .ok []
  | steps + 1, offset =>
    if offset < code.length then do
      let visited ← visitAt pool lines code offset
      let later ← scanFrom steps (offset + visited.length)
      return visited :: later
    else .ok []

end Scan

/-- Visits follow one another from an offset to another without gaps, and none is empty. -/
def Tiles : Nat → List Visited → Nat → Prop
  | start, [], stop => start = stop
  | start, visited :: later, stop =>
    visited.start = start ∧ 1 ≤ visited.length ∧ Tiles (start + visited.length) later stop

namespace Look

variable {α β : Type} {code : List UInt8}

/-! ## What computations find -/

/-- About some code a computation answers a value, and it is given no bytes outside a range. -/
def Finds (code : List UInt8) (start stop : Nat) (look : Look α) (value : α) : Prop :=
  look.result code = .ok value ∧
    ∀ position ∈ look.reads code, start ≤ position ∧ position < stop

/-- A computation goes on with the answer of the one before it. -/
theorem result_bind {look : Look α} {next : α → Look β} {value : α}
    (found : look.result code = .ok value) :
    (look >>= next).result code = (next value).result code := by
  induction look with
  | answer answered =>
    cases found
    rfl
  | outside position => cases found
  | ask position rest inductionHypothesis => exact inductionHypothesis _ found

/-- What is read in one computation after another is read in this order. -/
theorem reads_bind {look : Look α} {next : α → Look β} {value : α}
    (found : look.result code = .ok value) :
    (look >>= next).reads code = look.reads code ++ (next value).reads code := by
  induction look with
  | answer answered =>
    cases found
    rfl
  | outside position => cases found
  | ask position rest inductionHypothesis =>
    show _ ++ ((rest code[position]?).bind next).reads code = _ ++ _ ++ _
    rw [List.append_assoc]
    exact congrArg _ (inductionHypothesis _ found)

namespace Finds

variable {start stop : Nat}

/-- Answering a value reads nothing. -/
theorem answer {value final : α} (same : value = final) :
    Finds code start stop (pure value) final :=
  ⟨congrArg _ same, by simp [pure, reads]⟩

/-- One computation after the other. -/
theorem bind {look : Look α} {next : α → Look β} {value : α} {final : β}
    (first : Finds code start stop look value) (second : Finds code start stop (next value) final) :
    Finds code start stop (look >>= next) final := by
  refine ⟨(result_bind first.1).trans second.1, ?_⟩
  intro position isRead
  rw [reads_bind first.1, List.mem_append] at isRead
  rcases isRead with isRead | isRead
  · exact first.2 position isRead
  · exact second.2 position isRead

/-- The same within a wider range. -/
theorem widen {look : Look α} {value : α} {start' stop' : Nat}
    (found : Finds code start' stop' look value) (lower : start ≤ start') (upper : stop' ≤ stop) :
    Finds code start stop look value := by
  refine ⟨found.1, ?_⟩
  intro position isRead
  have range := found.2 position isRead
  omega

/-- Looking at a position inside the range stays in it. -/
theorem byte? {position : Nat} (lower : start ≤ position) (upper : position < stop) :
    Finds code start stop (Look.byte? position) code[position]? := by
  refine ⟨rfl, ?_⟩
  intro other isRead
  simp only [Look.byte?, reads, List.append_nil] at isRead
  split at isRead
  · rw [List.mem_singleton] at isRead
    omega
  · cases isRead

/-- Relying on a byte inside the range stays in it. -/
theorem byte {position : Nat} {value : UInt8} (holds : code[position]? = some value)
    (lower : start ≤ position) (upper : position < stop) :
    Finds code start stop (Look.byte position) value := by
  refine .bind (.byte? lower upper) ?_
  rw [holds]
  exact .answer rfl

/-- Four bytes from a position on are a word of the code behind it, as far as they are there. -/
theorem signedWord?_filterMap (code : List UInt8) (position : Nat) :
    Instruction.signedWord? ([code[position]?, code[position + 1]?, code[position + 2]?,
      code[position + 3]?].filterMap id) = Instruction.signedWord? (code.drop position) := by
  have behind (place : Nat) : code[position + place]? = (code.drop position)[place]? :=
    List.getElem?_drop.symm
  have first : code[position]? = (code.drop position)[0]? := behind 0
  rw [first, behind 1, behind 2, behind 3]
  match code.drop position with
  | [] | [_] | [_, _] | [_, _, _] | _ :: _ :: _ :: _ :: _ => rfl

/-- Looking at a word inside the range stays in it. -/
theorem signedWord? {position : Nat} (lower : start ≤ position) (upper : position + 4 ≤ stop) :
    Finds code start stop (Look.signedWord? position)
      (Instruction.signedWord? (code.drop position)) := by
  rw [← signedWord?_filterMap]
  refine .bind (.byte? lower (by omega)) (.bind (.byte? (by omega) (by omega)) ?_)
  exact .bind (.byte? (by omega) (by omega)) (.bind (.byte? (by omega) (by omega)) (.answer rfl))

end Finds

/-! ## The length of an instruction -/

variable {offset : Nat} {opcode : UInt8} {following : List UInt8}

/-- How many bytes of an instruction tell its length. -/
def extent (offset : Nat) (opcode : UInt8) : Nat :=
  match Instruction.shape opcode with
  | .fixed _ | .undefined => 1
  | .wide => 2
  | .tableSwitch => 1 + Instruction.padding offset + 12
  | .lookupSwitch => 1 + Instruction.padding offset + 8

section Holds

variable (holds : code.drop offset = opcode :: following)
include holds

/-- The bytes of an instruction are those of the code from its offset on. -/
theorem getElem?_of_holds (place : Nat) :
    code[offset + place]? = (opcode :: following)[place]? := by
  rw [← holds, List.getElem?_drop]

/-- The words of a switch, from the start of the code and from its opcode. -/
theorem drop_words (count : Nat) : following.drop (Instruction.padding offset + count) =
    code.drop (Instruction.wordsStart offset + count) := by
  rw [Instruction.drop_of_holds holds, Instruction.wordsStart, ← Nat.add_assoc]

/-- The length of a widened instruction is found in its first two bytes. -/
theorem finds_wideLength (shape : Instruction.shape opcode = .wide) :
    Finds code offset (offset + 2) (wideLength offset)
      (Instruction.length offset opcode following) := by
  have next : code[offset + 1]? = following[0]? := getElem?_of_holds holds 1
  simp only [Instruction.length, Instruction.operandCount, shape]
  refine .bind (.byte? (by omega) (by omega)) ?_
  rw [next]
  cases following with
  | nil => exact .answer rfl
  | cons widened rest =>
    refine .answer (congrArg Except.ok ?_)
    split <;> rfl

/-- The length of a table is found before its jumps. -/
theorem finds_tableLength (shape : Instruction.shape opcode = .tableSwitch) :
    Finds code offset (offset + (1 + Instruction.padding offset + 12)) (tableLength offset)
      (Instruction.length offset opcode following) := by
  simp only [Instruction.length, Instruction.operandCount, shape, drop_words holds, tableLength,
    Instruction.wordsStart]
  refine .bind (.signedWord? (by omega) (by omega)) ?_
  refine .bind (.signedWord? (by omega) (by omega)) ?_
  cases Instruction.signedWord? (code.drop (offset + 1 + Instruction.padding offset + 4)) with
  | none => exact .answer rfl
  | some low =>
    cases Instruction.signedWord? (code.drop (offset + 1 + Instruction.padding offset + 8)) with
    | none => exact .answer rfl
    | some high =>
      by_cases disordered : high - low + 1 < 0
      · simp only [disordered, if_true]
        exact .answer rfl
      · simp only [disordered, if_false]
        exact .answer (congrArg Except.ok (by beta_reduce; omega))

/-- The length of a lookup is found before its pairs. -/
theorem finds_lookupLength (shape : Instruction.shape opcode = .lookupSwitch) :
    Finds code offset (offset + (1 + Instruction.padding offset + 8)) (lookupLength offset)
      (Instruction.length offset opcode following) := by
  simp only [Instruction.length, Instruction.operandCount, shape, drop_words holds, lookupLength,
    Instruction.wordsStart]
  refine .bind (.signedWord? (by omega) (by omega)) ?_
  cases Instruction.signedWord? (code.drop (offset + 1 + Instruction.padding offset + 4)) with
  | none => exact .answer rfl
  | some pairs =>
    by_cases negative : pairs < 0
    · simp only [negative, if_true]
      exact .answer rfl
    · simp only [negative, if_false]
      exact .answer (congrArg Except.ok (by beta_reduce; omega))

/-- The length of an instruction is found by its first bytes. -/
theorem finds_length :
    Finds code offset (offset + extent offset opcode) (Look.length offset)
      (Instruction.length offset opcode following) := by
  have atOffset : code[offset]? = some opcode := getElem?_of_holds holds 0
  refine .bind (.byte atOffset (Nat.le_refl _) ?_) ?_
  · rw [extent]
    split <;> omega
  rw [extent]
  cases shape : Instruction.shape opcode with
  | fixed count =>
    simp only [Instruction.length, Instruction.operandCount, shape]
    exact .answer rfl
  | undefined =>
    simp only [Instruction.length, Instruction.operandCount, shape]
    exact .answer rfl
  | wide => exact finds_wideLength holds shape
  | tableSwitch => exact finds_tableLength holds shape
  | lookupSwitch => exact finds_lookupLength holds shape

end Holds

/-- The bytes that tell the length of an instruction belong to it. -/
theorem extent_le {length : Nat}
    (measured : Instruction.length offset opcode following = .ok length) :
    extent offset opcode ≤ length := by
  obtain ⟨count, counted, rfl⟩ := map_eq_ok_iff.mp measured
  rw [extent]
  cases shape : Instruction.shape opcode with
  | fixed count => exact Nat.le_add_left 1 _
  | undefined => exact Nat.le_add_left 1 _
  | wide =>
    show 2 ≤ count + 1
    simp only [Instruction.operandCount, shape] at counted
    split at counted
    · cases counted
    · rename_i widened rest
      have isCount : (if widened = 0x84 then 5 else 3) = count := Except.ok.inj counted
      split at isCount <;> omega
  | tableSwitch =>
    show 1 + Instruction.padding offset + 12 ≤ count + 1
    simp only [Instruction.operandCount, shape] at counted
    split at counted
    · split at counted
      · cases counted
      · have isCount := Except.ok.inj counted
        omega
    · cases counted
  | lookupSwitch =>
    show 1 + Instruction.padding offset + 8 ≤ count + 1
    simp only [Instruction.operandCount, shape] at counted
    split at counted
    · split at counted
      · cases counted
      · have isCount := Except.ok.inj counted
        omega
    · cases counted

/-! ## What an instruction mentions -/

/-- An instruction that starts with a number of the pool has at least the two bytes of it. -/
theorem shape_of_hasIndex (listed : hasIndex opcode = true) :
    ∃ count, Instruction.shape opcode = .fixed count ∧ 2 ≤ count := by
  have ranges : (0xb2 ≤ opcode.toNat ∧ opcode.toNat ≤ 0xb9) ∨ opcode.toNat = 0xbb ∨
      opcode.toNat = 0xbd ∨ opcode.toNat = 0xc0 ∨ opcode.toNat = 0xc1 ∨ opcode.toNat = 0xc5 ∨
      opcode.toNat = 0x13 := by
    simpa [hasIndex, UInt8.le_iff_toNat_le, ← UInt8.toNat_inj, or_assoc] using listed
  simp only [Instruction.shape, Instruction.within, List.mem_cons, List.not_mem_nil,
    Bool.or_eq_true, Bool.and_eq_true, decide_eq_true_eq, or_false]
  rw [if_neg (by omega), if_neg (by omega), if_neg (by omega), if_neg (by omega),
    if_neg (by omega)]
  split
  · exact ⟨2, rfl, Nat.le_refl 2⟩
  · split
    · exact ⟨3, rfl, by decide⟩
    · rw [if_pos (by omega)]
      exact ⟨4, rfl, by decide⟩

/-- Instructions without a number of the pool are silent. -/
theorem isSilent_of_not_hasIndex (unlisted : hasIndex opcode = false) (noConstant : opcode ≠ 0x12) :
    Instruction.isSilent opcode = true := by
  simp only [hasIndex, Bool.or_eq_false_iff, decide_eq_false_iff_not] at unlisted
  simp [Instruction.isSilent, unlisted, noConstant]

/-- What an instruction mentions depends on its place, its opcode and its number alone. -/
theorem mention_eq_of_index {pool : ConstantPool} {lines : LineTable} {operands more : List UInt8}
    (same : Instruction.index { offset, opcode, operands } =
      Instruction.index { offset, opcode, operands := more }) :
    Instruction.mention pool lines { offset, opcode, operands } =
      Instruction.mention pool lines { offset, opcode, operands := more } := by
  simp only [Instruction.mention, same]

/-- What an instruction mentions is found by the bytes of the instruction. -/
theorem finds_mention (holds : code.drop offset = opcode :: following) (pool : ConstantPool)
    (lines : LineTable) {count : Nat}
    (counted : Instruction.operandCount offset opcode following = .ok count)
    (fits : count ≤ following.length) :
    Finds code offset (offset + (count + 1)) (Look.mention pool lines offset)
      (Instruction.mention pool lines
        { offset, opcode, operands := following.take count }) := by
  have atOffset : code[offset]? = some opcode := getElem?_of_holds holds 0
  refine .bind (.byte atOffset (Nat.le_refl _) (by omega)) ?_
  rw [indexBytes]
  by_cases listed : hasIndex opcode = true
  · rw [if_pos listed]
    obtain ⟨_, shape, enough⟩ := shape_of_hasIndex listed
    rw [Instruction.operandCount_fixed shape] at counted
    cases counted
    match following, fits with
    | [], short => simp at short; omega
    | [_], short => simp at short; omega
    | high :: low :: rest, _ =>
      have atHigh : code[offset + 1]? = some high := getElem?_of_holds holds 1
      have atLow : code[offset + 2]? = some low := getElem?_of_holds holds 2
      refine .bind (.bind (.byte atHigh (by omega) (by omega))
        (.bind (.byte atLow (by omega) (by omega)) (.answer rfl))) (.answer ?_)
      apply mention_eq_of_index
      obtain ⟨more, rfl⟩ := Nat.exists_eq_add_of_le' enough
      rfl
  · rw [if_neg listed]
    by_cases isConstant : opcode = 0x12
    · subst isConstant
      cases counted
      match following, fits with
      | low :: rest, _ =>
        have atLow : code[offset + 1]? = some low := getElem?_of_holds holds 1
        rw [if_pos rfl]
        exact .bind (.bind (.byte atLow (by omega) (by omega)) (.answer rfl)) (.answer rfl)
    · have silent := isSilent_of_not_hasIndex (by simpa using listed) isConstant
      rw [if_neg isConstant, Instruction.mention_silent silent]
      exact .bind (.answer rfl) (.answer (Instruction.mention_silent silent))

/-! ## Visiting an instruction -/

variable {pool : ConstantPool} {lines : LineTable}

section Holds

variable (holds : code.drop offset = opcode :: following)
include holds

/-- An instruction that cannot be measured is refused. -/
theorem visitAt_of_error {reason : CodeFault}
    (counted : Instruction.operandCount offset opcode following = .error reason) :
    visitAt pool lines code offset = .error (.refused (.badCode offset reason)) := by
  have measured : Instruction.length offset opcode following = .error reason := by
    rw [Instruction.length, counted]
    rfl
  have look := finds_length holds
  rw [measured] at look
  have refused : Finds code offset _ (Look.visit pool lines code.length offset) _ :=
    .bind look (.answer rfl)
  rw [visitAt, refused.1]

/-- So is one with more operands than there are bytes. -/
theorem visitAt_of_long {count : Nat}
    (counted : Instruction.operandCount offset opcode following = .ok count)
    (long : following.length < count) :
    visitAt pool lines code offset = .error (.refused (.badCode offset .runsPastEnd)) := by
  have size : code.length - offset = following.length + 1 := by
    rw [← List.length_drop, holds, List.length_cons]
  have look := finds_length holds
  rw [Instruction.length_eq_ok counted] at look
  have refused : Finds code offset (offset + extent offset opcode)
      (Look.visit pool lines code.length offset) (.error (.badCode offset .runsPastEnd)) := by
    refine .bind look ?_
    dsimp only
    rw [if_pos (by omega)]
    exact .answer rfl
  rw [visitAt, refused.1]

/-- All others are visited by their own bytes, for what the instruction mentions. -/
theorem finds_visit {count : Nat}
    (counted : Instruction.operandCount offset opcode following = .ok count)
    (fits : count ≤ following.length) :
    Finds code offset (offset + (1 + count)) (Look.visit pool lines code.length offset)
      ((Instruction.mention pool lines { offset, opcode, operands := following.take count }).map
        fun mention => { start := offset, length := 1 + count, mention }) := by
  have size : code.length - offset = following.length + 1 := by
    rw [← List.length_drop, holds, List.length_cons]
  have measured := Instruction.length_eq_ok counted
  have look := finds_length holds
  have own := extent_le measured
  rw [measured] at look
  refine .bind (look.widen (Nat.le_refl _) (by omega)) ?_
  dsimp only
  rw [if_neg (by omega)]
  exact .bind ((finds_mention holds pool lines counted fits).widen (Nat.le_refl _) (by omega))
    (.answer rfl)

end Holds

end Look

/-! ## Scan and listing -/

section Listing

variable {pool : ConstantPool} {lines : LineTable} {code : List UInt8} {offset : Nat}
  {opcode : UInt8} {following : List UInt8}

namespace Listing

/-- What the instructions of a listing mention; a listing that ended early is refused after them. -/
def mentions (pool : ConstantPool) (lines : LineTable) (listing : Listing) :
    Except Fault (List (Option Mention)) := do
  let found ← listing.instructions.mapM (Instruction.mention pool lines)
  match listing.fault with
  | some fault => throw fault
  | none => return found

/-- Code that starts with an instruction of no length is listed up to it. -/
theorem ofCode_of_error {reason : CodeFault}
    (counted : Instruction.operandCount offset opcode following = .error reason) :
    ofCode offset (opcode :: following) =
      { instructions := [], fault := some (.badCode offset reason) } := by
  rw [ofCode]
  simp only [counted]

/-- Code that ends inside its first instruction is listed up to it. -/
theorem ofCode_of_long {count : Nat}
    (counted : Instruction.operandCount offset opcode following = .ok count)
    (long : following.length < count) :
    ofCode offset (opcode :: following) =
      { instructions := [], fault := some (.badCode offset .runsPastEnd) } := by
  rw [ofCode]
  simp only [counted]
  rw [if_pos (by rw [List.length_take]; omega)]

/-- Code that holds its first instruction is listed from it on. -/
theorem ofCode_of_fits {count : Nat}
    (counted : Instruction.operandCount offset opcode following = .ok count)
    (fits : count ≤ following.length) :
    ofCode offset (opcode :: following) =
      { instructions := { offset, opcode, operands := following.take count } ::
          (ofCode (offset + 1 + count) (following.drop count)).instructions
        fault := (ofCode (offset + 1 + count) (following.drop count)).fault } := by
  rw [ofCode]
  simp only [counted]
  rw [if_neg (by rw [List.length_take]; omega)]

/-- A listing that ends at a fault right away has no mentions. -/
theorem mentions_of_fault {fault : Fault} :
    mentions pool lines { instructions := [], fault := some fault } = .error fault := rfl

variable {instruction : Instruction} {later : Listing}

/-- A listing fails where its first instruction has no mention to give. -/
theorem mentions_cons_error {fault : Fault}
    (failed : instruction.mention pool lines = .error fault) :
    mentions pool lines { later with instructions := instruction :: later.instructions } =
      .error fault := by
  rw [mentions, List.mapM_cons, failed]
  rfl

/-- The mention of the first instruction stands before those of later ones. -/
theorem mentions_cons_ok {mention : Option Mention}
    (found : instruction.mention pool lines = .ok mention) :
    mentions pool lines { later with instructions := instruction :: later.instructions } =
      (later.mentions pool lines).map (mention :: ·) := by
  rw [mentions, mentions, List.mapM_cons, found]
  cases later.instructions.mapM (Instruction.mention pool lines) with
  | error fault => rfl
  | ok others =>
    cases later.fault with
    | none => rfl
    | some fault => rfl

end Listing

/-- The instruction at an offset is visited by its own bytes, for what it mentions, and the listing
goes on behind it. -/
structure Advances (pool : ConstantPool) (lines : LineTable) (code : List UInt8) (offset : Nat)
    (visited : Visited) (instruction : Instruction) : Prop where
  start : visited.start = offset
  positive : 1 ≤ visited.length
  inside : offset + visited.length ≤ code.length
  own : ∀ position ∈ visited.reads,
    visited.start ≤ position ∧ position < visited.start + visited.length
  place : (visited.start, visited.length) = (instruction.offset, instruction.bytes.length)
  found : instruction.mention pool lines = .ok visited.mention
  listing : Listing.ofCode offset (code.drop offset) =
    { instructions := instruction ::
        (Listing.ofCode (offset + visited.length)
          (code.drop (offset + visited.length))).instructions
      fault := (Listing.ofCode (offset + visited.length)
        (code.drop (offset + visited.length))).fault }

/-- An instruction that fits into the code is visited, or refused for what it mentions. -/
theorem visitAt_of_fits {count : Nat} (holds : code.drop offset = opcode :: following)
    (counted : Instruction.operandCount offset opcode following = .ok count)
    (fits : count ≤ following.length) :
    (∃ fault, visitAt pool lines code offset = .error (.refused fault) ∧
      (Listing.ofCode offset (code.drop offset)).mentions pool lines = .error fault) ∨
    ∃ visited instruction, visitAt pool lines code offset = .ok visited ∧
      Advances pool lines code offset visited instruction := by
  have size : code.length - offset = following.length + 1 := by
    rw [← List.length_drop, holds, List.length_cons]
  have rest : following.drop count = code.drop (offset + (1 + count)) := by
    rw [Instruction.drop_of_holds holds, Nat.add_assoc]
  have listing := Listing.ofCode_of_fits counted fits
  rw [← holds, rest, Nat.add_assoc] at listing
  have visit := @Look.finds_visit _ _ _ _ pool lines holds _ counted fits
  cases found : Instruction.mention pool lines
      { offset, opcode, operands := following.take count } with
  | error fault =>
    rw [found] at visit
    refine Or.inl ⟨fault, ?_, ?_⟩
    · rw [visitAt, visit.1]
      rfl
    · rw [listing, Listing.mentions_cons_error found]
  | ok mention =>
    rw [found] at visit
    refine Or.inr ⟨{ start := offset, length := 1 + count, mention
                     reads := (Look.visit pool lines code.length offset).reads code },
      { offset, opcode, operands := following.take count }, ?_, ?_⟩
    · rw [visitAt, visit.1]
      rfl
    · refine ⟨rfl, Nat.le_add_right 1 count, ?_, visit.2, ?_, found, listing⟩
      · show offset + (1 + count) ≤ code.length
        omega
      · rw [Instruction.bytes, List.length_cons, List.length_take, Nat.min_eq_left fits,
          Nat.add_comm]

/-- A step of the scan: it stops with the fault of the listing, or goes on with the listing. -/
theorem visitAt_step (pool : ConstantPool) (lines : LineTable) (more : offset < code.length) :
    (∃ fault, visitAt pool lines code offset = .error (.refused fault) ∧
      (Listing.ofCode offset (code.drop offset)).mentions pool lines = .error fault) ∨
    ∃ visited instruction, visitAt pool lines code offset = .ok visited ∧
      Advances pool lines code offset visited instruction := by
  obtain ⟨opcode, following, holds⟩ : ∃ opcode following, code.drop offset = opcode :: following :=
    ⟨_, _, List.drop_eq_getElem_cons more⟩
  cases counted : Instruction.operandCount offset opcode following with
  | error reason =>
    refine Or.inl ⟨.badCode offset reason, Look.visitAt_of_error holds counted, ?_⟩
    rw [holds, Listing.ofCode_of_error counted, Listing.mentions_of_fault]
  | ok count =>
    by_cases long : following.length < count
    · refine Or.inl ⟨.badCode offset .runsPastEnd, Look.visitAt_of_long holds counted long, ?_⟩
      rw [holds, Listing.ofCode_of_long counted long, Listing.mentions_of_fault]
    · exact visitAt_of_fits holds counted (Nat.le_of_not_lt long)

/-- Visits cover the code from an offset to its end, each by its own bytes, and are those of the
instructions that a listing gives, with what they mention. -/
structure Scans (pool : ConstantPool) (lines : LineTable) (code : List UInt8) (offset : Nat)
    (visits : List Visited) : Prop where
  tiles : Tiles offset visits code.length
  own : ∀ visited ∈ visits, ∀ position ∈ visited.reads,
    visited.start ≤ position ∧ position < visited.start + visited.length
  places : visits.map (fun visited => (visited.start, visited.length)) =
    (Listing.ofCode offset (code.drop offset)).instructions.map
      fun instruction => (instruction.offset, instruction.bytes.length)
  found : (Listing.ofCode offset (code.drop offset)).mentions pool lines =
    .ok (visits.map fun visited => visited.mention)

/-- At the end of the code there is nothing to visit. -/
theorem Scans.done (atEnd : offset = code.length) : Scans pool lines code offset [] := by
  have listing : Listing.ofCode offset (code.drop offset) =
      { instructions := [], fault := none } := by
    rw [atEnd, List.drop_length, Listing.ofCode]
  refine ⟨atEnd, by simp, ?_, ?_⟩
  · rw [listing]
    rfl
  · rw [listing]
    rfl

/-- One more instruction in front. -/
theorem Scans.cons {visited : Visited} {instruction : Instruction} {later : List Visited}
    (advances : Advances pool lines code offset visited instruction)
    (scans : Scans pool lines code (offset + visited.length) later) :
    Scans pool lines code offset (visited :: later) := by
  refine ⟨⟨advances.start, advances.positive, scans.tiles⟩, ?_, ?_, ?_⟩
  · exact List.forall_mem_cons.mpr ⟨advances.own, scans.own⟩
  · rw [advances.listing, List.map_cons, List.map_cons, scans.places, advances.place]
  · rw [advances.listing, Listing.mentions_cons_ok advances.found, scans.found]
    rfl

/-- A scan with a step for each byte visits the instructions of the listing, or stops at the fault
of the listing. By induction on the steps, which last since no instruction is empty. -/
theorem scanFrom_exact (pool : ConstantPool) (lines : LineTable) (code : List UInt8)
    (steps offset : Nat) (inside : offset ≤ code.length) (enough : code.length ≤ offset + steps) :
    (∃ visits, scanFrom pool lines code steps offset = .ok visits ∧
      Scans pool lines code offset visits) ∨
    ∃ fault, scanFrom pool lines code steps offset = .error (.refused fault) ∧
      (Listing.ofCode offset (code.drop offset)).mentions pool lines = .error fault := by
  induction steps generalizing offset with
  | zero =>
    refine Or.inl ⟨[], ?_, .done (by omega)⟩
    rw [scanFrom, if_neg (by omega)]
  | succ steps inductionHypothesis =>
    rw [scanFrom]
    by_cases more : offset < code.length
    · rw [if_pos more]
      rcases visitAt_step pool lines more with
        ⟨fault, stopped, refused⟩ | ⟨visited, instruction, visit, advances⟩
      · refine Or.inr ⟨fault, ?_, refused⟩
        rw [stopped]
        rfl
      · have positive := advances.positive
        rw [visit]
        show (∃ visits, (scanFrom _ _ _ _ _ >>= _) = _ ∧ _) ∨
          ∃ fault, (scanFrom _ _ _ _ _ >>= _) = _ ∧ _
        rcases inductionHypothesis (offset + visited.length) advances.inside (by omega) with
          ⟨later, scanned, scans⟩ | ⟨fault, stopped, refused⟩
        · rw [scanned]
          exact Or.inl ⟨visited :: later, rfl, .cons advances scans⟩
        · rw [stopped]
          refine Or.inr ⟨fault, rfl, ?_⟩
          rw [advances.listing, Listing.mentions_cons_ok advances.found, refused]
          rfl
    · refine Or.inl ⟨[], ?_, .done (by omega)⟩
      rw [if_neg more]

end Listing

/-- A body mentions what the instructions of its code mention. -/
theorem CodeBody.mentions_eq (pool : ConstantPool) (body : CodeBody) :
    body.mentions pool =
      ((Listing.ofCode 0 body.code).mentions pool body.lines).map (List.filterMap id) := by
  rw [mentions, Listing.mentions]
  cases (Listing.ofCode 0 body.code).instructions.mapM (Instruction.mention pool body.lines) with
  | error fault => rfl
  | ok found =>
    cases (Listing.ofCode 0 body.code).fault with
    | none => rfl
    | some fault => rfl

/-- A code attribute by its parts, and the visits of its instructions. -/
structure CodeScan where
  body : CodeBody
  visits : List Visited

namespace CodeScan

/-- The scan of a code attribute's content by position, with a step for each byte of the code. -/
def ofContent (pool : ConstantPool) (content : List UInt8) : Except ScanStop CodeScan := do
  let body ← (Decoder.whole (CodeBody.decode pool) content).mapError ScanStop.refused
  let visits ← scanFrom pool body.lines body.code body.code.length 0
  return { body, visits }

/-- What the parts and the visits mention. -/
def summary (scan : CodeScan) : CodeSummary :=
  let mentions := scan.visits.filterMap fun visited => visited.mention
  let caught := scan.body.handlers.map fun handler =>
    { name := handler.caught, line := scan.body.lines.lineAt handler.offset : TypeMention }
  { accesses := mentions.filterMap Mention.access?
    typeMentions := caught ++ mentions.filterMap Mention.type?
    firstLine := scan.body.lines.firstLine }

/-- A scan by position gives the summary of the content, with the visits of its instructions, or
the fault for which the content is refused. -/
theorem ofContent_cases (pool : ConstantPool) (content : List UInt8) :
    (∃ scan, ofContent pool content = .ok scan ∧
      CodeSummary.ofContent pool content = .ok scan.summary ∧
      Scans pool scan.body.lines scan.body.code 0 scan.visits) ∨
    ∃ fault, ofContent pool content = .error (.refused fault) ∧
      CodeSummary.ofContent pool content = .error fault := by
  rw [ofContent, CodeSummary.ofContent]
  cases Decoder.whole (CodeBody.decode pool) content with
  | error fault => exact Or.inr ⟨fault, rfl, rfl⟩
  | ok body =>
    have scanned := scanFrom_exact pool body.lines body.code body.code.length 0 (Nat.zero_le _)
      (Nat.le_add_left _ _)
    have mentions := body.mentions_eq pool
    rw [List.drop_zero] at scanned
    show (∃ scan, (scanFrom _ _ _ _ _ >>= _) = _ ∧ (body.mentions pool >>= _) = _ ∧ _) ∨
      ∃ fault, (scanFrom _ _ _ _ _ >>= _) = _ ∧ (body.mentions pool >>= _) = _
    rcases scanned with ⟨visits, isScan, scans⟩ | ⟨fault, stopped, refused⟩
    · have found := scans.found
      rw [List.drop_zero] at found
      rw [found] at mentions
      refine Or.inl ⟨{ body, visits }, ?_, ?_, scans⟩
      · rw [isScan]
        rfl
      · rw [mentions]
        simp only [Except.map, List.filterMap_map]
        rfl
    · rw [refused] at mentions
      refine Or.inr ⟨fault, ?_, ?_⟩
      · rw [stopped]
        rfl
      · rw [mentions]
        rfl

/-- Scanning a code attribute by position ends, never relies on a byte that is not there, and gives
what the content is summarized as. Where it finds no fault, its visits cover the code from end to
end, start where the instructions of the listing do, and were given no bytes but their own. -/
theorem ofContent_in_bounds (pool : ConstantPool) (content : List UInt8) :
    ofContent pool content ≠ .error .unfinished ∧
    (∀ position, ofContent pool content ≠ .error (.outside position)) ∧
    (ofContent pool content).map summary =
      (CodeSummary.ofContent pool content).mapError ScanStop.refused ∧
    ∀ scan, ofContent pool content = .ok scan →
      Tiles 0 scan.visits scan.body.code.length ∧
      scan.visits.map (fun visited => (visited.start, visited.length)) =
        (Listing.ofCode 0 scan.body.code).instructions.map
          (fun instruction => (instruction.offset, instruction.bytes.length)) ∧
      ∀ visited ∈ scan.visits, ∀ position ∈ visited.reads,
        visited.start ≤ position ∧ position < visited.start + visited.length := by
  rcases ofContent_cases pool content with
    ⟨found, isScan, isSummary, scans⟩ | ⟨fault, stopped, refused⟩
  · rw [isScan, isSummary]
    refine ⟨by simp, by simp, rfl, ?_⟩
    rintro scan ⟨⟩
    exact ⟨scans.tiles, scans.places, scans.own⟩
  · rw [stopped, refused]
    refine ⟨by simp, by simp, rfl, ?_⟩
    rintro scan ⟨⟩

/-- Code that creates an object, switches over one key and widens an increment. -/
def creatingContent : List UInt8 :=
  [0, 2, 0, 2, 0, 0, 0, 31, 0x2a, 0xbb, 0, 2, 0xaa, 0, 0, 0, 0, 0, 0, 20, 0, 0, 0, 0, 0, 0, 0, 0,
    0, 0, 0, 20, 0xc4, 0x84, 0, 1, 0, 1, 0xb1, 0, 0, 0, 0]

/-- Five instructions are visited, and the bytes of each are read inside it. -/
theorem ofContent_in_bounds_creating :
    ∃ scan, ofContent constructorPool creatingContent = .ok scan ∧
      scan.visits.map (fun visited => (visited.start, visited.length, visited.reads)) =
        [(0, 1, [0, 0]), (1, 3, [1, 1, 2, 3]),
          (4, 20, [4, 12, 13, 14, 15, 16, 17, 18, 19, 4]), (24, 6, [24, 25, 24]),
          (30, 1, [30, 30])] ∧
      Tiles 0 scan.visits 31 ∧
      ∀ visited ∈ scan.visits, ∀ position ∈ visited.reads,
        visited.start ≤ position ∧ position < visited.start + visited.length := by
  obtain ⟨_, _, _, inBounds⟩ := ofContent_in_bounds constructorPool creatingContent
  refine ⟨_, rfl, rfl, ?_⟩
  obtain ⟨tiles, _, own⟩ := inBounds _ rfl
  exact ⟨tiles, own⟩

end CodeScan

end ClassAtlas.ClassFile
