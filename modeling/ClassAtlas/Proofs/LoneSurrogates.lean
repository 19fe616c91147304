import ClassAtlas.ClassFile.Reader
import ClassAtlas.Proofs.PoolEntries

/-!
# Surrogates without a partner

Any sequence of 16-bit code units has a code as a string constant. The code units of a text hold
surrogates in pairs only, a high one and then a low one; a sequence in which some surrogate stands
alone belongs to no text.

Decoding accepts exactly the sequences that belong to a text. A class file is therefore refused as
soon as a constant with a lone surrogate is met in its pool, whatever the constant is used for and
whatever else the file holds.
-/

namespace ClassAtlas

namespace ClassFile

namespace ModifiedUtf8

/-- The code of a sequence of code units, which need not be those of a text. -/
def encodeUnits (codeUnits : List UInt16) : List UInt8 :=
  (codeUnits.map UInt16.toNat).flatMap encodeUnit

/-- Between what comes before it and after it, a code unit is a surrogate without its partner: a
high one that no low one follows, or a low one that follows no high one. -/
def LoneBetween (before : List Nat) (codeUnit : Nat) (after : List Nat) : Prop :=
  isHighSurrogate codeUnit = true ∧ (∀ next ∈ after.head?, isLowSurrogate next = false) ∨
    isLowSurrogate codeUnit = true ∧
      ∀ previous ∈ before.getLast?, isHighSurrogate previous = false

/-- Some surrogate stands alone. -/
def HasLoneSurrogate (codeUnits : List Nat) : Prop :=
  ∃ before codeUnit after, codeUnits = before ++ codeUnit :: after ∧
    LoneBetween before codeUnit after

/-! ## Where a lone surrogate can stand -/

variable {first second : Nat} {rest : List Nat}

/-- No code unit is both a high and a low surrogate. -/
theorem isLowSurrogate_of_high (isHigh : isHighSurrogate first = true) :
    isLowSurrogate first = false := by
  simp only [isHighSurrogate, isLowSurrogate, Bool.and_eq_true, Bool.and_eq_false_iff,
    decide_eq_true_eq, decide_eq_false_iff_not] at isHigh ⊢
  omega

/-- The first code unit stands alone, or a later one does. -/
theorem hasLoneSurrogate_cons :
    HasLoneSurrogate (first :: rest) ↔ LoneBetween [] first rest ∨
      ∃ before codeUnit after, rest = before ++ codeUnit :: after ∧
        LoneBetween (first :: before) codeUnit after := by
  constructor
  · rintro ⟨before, codeUnit, after, split, lone⟩
    cases before with
    | nil =>
      obtain ⟨rfl, rfl⟩ := List.cons.inj split
      exact Or.inl lone
    | cons head before =>
      obtain ⟨rfl, rfl⟩ := List.cons.inj split
      exact Or.inr ⟨before, codeUnit, after, rfl, lone⟩
  · rintro (lone | ⟨before, codeUnit, after, rfl, lone⟩)
    · exact ⟨[], first, rest, rfl, lone⟩
    · exact ⟨first :: before, codeUnit, after, rfl, lone⟩

/-- Only a high surrogate in front can be the partner of a later code unit. -/
theorem loneBetween_cons_iff (notHigh : isHighSurrogate first = false) {before : List Nat}
    {codeUnit : Nat} {after : List Nat} :
    LoneBetween (first :: before) codeUnit after ↔ LoneBetween before codeUnit after := by
  have partner : (∀ previous ∈ (first :: before).getLast?, isHighSurrogate previous = false) ↔
      ∀ previous ∈ before.getLast?, isHighSurrogate previous = false := by
    cases before with
    | nil => simp [notHigh]
    | cons head before => rw [List.getLast?_cons_cons]
  rw [LoneBetween, LoneBetween, partner]

/-- In front of others, a code unit that is no high surrogate is alone if it is a low one. -/
theorem hasLoneSurrogate_cons_of_not_high (notHigh : isHighSurrogate first = false) :
    HasLoneSurrogate (first :: rest) ↔ isLowSurrogate first = true ∨ HasLoneSurrogate rest := by
  rw [hasLoneSurrogate_cons]
  simp only [loneBetween_cons_iff notHigh]
  refine or_congr_left ?_
  simp [LoneBetween, notHigh]

/-- A pair in front is no lone surrogate and leaves none behind. -/
theorem hasLoneSurrogate_pair (isHigh : isHighSurrogate first = true)
    (isLow : isLowSurrogate second = true) :
    HasLoneSurrogate (first :: second :: rest) ↔ HasLoneSurrogate rest := by
  have notLow : isLowSurrogate first = false := isLowSurrogate_of_high isHigh
  have notHigh : isHighSurrogate second = false := by
    refine Bool.eq_false_iff.mpr fun alsoHigh => ?_
    simp [isLowSurrogate_of_high alsoHigh] at isLow
  rw [hasLoneSurrogate_cons]
  constructor
  · rintro (lone | ⟨before, codeUnit, after, split, lone⟩)
    · simp [LoneBetween, isLow, notLow] at lone
    · cases before with
      | nil =>
        obtain ⟨rfl, rfl⟩ := List.cons.inj split
        simp [LoneBetween, isHigh, notHigh] at lone
      | cons head before =>
        obtain ⟨rfl, rfl⟩ := List.cons.inj split
        have later : LoneBetween (second :: before) codeUnit after := by
          rwa [LoneBetween, List.getLast?_cons_cons] at lone
        exact ⟨before, codeUnit, after, rfl, (loneBetween_cons_iff notHigh).mp later⟩
  · rintro ⟨before, codeUnit, after, rfl, lone⟩
    refine Or.inr ⟨second :: before, codeUnit, after, rfl, ?_⟩
    rw [LoneBetween, List.getLast?_cons_cons]
    exact (loneBetween_cons_iff notHigh).mpr lone

/-! ## What decoding accepts -/

/-- Joining fails exactly where a surrogate stands alone. The cases are those of the joining: a pair
is passed as a whole, any other code unit alone. -/
theorem characters_eq_none_iff (codeUnits : List Nat) :
    characters codeUnits = none ↔ HasLoneSurrogate codeUnits := by
  fun_induction characters codeUnits with
  | case1 => simp [HasLoneSurrogate]
  | case2 first isHigh second rest isLow inductionHypothesis =>
    rw [Option.map_eq_none_iff, inductionHypothesis, hasLoneSurrogate_pair isHigh isLow]
  | case3 first isHigh second rest notLow =>
    refine iff_of_true rfl ⟨[], first, second :: rest, rfl, Or.inl ⟨isHigh, ?_⟩⟩
    simpa using notLow
  | case4 first isHigh =>
    exact iff_of_true rfl ⟨[], first, [], rfl, Or.inl ⟨isHigh, by simp⟩⟩
  | case5 first rest notHigh isLow =>
    exact iff_of_true rfl ⟨[], first, rest, rfl, Or.inr ⟨isLow, by simp⟩⟩
  | case6 first rest notHigh notLow inductionHypothesis =>
    rw [Option.map_eq_none_iff, inductionHypothesis,
      hasLoneSurrogate_cons_of_not_high (by simpa using notHigh)]
    simp [notLow]

/-- A number that is no surrogate is that of its character. -/
theorem toNat_char_ofNat {number : Nat}
    (isNumber : number < 0xD800 ∨ 0xDFFF < number ∧ number < 0x110000) :
    (Char.ofNat number).toNat = number := by
  rw [Char.ofNat, dif_pos isNumber]
  rfl

/-- A code unit that is no surrogate is that of its character. -/
theorem unitsOf_ofNat (small : first < 0x10000) (notHigh : isHighSurrogate first = false)
    (notLow : isLowSurrogate first = false) : unitsOf (Char.ofNat first) = [first] := by
  simp only [isHighSurrogate, isLowSurrogate, Bool.and_eq_false_iff, decide_eq_false_iff_not]
    at notHigh notLow
  rw [unitsOf, toNat_char_ofNat (by omega), if_pos small]

/-- A pair is that of the character it is joined to. -/
theorem unitsOf_joined (isHigh : isHighSurrogate first = true)
    (isLow : isLowSurrogate second = true) :
    unitsOf (Char.ofNat (0x10000 + (first - 0xD800) * 1024 + (second - 0xDC00))) =
      [first, second] := by
  simp only [isHighSurrogate, isLowSurrogate, Bool.and_eq_true, decide_eq_true_eq] at isHigh isLow
  have high : 0xD800 + (0x10000 + (first - 0xD800) * 1024 + (second - 0xDC00) - 0x10000) / 1024 =
      first := by omega
  have low : 0xDC00 + (0x10000 + (first - 0xD800) * 1024 + (second - 0xDC00) - 0x10000) % 1024 =
      second := by omega
  rw [unitsOf, toNat_char_ofNat (by omega), if_neg (by omega), high, low]

/-- Joined code units are those of the characters that they were joined to. -/
theorem flatMap_unitsOf_of_characters {codeUnits : List Nat} {letters : List Char}
    (small : ∀ codeUnit ∈ codeUnits, codeUnit < 0x10000)
    (joined : characters codeUnits = some letters) : letters.flatMap unitsOf = codeUnits := by
  fun_induction characters codeUnits generalizing letters with
  | case1 =>
    cases joined
    rfl
  | case2 first isHigh second rest isLow inductionHypothesis =>
    obtain ⟨others, isRest, rfl⟩ := Option.map_eq_some_iff.mp joined
    have later := inductionHypothesis (fun codeUnit listed =>
      small codeUnit (List.mem_cons_of_mem _ (List.mem_cons_of_mem _ listed))) isRest
    rw [List.flatMap_cons, unitsOf_joined isHigh isLow, later]
    rfl
  | case3 | case4 | case5 => cases joined
  | case6 first rest notHigh notLow inductionHypothesis =>
    obtain ⟨others, isRest, rfl⟩ := Option.map_eq_some_iff.mp joined
    obtain ⟨firstSmall, restSmall⟩ := List.forall_mem_cons.mp small
    rw [List.flatMap_cons, inductionHypothesis restSmall isRest,
      unitsOf_ofNat firstSmall (by simpa using notHigh) (by simpa using notLow)]
    rfl

/-- Code units of sixteen bits fit into two bytes. -/
theorem lt_of_mem_map_toNat {codeUnits : List UInt16} :
    ∀ codeUnit ∈ codeUnits.map UInt16.toNat, codeUnit < 0x10000 := by
  intro codeUnit listed
  obtain ⟨unit, _, rfl⟩ := List.mem_map.mp listed
  exact unit.toNat_lt

/-- Encoded code units are decoded into the characters that they make up. -/
theorem decode_encodeUnits (codeUnits : List UInt16) :
    decode (encodeUnits codeUnits) =
      (characters (codeUnits.map UInt16.toNat)).map String.ofList := by
  rw [decode_eq_decodeUnits, decodeUnits, encodeUnits,
    units_flatMap_encodeUnit lt_of_mem_map_toNat, Option.bind_some]

/-- A sequence is accepted as a text exactly if it is the text's sequence of code units. -/
theorem decode_encodeUnits_eq_some_iff {codeUnits : List UInt16} {text : String} :
    decode (encodeUnits codeUnits) = some text ↔
      text.toList.flatMap unitsOf = codeUnits.map UInt16.toNat := by
  rw [decode_encodeUnits]
  constructor
  · intro accepted
    obtain ⟨letters, joined, rfl⟩ := Option.map_eq_some_iff.mp accepted
    rw [String.toList_ofList, flatMap_unitsOf_of_characters lt_of_mem_map_toNat joined]
  · intro same
    rw [← same, characters_flatMap_unitsOf, Option.map_some, String.ofList_toList]

/-- A sequence is accepted as no text exactly if it holds a lone surrogate. -/
theorem decode_encodeUnits_eq_none_iff {codeUnits : List UInt16} :
    decode (encodeUnits codeUnits) = none ↔ HasLoneSurrogate (codeUnits.map UInt16.toNat) := by
  rw [decode_encodeUnits, Option.map_eq_none_iff, characters_eq_none_iff]

end ModifiedUtf8

/-! ## Class files with such a constant -/

open ModifiedUtf8

/-- A text entry of any code units: its tag, the length of its code and the code. -/
def textEntry (codeUnits : List UInt16) : List UInt8 :=
  1 :: (bytes16 (.ofNat (encodeUnits codeUnits).length) ++ encodeUnits codeUnits)

section TextEntry

variable {codeUnits : List UInt16}

/-- An entry of code units that can be decoded is read as their text. -/
theorem reads_textEntry {text : String} (short : (encodeUnits codeUnits).length < 0x10000)
    (accepted : decode (encodeUnits codeUnits) = some text) :
    Reads Constant.decode (textEntry codeUnits) (.text text) := by
  refine .bind (.u1 1) (.bind (.u2 _) ?_)
  rw [UInt16.toNat_ofNat_of_lt' short]
  refine .andThen (.take _) ?_
  rw [accepted]
  exact .pure _

/-- An entry of code units that cannot be decoded is refused. -/
theorem refuses_textEntry (short : (encodeUnits codeUnits).length < 0x10000)
    (refused : decode (encodeUnits codeUnits) = none) :
    Refuses Constant.decode (textEntry codeUnits) .badText := by
  refine .bind (.u1 1) (.bind (.u2 _) ?_)
  rw [UInt16.toNat_ofNat_of_lt' short]
  refine .andThen (.take _) ?_
  rw [refused]
  exact .throw _

end TextEntry

/-- Entries are refused at one that is refused by itself. -/
theorem PoolEntry.refuses_slots_of_refuses {bytes : List UInt8} {fault : Fault}
    (refuses : Refuses Constant.decode bytes fault) (more : Nat) :
    Refuses (ConstantPool.slots (more + 1)) bytes fault := by
  cases more with
  | zero => exact .first refuses
  | succ more => exact .first refuses

/-- A class file up to some constant of its pool: the versions, the count of numbers and the entries
before the constant, which itself is counted. -/
structure PoolBeginning where
  minor : UInt16
  major : UInt16
  before : List PoolEntry
  count : Nat
  supported : supportedVersions.1 ≤ major ∧ major ≤ supportedVersions.2
  counted : PoolEntry.nextNumber before < count
  countable : count < 0x10000

namespace PoolBeginning

/-- The bytes at the beginning of a class file, up to some entry of its pool. -/
def bytes (beginning : PoolBeginning) : List UInt8 :=
  bytes32 magic ++ (bytes16 beginning.minor ++ (bytes16 beginning.major ++
    (bytes16 (.ofNat beginning.count) ++ beginning.before.flatMap PoolEntry.bytes)))

/-- A class file is refused at a constant that is refused by itself. -/
theorem refuses {beginning : PoolBeginning} {entry : List UInt8} {fault : Fault}
    (stops : Refuses Constant.decode entry fault) :
    Refuses ClassRecord.decode (beginning.bytes ++ entry) fault := by
  have room : beginning.count - 1 =
      PoolEntry.slotCount beginning.before + (beginning.count - 1 -
        (PoolEntry.slotCount beginning.before + 1) + 1) := by
    have := beginning.counted
    rw [PoolEntry.nextNumber] at this
    omega
  have version : ¬ (beginning.major < supportedVersions.1 ||
      supportedVersions.2 < beginning.major) = true := by
    have := beginning.supported
    simpa [UInt16.not_lt] using this
  have inPool : Refuses ConstantPool.decode (bytes16 (.ofNat beginning.count) ++
      (beginning.before.flatMap PoolEntry.bytes ++ entry)) fault := by
    refine .bind (.u2 _) ?_
    rw [UInt16.toNat_ofNat_of_lt' beginning.countable, room]
    exact .first (PoolEntry.refuses_slots_behind _ (PoolEntry.refuses_slots_of_refuses stops _))
  simp only [bytes, List.append_assoc]
  refine .bind (.u4 magic) ?_
  rw [if_neg (by simp)]
  refine .bind (.u2 _) (.bind (.u2 _) ?_)
  rw [if_neg version]
  exact .first inPool

end PoolBeginning

/-- The code of any sequence of code units is decoded exactly if it is that of a text, and to that
text; it is refused exactly if a surrogate stands alone. A constant of short enough code is read
with a text in the first case; in the second, all class files with the constant in their pool are
refused, whatever follows it. -/
theorem read_refuses_lone_surrogates (codeUnits : List UInt16) :
    (∀ text, decode (encodeUnits codeUnits) = some text ↔
      text.toList.flatMap unitsOf = codeUnits.map UInt16.toNat) ∧
    (decode (encodeUnits codeUnits) = none ↔ HasLoneSurrogate (codeUnits.map UInt16.toNat)) ∧
    ((encodeUnits codeUnits).length < 0x10000 →
      (¬ HasLoneSurrogate (codeUnits.map UInt16.toNat) →
        ∃ text, Reads Constant.decode (textEntry codeUnits) (.text text)) ∧
      (HasLoneSurrogate (codeUnits.map UInt16.toNat) →
        ∀ (beginning : PoolBeginning) (rest : List UInt8),
          ClassFile.read (beginning.bytes ++ textEntry codeUnits ++ rest) = .error .badText)) := by
  refine ⟨fun text => decode_encodeUnits_eq_some_iff, decode_encodeUnits_eq_none_iff, ?_⟩
  intro short
  rw [← decode_encodeUnits_eq_none_iff]
  constructor
  · intro accepted
    obtain ⟨text, isText⟩ := Option.ne_none_iff_exists'.mp accepted
    exact ⟨text, reads_textEntry short isText⟩
  · intro refused beginning rest
    exact (PoolBeginning.refuses (refuses_textEntry short refused)).whole rest

/-- The beginning of a class file, with the class and its superclass in the pool. -/
def derivedBeginning : PoolBeginning where
  minor := 0
  major := 52
  before := [.text "A" (by decide), .classRef 1, .text "B" (by decide), .classRef 3]
  count := 6
  supported := by decide
  counted := by decide
  countable := by decide

/-- The class file goes on with a constant of one high surrogate and is complete, but refused. -/
theorem read_refuses_lone_surrogates_high :
    HasLoneSurrogate [0xD800] ∧ (encodeUnits [0xD800]).length < 0x10000 ∧
    decode [0xED, 0xA0, 0x80] = none ∧
    ClassFile.read [0xCA, 0xFE, 0xBA, 0xBE, 0, 0, 0, 52, 0, 6, 1, 0, 1, 65, 7, 0, 1, 1, 0, 1, 66,
      7, 0, 3, 1, 0, 3, 0xED, 0xA0, 0x80, 0, 0x21, 0, 2, 0, 4, 0, 0, 0, 0, 0, 0, 0, 0] =
        .error .badText := by
  have lone : HasLoneSurrogate [0xD800] := ⟨[], 0xD800, [], rfl, Or.inl ⟨rfl, by simp⟩⟩
  have short : (encodeUnits [0xD800]).length < 0x10000 := by decide
  have file : derivedBeginning.bytes ++ textEntry [0xD800] ++
      [0, 0x21, 0, 2, 0, 4, 0, 0, 0, 0, 0, 0, 0, 0] =
      [0xCA, 0xFE, 0xBA, 0xBE, 0, 0, 0, 52, 0, 6, 1, 0, 1, 65, 7, 0, 1, 1, 0, 1, 66,
        7, 0, 3, 1, 0, 3, 0xED, 0xA0, 0x80, 0, 0x21, 0, 2, 0, 4, 0, 0, 0, 0, 0, 0, 0, 0] := by
    decide
  obtain ⟨_, refused, inFile⟩ := read_refuses_lone_surrogates [0xD800]
  refine ⟨lone, short, refused.mpr lone, ?_⟩
  rw [← file]
  exact (inFile short).2 lone derivedBeginning _

end ClassFile

end ClassAtlas
