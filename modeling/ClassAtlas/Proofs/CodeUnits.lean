import ClassAtlas.ClassFile.ModifiedUtf8

/-!
# Code units of string constants

A string constant goes through two codes, one after the other: characters are spelled in 16-bit
code units, and each unit in one to three bytes. Either step is undone on the front of any longer
sequence, so that by induction on the text the general decoding undoes the whole code.

The decoder leaves that way for constants of plain bytes. These are the code of the letters they
number, and so the short way gives nothing else than the general one.
-/

namespace ClassAtlas.ClassFile.ModifiedUtf8

variable {lead second third : UInt8}

/-- A plain byte other than zero is a code unit. -/
theorem units_one (nonzero : lead.toNat ≠ 0) (plain : lead.toNat < 0x80) (rest : List UInt8) :
    units (lead :: rest) = (units rest).map (lead.toNat :: ·) := by
  rw [units.eq_def]
  simp only [nonzero, plain, if_true, if_false]

/-- A leading byte of two, with one that continues it, is a code unit. -/
theorem units_two (leads : 0xC0 ≤ lead.toNat ∧ lead.toNat < 0xE0)
    (continues : isContinuation second = true) (rest : List UInt8) :
    units (lead :: second :: rest) =
      (units rest).map ((lead.toNat % 32 * 64 + second.toNat % 64) :: ·) := by
  have nonzero : ¬ lead.toNat = 0 := by omega
  have notPlain : ¬ lead.toNat < 0x80 := by omega
  rw [units]
  simp only [nonzero, notPlain, leads, continues, decide_true, Bool.and_self, if_true, if_false]

/-- A leading byte of three, with two that continue it, is a code unit. -/
theorem units_three (leads : 0xE0 ≤ lead.toNat ∧ lead.toNat < 0xF0)
    (continues : isContinuation second = true) (continuesAgain : isContinuation third = true)
    (rest : List UInt8) :
    units (lead :: second :: third :: rest) = (units rest).map
      ((lead.toNat % 16 * 4096 + second.toNat % 64 * 64 + third.toNat % 64) :: ·) := by
  have nonzero : ¬ lead.toNat = 0 := by omega
  have notPlain : ¬ lead.toNat < 0x80 := by omega
  have notTwo : ¬ lead.toNat < 0xE0 := by omega
  rw [units]
  simp only [nonzero, notPlain, notTwo, leads, continues, continuesAgain, decide_true,
    decide_false, Bool.and_self, Bool.and_false, Bool.false_eq_true, if_true, if_false]

/-- Six bits with the mark of a continuation continue a code unit. -/
theorem isContinuation_ofNat (number : Nat) :
    isContinuation (.ofNat (0x80 + number % 64)) = true := by
  simp only [isContinuation, UInt8.toNat_ofNat', Bool.and_eq_true, decide_eq_true_eq]
  omega

/-- The bytes of a code unit are read as that unit. The three lengths are told apart by the range
of the leading byte. -/
theorem units_encodeUnit {codeUnit : Nat} (small : codeUnit < 0x10000) (rest : List UInt8) :
    units (encodeUnit codeUnit ++ rest) = (units rest).map (codeUnit :: ·) := by
  rw [encodeUnit]
  split
  · have leads : (UInt8.ofNat (0xC0 + codeUnit / 64)).toNat = 0xC0 + codeUnit / 64 :=
      UInt8.toNat_ofNat_of_lt' (by simp only [UInt8.size]; omega)
    have joined : (0xC0 + codeUnit / 64) % 32 * 64 +
        (UInt8.ofNat (0x80 + codeUnit % 64)).toNat % 64 = codeUnit := by
      rw [UInt8.toNat_ofNat']
      omega
    refine (units_two ?_ (isContinuation_ofNat _) rest).trans ?_
    · rw [leads]
      omega
    · rw [leads, joined]
  · split
    · have leads : (UInt8.ofNat codeUnit).toNat = codeUnit :=
        UInt8.toNat_ofNat_of_lt' (by simp only [UInt8.size]; omega)
      refine (units_one ?_ ?_ rest).trans ?_
      · rw [leads]
        omega
      · rw [leads]
        omega
      · rw [leads]
    · have leads : (UInt8.ofNat (0xE0 + codeUnit / 4096)).toNat = 0xE0 + codeUnit / 4096 :=
        UInt8.toNat_ofNat_of_lt' (by simp only [UInt8.size]; omega)
      have joined : (0xE0 + codeUnit / 4096) % 16 * 4096 +
          (UInt8.ofNat (0x80 + codeUnit / 64 % 64)).toNat % 64 * 64 +
          (UInt8.ofNat (0x80 + codeUnit % 64)).toNat % 64 = codeUnit := by
        rw [UInt8.toNat_ofNat', UInt8.toNat_ofNat']
        omega
      refine (units_three ?_ (isContinuation_ofNat _) (isContinuation_ofNat _) rest).trans ?_
      · rw [leads]
        omega
      · rw [leads, joined]

/-- The bytes of code units are read as these units. -/
theorem units_flatMap_encodeUnit {codeUnits : List Nat}
    (small : ∀ codeUnit ∈ codeUnits, codeUnit < 0x10000) :
    units (codeUnits.flatMap encodeUnit) = some codeUnits := by
  induction codeUnits with
  | nil => rfl
  | cons codeUnit others inductionHypothesis =>
    obtain ⟨first, later⟩ := List.forall_mem_cons.mp small
    rw [List.flatMap_cons, units_encodeUnit first, inductionHypothesis later]
    rfl

/-- Where characters lie: below the surrogates, or above them and below the last plane's end. -/
theorem toNat_char_range (letter : Char) :
    letter.toNat < 0xD800 ∨ 0xDFFF < letter.toNat ∧ letter.toNat < 0x110000 :=
  letter.valid

/-- Code units fit into two bytes. -/
theorem unitsOf_lt (letter : Char) : ∀ codeUnit ∈ unitsOf letter, codeUnit < 0x10000 := by
  have range := toNat_char_range letter
  intro codeUnit listed
  rw [unitsOf] at listed
  split at listed
  · rw [List.mem_singleton] at listed
    omega
  · simp only [List.mem_cons, List.not_mem_nil, or_false] at listed
    omega

/-- The code units of a character are joined to that character. A character of the basic plane is
no surrogate; any other is halved into one of each kind. -/
theorem characters_unitsOf (letter : Char) (rest : List Nat) :
    characters (unitsOf letter ++ rest) = (characters rest).map (letter :: ·) := by
  have range := toNat_char_range letter
  rw [unitsOf]
  split
  · have notHigh : isHighSurrogate letter.toNat = false := by
      simp only [isHighSurrogate, Bool.and_eq_false_iff, decide_eq_false_iff_not]
      omega
    have notLow : isLowSurrogate letter.toNat = false := by
      simp only [isLowSurrogate, Bool.and_eq_false_iff, decide_eq_false_iff_not]
      omega
    rw [List.cons_append, List.nil_append, characters.eq_def]
    simp only [notHigh, notLow, Bool.false_eq_true, if_false, Char.ofNat_toNat]
  · have isHigh : isHighSurrogate (0xD800 + (letter.toNat - 0x10000) / 1024) = true := by
      simp only [isHighSurrogate, Bool.and_eq_true, decide_eq_true_eq]
      omega
    have isLow : isLowSurrogate (0xDC00 + (letter.toNat - 0x10000) % 1024) = true := by
      simp only [isLowSurrogate, Bool.and_eq_true, decide_eq_true_eq]
      omega
    have joined : 0x10000 + (0xD800 + (letter.toNat - 0x10000) / 1024 - 0xD800) * 1024 +
        (0xDC00 + (letter.toNat - 0x10000) % 1024 - 0xDC00) = letter.toNat := by
      omega
    rw [List.cons_append, List.cons_append, List.nil_append, characters]
    simp only [isHigh, isLow, if_true]
    rw [joined, Char.ofNat_toNat]

/-- The code units of letters are joined to these letters. -/
theorem characters_flatMap_unitsOf (letters : List Char) :
    characters (letters.flatMap unitsOf) = some letters := by
  induction letters with
  | nil => rfl
  | cons letter others inductionHypothesis =>
    rw [List.flatMap_cons, characters_unitsOf, inductionHypothesis]
    rfl

/-- The general decoding undoes the code. -/
theorem decodeUnits_encode (text : String) : decodeUnits (encode text) = some text := by
  have small : ∀ codeUnit ∈ text.toList.flatMap unitsOf, codeUnit < 0x10000 := by
    intro codeUnit listed
    obtain ⟨letter, _, inLetter⟩ := List.mem_flatMap.mp listed
    exact unitsOf_lt letter codeUnit inLetter
  rw [decodeUnits, encode, units_flatMap_encodeUnit small, Option.bind_some,
    characters_flatMap_unitsOf, Option.map_some, String.ofList_toList]

/-! ## Plain bytes -/

/-- The text of plain bytes, letter by letter. -/
def plainText (bytes : List UInt8) : String :=
  String.ofList (bytes.map fun byte => Char.ofNat byte.toNat)

/-- A plain byte is the code of the letter that it numbers. -/
theorem flatMap_encodeUnit_of_isPlain {byte : UInt8} (plain : isPlain byte = true) :
    (unitsOf (Char.ofNat byte.toNat)).flatMap encodeUnit = [byte] := by
  simp only [isPlain, Bool.and_eq_true, decide_eq_true_eq] at plain
  have number : (Char.ofNat byte.toNat).toNat = byte.toNat := by
    rw [Char.ofNat, dif_pos (Or.inl (by omega))]
    rfl
  rw [unitsOf, number, if_pos (by omega), List.flatMap_singleton, encodeUnit, if_neg (by omega),
    if_pos plain.2, UInt8.ofNat_toNat]

/-- Plain bytes are the code of their text. -/
theorem encode_plainText {bytes : List UInt8} (plain : ∀ byte ∈ bytes, isPlain byte = true) :
    encode (plainText bytes) = bytes := by
  rw [encode, plainText, String.toList_ofList, List.flatMap_assoc, List.flatMap_map]
  induction bytes with
  | nil => rfl
  | cons byte others inductionHypothesis =>
    obtain ⟨first, later⟩ := List.forall_mem_cons.mp plain
    rw [List.flatMap_cons, inductionHypothesis later, flatMap_encodeUnit_of_isPlain first]
    rfl

/-- On plain bytes the general decoding gives their text, letter by letter. -/
theorem decodeUnits_of_isPlain {bytes : List UInt8} (plain : ∀ byte ∈ bytes, isPlain byte = true) :
    decodeUnits bytes = some (plainText bytes) := by
  have general := decodeUnits_encode (plainText bytes)
  rwa [encode_plainText plain] at general

/-- Whichever way the decoder takes, the answer is that of the general decoding. -/
theorem decode_eq_decodeUnits (bytes : List UInt8) : decode bytes = decodeUnits bytes := by
  rw [decode]
  split
  · rename_i plain
    exact (decodeUnits_of_isPlain (List.all_eq_true.mp plain)).symm
  · rfl

/-- Decoding undoes the code. -/
theorem decode_encode (text : String) : decode (encode text) = some text := by
  rw [decode_eq_decodeUnits, decodeUnits_encode]

/-- Decoding undoes the code for every text, whichever way is taken; and on bytes from 0x01 to 0x7F
the short way, which takes them letter by letter, agrees with the general one. -/
theorem decode_encode_either_way :
    (∀ text, decode (encode text) = some text ∧ decodeUnits (encode text) = some text) ∧
    ∀ bytes : List UInt8, (∀ byte ∈ bytes, 0x01 ≤ byte.toNat ∧ byte.toNat ≤ 0x7F) →
      decode bytes = some (plainText bytes) ∧ decodeUnits bytes = some (plainText bytes) := by
  refine ⟨fun text => ⟨decode_encode text, decodeUnits_encode text⟩, ?_⟩
  intro bytes range
  have plain : ∀ byte ∈ bytes, isPlain byte = true := by
    intro byte listed
    have bounds := range byte listed
    simp only [isPlain, Bool.and_eq_true, decide_eq_true_eq]
    omega
  have general := decodeUnits_of_isPlain plain
  exact ⟨(decode_eq_decodeUnits bytes).trans general, general⟩

/-- Characters at the lower ends of all lengths, and plain bytes at both ends of their range. -/
theorem decode_encode_either_way_samples :
    (decode [0xC0, 0x80, 0x01, 0xC2, 0x80, 0xE0, 0xA0, 0x80, 0xED, 0xA0, 0x80, 0xED, 0xB0, 0x80] =
      some "\x00\x01\u0080\u0800𐀀") ∧
    (∀ byte ∈ [(0x01 : UInt8), 0x7F], 0x01 ≤ byte.toNat ∧ byte.toNat ≤ 0x7F) ∧
    decode [0x01, 0x7F] = some "\x01\x7f" ∧ decodeUnits [0x01, 0x7F] = some "\x01\x7f" := by
  have code : encode "\x00\x01\u0080\u0800𐀀" =
      [0xC0, 0x80, 0x01, 0xC2, 0x80, 0xE0, 0xA0, 0x80, 0xED, 0xA0, 0x80, 0xED, 0xB0, 0x80] := by
    decide
  have range : ∀ byte ∈ [(0x01 : UInt8), 0x7F], 0x01 ≤ byte.toNat ∧ byte.toNat ≤ 0x7F := by simp
  exact ⟨code ▸ (decode_encode_either_way.1 _).1, range, decode_encode_either_way.2 _ range⟩

end ClassAtlas.ClassFile.ModifiedUtf8
