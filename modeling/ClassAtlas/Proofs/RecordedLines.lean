import ClassAtlas.Proofs.AcceptedCode
import ClassAtlas.Proofs.ScanBounds
import Mathlib.Data.Multiset.Defs

/-!
# The lines that a scan records

A code attribute can have any number of line tables, with entries in any order. All of them
together are one collection of entries, in which order means nothing. The line of an offset is
said here by such a collection alone: it is the line of an entry that starts last among those at
or before the offset.

Whatever content a scan accepts is a code attribute written in the one way there is. Each mention
that the scan records, of an instruction or of a handler, stands on the line of its own offset, and
the first line is the least of all lines. As the collection of entries determines all of these
lines, the tables can be split, joined and reordered without a change to what is recorded.
-/

namespace ClassAtlas.ClassFile

/-! ## Lines by a collection of entries -/

/-- The line of an offset: that of an entry which starts last among those that start at or before
the offset, the greatest line if there are several such entries, and zero if there is none. -/
inductive HasLine (entries : Multiset LineEntry) (offset : Nat) : Nat → Prop
  | covered (entry : LineEntry) (present : entry ∈ entries) (early : entry.start ≤ offset)
      (latest : ∀ other ∈ entries, other.start ≤ offset → other.start ≤ entry.start)
      (greatest : ∀ other ∈ entries, other.start = entry.start → other.line ≤ entry.line) :
      HasLine entries offset entry.line
  | uncovered (late : ∀ entry ∈ entries, offset < entry.start) : HasLine entries offset 0

/-- The first line: the least of all lines, if there are entries. -/
inductive HasFirstLine (entries : Multiset LineEntry) : Option Nat → Prop
  | least (entry : LineEntry) (present : entry ∈ entries)
      (least : ∀ other ∈ entries, entry.line ≤ other.line) : HasFirstLine entries (some entry.line)
  | missing (empty : ∀ entry, entry ∉ entries) : HasFirstLine entries none

section Entries

variable {entries : Multiset LineEntry} {offset : Nat}

/-- An offset has at most one line. -/
theorem HasLine.unique {line other : Nat} (first : HasLine entries offset line)
    (second : HasLine entries offset other) : line = other := by
  cases first with
  | covered entry present early latest greatest =>
    cases second with
    | covered entry' present' early' latest' greatest' =>
      have sameStart : entry.start = entry'.start :=
        Nat.le_antisymm (latest' entry present early) (latest entry' present' early')
      exact Nat.le_antisymm (greatest' entry present sameStart)
        (greatest entry' present' sameStart.symm)
    | uncovered late => exact absurd early (Nat.not_le_of_lt (late entry present))
  | uncovered late =>
    cases second with
    | covered entry present early latest greatest =>
      exact absurd early (Nat.not_le_of_lt (late entry present))
    | uncovered _ => rfl

/-- Entries have one first line, or none. -/
theorem HasFirstLine.unique {line other : Option Nat} (first : HasFirstLine entries line)
    (second : HasFirstLine entries other) : line = other := by
  cases first with
  | least entry present least =>
    cases second with
    | least entry' present' least' =>
      exact congrArg some (Nat.le_antisymm (least entry' present') (least' entry present))
    | missing empty => exact absurd present (empty entry)
  | missing empty =>
    cases second with
    | least entry present least => exact absurd present (empty entry)
    | missing _ => rfl

end Entries

/-- The greatest line of the entries with the greatest start, among those that start early enough,
is the line of an offset. -/
theorem hasLine_lineOf (entries : List LineEntry) (offset : Nat) :
    HasLine entries offset (lineOf entries offset) := by
  rw [lineOf, latestLine]
  split
  · rename_i noneEarly
    rw [List.max?_eq_none_iff, List.map_eq_nil_iff, List.filter_eq_nil_iff] at noneEarly
    apply HasLine.uncovered
    intro entry present
    exact Nat.lt_of_not_le fun early => noneEarly entry present (decide_eq_true early)
  · rename_i latest isLatest
    simp only [List.max?_eq_some_iff, List.mem_map, List.mem_filter, decide_eq_true_eq,
      forall_exists_index, and_imp] at isLatest
    obtain ⟨⟨first, ⟨isFirst, early⟩, rfl⟩, isLatest⟩ := isLatest
    -- The entry found so far has the right start, but another one may have a greater line.
    cases greatest : (((entries.filter fun entry => entry.start ≤ offset).filter fun entry =>
        entry.start = first.start).map LineEntry.line).max? with
    | none =>
      rw [List.max?_eq_none_iff, List.map_eq_nil_iff, List.filter_eq_nil_iff] at greatest
      exact absurd (by simp) (greatest first (by simp [isFirst, early]))
    | some line =>
      simp only [List.max?_eq_some_iff, List.mem_map, List.mem_filter, decide_eq_true_eq,
        forall_exists_index, and_imp] at greatest
      obtain ⟨⟨entry, ⟨⟨present, _⟩, sameStart⟩, rfl⟩, isGreatest⟩ := greatest
      refine .covered entry present (sameStart ▸ early) ?_ ?_
      · intro other isOther isEarly
        exact sameStart ▸ isLatest other.start other isOther isEarly rfl
      · intro other isOther hasStart
        have otherStart := hasStart.trans sameStart
        exact isGreatest other.line other isOther (otherStart ▸ early) otherStart rfl

/-- The first line is the least. -/
theorem hasFirstLine_leastLine (entries : List LineEntry) :
    HasFirstLine entries (leastLine entries) := by
  rw [leastLine]
  cases isLeast : (entries.map LineEntry.line).min? with
  | none =>
    rw [List.min?_eq_none_iff, List.map_eq_nil_iff] at isLeast
    subst isLeast
    exact .missing (by simp)
  | some line =>
    simp only [List.min?_eq_some_iff, List.mem_map, forall_exists_index, and_imp] at isLeast
    obtain ⟨⟨entry, present, rfl⟩, isLeast⟩ := isLeast
    exact .least entry present fun other isOther => isLeast other.line other isOther rfl

/-! ## Mentions on lines -/

/-- The source line of a mention. -/
def Mention.line : Mention → Nat
  | member access => access.line
  | type mention => mention.line

/-- The same mention on another line. -/
def Mention.onLine (line : Nat) : Mention → Mention
  | member access => member { access with line }
  | type mention => type { mention with line }

/-- A mention put on a line is on it. -/
theorem Mention.line_onLine (line : Nat) (mention : Mention) :
    (mention.onLine line).line = line := by
  cases mention <;> rfl

/-- Of two lines that a mention is put on, the second counts. -/
theorem Mention.onLine_onLine (line other : Nat) (mention : Mention) :
    (mention.onLine line).onLine other = mention.onLine other := by
  cases mention <;> rfl

/-- A mention is not changed by putting it on its own line. -/
theorem Mention.onLine_line (mention : Mention) : mention.onLine mention.line = mention := by
  cases mention <;> rfl

/-- Where nothing is known of lines. -/
def LineTable.unknown : LineTable := { entries := [] }

/-- A table is asked for one line only, and what an instruction mentions can be put on that line
afterwards. -/
theorem Instruction.mention_eq_map (pool : ConstantPool) (lines : LineTable)
    (instruction : Instruction) :
    instruction.mention pool lines = (instruction.mention pool .unknown).map
      (Option.map (Mention.onLine (lines.lineAt instruction.offset))) := by
  rw [mention, mention]
  by_cases isMember : (0xb2 ≤ instruction.opcode && instruction.opcode ≤ 0xb9) = true
  · simp only [if_pos isMember]
    by_cases isField : instruction.opcode ≤ 0xb5
    · simp only [if_pos isField]
      cases pool.fieldRef instruction.index <;> rfl
    · simp only [if_neg isField]
      cases pool.methodRef instruction.index <;> rfl
  · simp only [if_neg isMember]
    by_cases isType : instruction.opcode ∈ [0xbb, 0xbd, 0xc0, 0xc1, 0xc5]
    · simp only [if_pos isType]
      cases pool.dottedClassName instruction.index <;> rfl
    · simp only [if_neg isType]
      by_cases isConstant : (instruction.opcode = 0x12 || instruction.opcode = 0x13) = true
      · simp only [if_pos isConstant]
        cases pool.get instruction.index with
        | error fault => rfl
        | ok entry =>
          cases entry with
          | classRef name => cases pool.dottedClassName instruction.index <;> rfl
          | _ => rfl
      · simp only [if_neg isConstant]
        rfl

/-- An instruction is recorded as what it mentions, on the line of its offset. -/
def Instruction.RecordedAs (pool : ConstantPool) (entries : Multiset LineEntry)
    (instruction : Instruction) (recorded : Option Mention) : Prop :=
  instruction.mention pool .unknown = .ok (recorded.map (Mention.onLine 0)) ∧
    ∀ mention, recorded = some mention → HasLine entries instruction.offset mention.line

/-- A handler is recorded as the type that it catches, on the line of its offset. -/
def Handler.RecordedAs (entries : Multiset LineEntry) (handler : Handler)
    (recorded : TypeMention) : Prop :=
  recorded.name = handler.caught ∧ HasLine entries handler.offset recorded.line

/-- A summary records what some code and its guarded ranges mention, instruction by instruction and
handler by handler, on the lines that a collection of entries gives. -/
inductive CodeSummary.Records (pool : ConstantPool) (code : List UInt8)
    (guarded : List GuardedRange) (entries : Multiset LineEntry) : CodeSummary → Prop
  | intro (found : List (Option Mention)) (caught : List TypeMention) (firstLine : Option Nat)
      (instructions : List.Forall₂ (Instruction.RecordedAs pool entries)
        (Listing.ofCode 0 code).instructions found)
      (handlers : List.Forall₂ (Handler.RecordedAs entries)
        (guarded.filterMap GuardedRange.handler?) caught)
      (first : HasFirstLine entries firstLine) :
      Records pool code guarded entries
        { accesses := (found.filterMap id).filterMap Mention.access?
          typeMentions := caught ++ (found.filterMap id).filterMap Mention.type?
          firstLine }

section Recording

variable {pool : ConstantPool} {instruction : Instruction}

/-- An instruction is recorded in one way. -/
theorem Instruction.RecordedAs.unique {entries : Multiset LineEntry} :
    Relator.RightUnique (Instruction.RecordedAs pool entries) := by
  rintro instruction recorded other ⟨named, onLine⟩ ⟨otherNamed, otherOnLine⟩
  have same : recorded.map (Mention.onLine 0) = other.map (Mention.onLine 0) :=
    Except.ok.inj (named.symm.trans otherNamed)
  cases recorded with
  | none =>
    cases other with
    | none => rfl
    | some mention => cases same
  | some mention =>
    cases other with
    | none => cases same
    | some otherMention =>
      have sameLine := (onLine mention rfl).unique (otherOnLine otherMention rfl)
      have sameName : mention.onLine 0 = otherMention.onLine 0 := Option.some.inj same
      congr 1
      calc mention = (mention.onLine 0).onLine mention.line := by
            rw [Mention.onLine_onLine, Mention.onLine_line]
        _ = (otherMention.onLine 0).onLine otherMention.line := by rw [sameName, sameLine]
        _ = otherMention := by rw [Mention.onLine_onLine, Mention.onLine_line]

/-- A handler is recorded in one way. -/
theorem Handler.RecordedAs.unique {entries : Multiset LineEntry} :
    Relator.RightUnique (Handler.RecordedAs entries) := by
  rintro handler ⟨name, line⟩ ⟨otherName, otherLine⟩ ⟨named, onLine⟩ ⟨otherNamed, otherOnLine⟩
  rw [TypeMention.mk.injEq]
  exact ⟨named.trans otherNamed.symm, onLine.unique otherOnLine⟩

/-- There is only one summary of some code on the lines that a collection of entries gives. -/
theorem CodeSummary.Records.unique {code : List UInt8} {guarded : List GuardedRange}
    {entries : Multiset LineEntry} {summary other : CodeSummary}
    (records : summary.Records pool code guarded entries)
    (otherRecords : other.Records pool code guarded entries) : summary = other := by
  obtain ⟨found, caught, firstLine, instructions, handlers, first⟩ := records
  obtain ⟨found', caught', firstLine', instructions', handlers', first'⟩ := otherRecords
  rw [Relator.RightUnique.forall₂ Instruction.RecordedAs.unique instructions instructions',
    Relator.RightUnique.forall₂ Handler.RecordedAs.unique handlers handlers', first.unique first']

/-- What an instruction mentions by a table, it is recorded as. -/
theorem Instruction.recordedAs_of_mention {entries : List LineEntry} {recorded : Option Mention}
    (found : instruction.mention pool (.ofEntries entries) = .ok recorded) :
    instruction.RecordedAs pool entries recorded := by
  rw [mention_eq_map, map_eq_ok_iff] at found
  obtain ⟨bare, isBare, rfl⟩ := found
  -- By the table that knows nothing, mentions are on line zero already.
  have zero : bare.map (Mention.onLine 0) = bare := by
    have relined := mention_eq_map pool .unknown instruction
    rw [isBare] at relined
    exact (Except.ok.inj relined).symm
  constructor
  · rw [isBare, Option.map_map]
    have again : Mention.onLine 0 ∘ Mention.onLine _ = Mention.onLine 0 :=
      funext (Mention.onLine_onLine ((LineTable.ofEntries entries).lineAt instruction.offset) 0)
    rw [again, zero]
  · intro mention isRecorded
    obtain ⟨named, _, rfl⟩ := Option.map_eq_some_iff.mp isRecorded
    rw [Mention.line_onLine, LineTable.lineAt_ofEntries]
    exact hasLine_lineOf entries instruction.offset

/-- Lines decide nothing about whether an instruction can be looked up. -/
theorem Instruction.exists_mention {lines : LineTable} {mention : Option Mention}
    (found : instruction.mention pool lines = .ok mention) (other : LineTable) :
    ∃ mention, instruction.mention pool other = .ok mention := by
  rw [mention_eq_map, map_eq_ok_iff] at found
  obtain ⟨bare, isBare, _⟩ := found
  rw [mention_eq_map, isBare]
  exact ⟨_, rfl⟩

/-- Mentions are found where the code is listed to its end and each instruction has its own. -/
theorem Listing.mentions_eq_ok_iff {lines : LineTable} {listing : Listing}
    {found : List (Option Mention)} :
    listing.mentions pool lines = .ok found ↔
      listing.instructions.mapM (Instruction.mention pool lines) = .ok found ∧
        listing.fault = none := by
  rw [mentions, bind_eq_ok_iff]
  cases listing.fault with
  | none => simp [pure, Except.pure]
  | some fault => simp [throw, throwThe, MonadExceptOf.throw]

/-- What an assembled program mentions by a table. -/
theorem Listing.mentions_assemble {program : List Operation}
    (resolves : ∀ operation ∈ program, operation.Resolves pool) (lines : LineTable) :
    (Listing.ofCode 0 (Operation.assemble 0 program)).mentions pool lines =
      .ok ((Operation.place 0 program).map fun placed =>
        placed.2.mention? (lines.lineAt placed.1)) := by
  rw [ofCode_assemble, mentions_eq_ok_iff]
  exact ⟨Operation.mapM_mention_place resolves lines, rfl⟩

/-- Whether mentions are found does not depend on the lines. -/
theorem Listing.exists_mentions {lines : LineTable} {listing : Listing}
    {found : List (Option Mention)} (isFound : listing.mentions pool lines = .ok found)
    (other : LineTable) : ∃ found, listing.mentions pool other = .ok found := by
  simp only [mentions_eq_ok_iff, exists_and_right] at isFound ⊢
  refine ⟨exists_mapM_eq_ok_iff.mpr fun instruction isInstruction => ?_, isFound.2⟩
  obtain ⟨mention, isMention⟩ := exists_mapM_eq_ok_iff.mp ⟨found, isFound.1⟩ _ isInstruction
  exact Instruction.exists_mention isMention other

end Recording

/-! ## Scanning a code attribute -/

section Block

variable {pool : ConstantPool} {block : CodeBlock} {summary : CodeSummary}

/-- A code attribute is summarized exactly when its code can be cut into instructions and all of
these can be looked up. -/
theorem CodeSummary.ofContent_block_eq_ok_iff (resolves : block.Resolves pool) :
    CodeSummary.ofContent pool block.bytes = .ok summary ↔
      ∃ found, (Listing.ofCode 0 block.code).mentions pool (.ofEntries block.entries) = .ok found ∧
        { accesses := (found.filterMap id).filterMap Mention.access?
          typeMentions := (block.guarded.filterMap GuardedRange.handler?).map (fun handler =>
              { name := handler.caught
                line := (LineTable.ofEntries block.entries).lineAt handler.offset }) ++
            (found.filterMap id).filterMap Mention.type?
          firstLine := (LineTable.ofEntries block.entries).firstLine } = summary := by
  rw [CodeSummary.ofContent, (CodeBlock.reads resolves).whole]
  show (block.parts.mentions pool >>= _) = _ ↔ _
  rw [CodeBody.mentions_eq, bind_eq_ok_iff]
  constructor
  · rintro ⟨mentions, isMentions, ⟨⟩⟩
    obtain ⟨found, isFound, rfl⟩ := map_eq_ok_iff.mp isMentions
    exact ⟨found, isFound, rfl⟩
  · rintro ⟨found, isFound, rfl⟩
    exact ⟨_, map_eq_ok_iff.mpr ⟨found, isFound, rfl⟩, rfl⟩

/-- A summary of the bytes of a block records its code, its handlers and its line entries. -/
theorem CodeSummary.records_of_ofContent (resolves : block.Resolves pool)
    (scanned : CodeSummary.ofContent pool block.bytes = .ok summary) :
    summary.Records pool block.code block.guarded block.entries := by
  obtain ⟨found, isFound, rfl⟩ := (ofContent_block_eq_ok_iff resolves).mp scanned
  refine .intro found _ _ ?_ ?_ ?_
  · have read := mapM_eq_ok_iff.mp (Listing.mentions_eq_ok_iff.mp isFound).1
    exact read.imp fun _ _ => Instruction.recordedAs_of_mention
  · rw [List.forall₂_map_right_iff, List.forall₂_same]
    intro handler _
    refine ⟨rfl, ?_⟩
    rw [LineTable.lineAt_ofEntries]
    exact hasLine_lineOf block.entries handler.offset
  · rw [LineTable.firstLine_ofEntries]
    exact hasFirstLine_leastLine block.entries

/-- Other attributes behind the same code and handlers change nothing about what is accepted. -/
theorem CodeSummary.exists_ofContent {other : CodeBlock} (resolves : block.Resolves pool)
    (scanned : CodeSummary.ofContent pool block.bytes = .ok summary)
    (otherResolves : other.Resolves pool) (sameCode : other.code = block.code) :
    ∃ found, CodeSummary.ofContent pool other.bytes = .ok found := by
  obtain ⟨found, isFound, _⟩ := (ofContent_block_eq_ok_iff resolves).mp scanned
  obtain ⟨found, isFound⟩ := Listing.exists_mentions isFound (.ofEntries other.entries)
  rw [← sameCode] at isFound
  exact ⟨_, (ofContent_block_eq_ok_iff otherResolves).mpr ⟨found, isFound, rfl⟩⟩

end Block

/-- Content that is scanned is that of a code attribute, and the scan records exactly what its code
and its guarded ranges mention on the lines that its entries give. Any other attributes behind the
same code and ranges are accepted as well, with lines by their own entries; and the same
collection of entries, however it is spread over tables, gives the same summary. -/
theorem CodeSummary.ofContent_lines {pool : ConstantPool} {content : List UInt8}
    {summary : CodeSummary} (scanned : CodeSummary.ofContent pool content = .ok summary) :
    (∃ block : CodeBlock, block.Resolves pool ∧ block.bytes = content) ∧
    ∀ block : CodeBlock, block.Resolves pool → block.bytes = content →
      (∀ recorded : CodeSummary,
        recorded.Records pool block.code block.guarded block.entries ↔ recorded = summary) ∧
      ∀ other : CodeBlock, other.Resolves pool → other.code = block.code →
        other.guarded = block.guarded →
        ∃ found, CodeSummary.ofContent pool other.bytes = .ok found ∧
          found.Records pool block.code block.guarded other.entries ∧
          ((other.entries : Multiset LineEntry) = block.entries → found = summary) := by
  obtain ⟨body, accepted, _⟩ := bind_eq_ok_iff.mp scanned
  refine ⟨CodeBlock.exists_of_decode accepted, ?_⟩
  rintro block resolves rfl
  have records := records_of_ofContent resolves scanned
  refine ⟨fun recorded => ⟨fun recordedToo => recordedToo.unique records, ?_⟩, ?_⟩
  · rintro rfl
    exact records
  · intro other otherResolves sameCode sameGuarded
    obtain ⟨found, isFound⟩ := exists_ofContent resolves scanned otherResolves sameCode
    have otherRecords := records_of_ofContent otherResolves isFound
    rw [sameCode, sameGuarded] at otherRecords
    refine ⟨found, isFound, otherRecords, ?_⟩
    -- The relation knows the entries as a collection only, and has one summary for each.
    intro sameEntries
    rw [sameEntries] at otherRecords
    exact otherRecords.unique records

/-- A program that creates an object, calls its constructor and returns it. -/
def creatingProgram : List Operation :=
  [.useType .create 2 "A", .plain 0x59 rfl,
    .call .special 6 { owner := "A", name := "<init>", descriptor := "()V" }, .plain 0xb0 rfl]

/-- The program with a handler for the end of it and with any attributes. -/
def creatingBlock (attributes : List BodyAttribute) (fits : attributes.length < 0x10000) :
    CodeBlock where
  stack := 1
  locals := 1
  code := Operation.assemble 0 creatingProgram
  guarded := [{ start := 0, stop := 7, target := 7, caught := some (2, "A") }]
  attributes
  codeFits := by decide
  guardedFits := by decide
  attributesFit := fits

/-- Entries that are out of order and in two tables, with two lines for one offset. -/
def scattered : List BodyAttribute :=
  [.lineNumbers 7 [(7, 9), (3, 5)] (by decide), .lineNumbers 7 [(3, 8)] (by decide)]

/-- The same entries in one table. -/
def gathered : List BodyAttribute := [.lineNumbers 7 [(3, 8), (3, 5), (7, 9)] (by decide)]

/-- What is recorded of both. No entry says on which line the object is created. -/
def creatingSummary : CodeSummary where
  accesses := [{ kind := .constructorCall, owner := "A", name := "<init>", descriptor := "()V"
                 line := 8 }]
  typeMentions := [{ name := "A", line := 9 }, { name := "A", line := 0 }]
  firstLine := some 5

/-- The block resolves if its attributes do. -/
theorem creatingBlock_resolves {attributes : List BodyAttribute}
    (named : ∀ part ∈ attributes, part.Resolves constructorPool)
    (fits : attributes.length < 0x10000) :
    (creatingBlock attributes fits).Resolves constructorPool := by
  refine ⟨?_, named⟩
  intro range isRange index name isCaught
  obtain rfl := List.mem_singleton.mp isRange
  cases isCaught
  exact ⟨by decide, 1, rfl, rfl⟩

/-- The program names what the pool holds. -/
theorem creatingProgram_resolves :
    ∀ operation ∈ creatingProgram, operation.Resolves constructorPool := by
  have holdsClass : constructorPool.HoldsClass 2 "A" := ⟨1, rfl, rfl⟩
  simp only [creatingProgram, List.forall_mem_cons, List.not_mem_nil, false_imp_iff, implies_true,
    and_true]
  exact ⟨holdsClass, trivial, ⟨2, 5, Or.inl rfl, holdsClass, 3, 4, rfl, rfl, rfl⟩, trivial⟩

/-- Scattered entries are recorded as if they were gathered. -/
theorem CodeSummary.ofContent_lines_scattered :
    CodeSummary.ofContent constructorPool (creatingBlock scattered (by decide)).bytes =
      .ok creatingSummary ∧
    CodeSummary.ofContent constructorPool (creatingBlock gathered (by decide)).bytes =
      .ok creatingSummary ∧
    creatingSummary.Records constructorPool [0xbb, 0, 2, 0x59, 0xb7, 0, 6, 0xb0]
      [{ start := 0, stop := 7, target := 7, caught := some (2, "A") }]
      ([⟨3, 8⟩, ⟨3, 5⟩, ⟨7, 9⟩] : List LineEntry) := by
  have scatteredNamed : ∀ part ∈ scattered, part.Resolves constructorPool := by
    simp only [scattered, List.forall_mem_cons, List.not_mem_nil, false_imp_iff, implies_true,
      and_true]
    exact ⟨rfl, rfl⟩
  have gatheredNamed : ∀ part ∈ gathered, part.Resolves constructorPool := by
    simp only [gathered, List.forall_mem_cons, List.not_mem_nil, false_imp_iff, implies_true,
      and_true]
    rfl
  have resolves := creatingBlock_resolves scatteredNamed (by decide)
  have scanned : CodeSummary.ofContent constructorPool (creatingBlock scattered (by decide)).bytes =
      .ok creatingSummary := by
    refine (ofContent_block_eq_ok_iff resolves).mpr ⟨_,
      Listing.mentions_assemble creatingProgram_resolves _, ?_⟩
    simp only [LineTable.lineAt_ofEntries, LineTable.firstLine_ofEntries]
    rfl
  have sameEntries : ((creatingBlock gathered (by decide)).entries : Multiset LineEntry) =
      (creatingBlock scattered (by decide)).entries := Quot.sound (by decide)
  obtain ⟨_, ofBlock⟩ := ofContent_lines scanned
  obtain ⟨exactly, ofOther⟩ := ofBlock _ resolves rfl
  obtain ⟨found, isFound, _, same⟩ := ofOther (creatingBlock gathered (by decide))
    (creatingBlock_resolves gatheredNamed (by decide)) rfl rfl
  rw [same sameEntries] at isFound
  rw [← sameEntries] at exactly
  exact ⟨scanned, isFound, (exactly creatingSummary).mpr rfl⟩

end ClassAtlas.ClassFile
