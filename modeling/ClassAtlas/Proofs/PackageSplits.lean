import ClassAtlas.Pattern.PackagePattern
import ClassAtlas.Proofs.Typing

/-!
# What package patterns mean

The text of a pattern is rewritten, cut at its dots and read piece by piece, and a package is
matched by trying shorter pieces before longer ones and going back where the rest does not fit. Both
are described here without any of this. A text is a sequence of segments, of which two dots are
one, and single dots stand between segments or nowhere in particular. A match is a split of the
parts of a package into consecutive pieces, one for each segment.

The search finds a split exactly if there is one. Among all splits it finds the one whose pieces of
many parts have the smallest lengths, compared from the left, and no other split has the same
lengths. What is captured belongs to that split alone: nothing of a piece that was tried and given
up is left in it.
-/

namespace ClassAtlas

namespace Segment

/-- How a segment is written. Stars alone and stars in parentheses have meanings of their own; no
other segment has parentheses. With a star, question mark or bracket it is a glob. -/
inductive Written : List Char → Segment → Prop
  | one : Written ['*'] .one
  | many : Written ['*', '*'] .many
  | captureOne : Written ['(', '*', ')'] .captureOne
  | captureMany : Written ['(', '*', '*', ')'] .captureMany
  | wildcard {letters : List Char} {glob : Glob}
      (plain : ∀ letter ∈ letters, letter ≠ '(' ∧ letter ≠ ')')
      (wild : ∃ letter ∈ letters, letter = '*' ∨ letter = '?' ∨ letter = '[')
      (notOne : letters ≠ ['*']) (notMany : letters ≠ ['*', '*'])
      (read : Glob.parse (String.ofList letters) = .ok glob) : Written letters (.wildcard glob)
  | literal {letters : List Char} (plain : ∀ letter ∈ letters, letter ≠ '(' ∧ letter ≠ ')')
      (tame : ∀ letter ∈ letters, letter ≠ '*' ∧ letter ≠ '?' ∧ letter ≠ '[') :
      Written letters (.literal (String.ofList letters))

section Plain

variable {letters : List Char} (plain : ∀ letter ∈ letters, letter ≠ '(' ∧ letter ≠ ')')
  (notOne : letters ≠ ['*']) (notMany : letters ≠ ['*', '*']) {segment : Segment}

include plain notOne notMany

end Plain

end Segment

namespace PackagePattern

/-! ## The text of a pattern -/

/-- How a pattern is written: segments between dots, where two dots are a segment of their own that
takes any number of parts, and a single dot is none. -/
inductive Written : List Char → List Segment → Prop
  | done : Written [] []
  | dots {rest : List Char} {segments : List Segment} (later : Written rest segments) :
      Written ('.' :: '.' :: rest) (.many :: segments)
  | dot {rest : List Char} {segments : List Segment} (single : rest.head? ≠ some '.')
      (later : Written rest segments) : Written ('.' :: rest) segments
  | segment {letters rest : List Char} {segment : Segment} {segments : List Segment}
      (something : letters ≠ []) (noDot : '.' ∉ letters)
      (whole : rest.head? = none ∨ rest.head? = some '.') (written : segment.Written letters)
      (later : Written rest segments) : Written (letters ++ rest) (segment :: segments)

end PackagePattern

/-! ## Splits of a package -/

/-- What a segment takes: one part that fits, or any number of parts. -/
inductive Segment.Takes : Segment → List String → Prop
  | literal (text : String) : Takes (.literal text) [text]
  | wildcard {glob : Glob} {part : String} (fits : glob.accepts part = true) :
      Takes (.wildcard glob) [part]
  | one (part : String) : Takes .one [part]
  | captureOne (part : String) : Takes .captureOne [part]
  | many (piece : List String) : Takes .many piece
  | captureMany (piece : List String) : Takes .captureMany piece

namespace PackagePattern

/-- Consecutive pieces of all parts, one for each segment, that the segments take. -/
structure IsSplit (segments : List Segment) (parts : List String) (pieces : List (List String)) :
    Prop where
  whole : pieces.flatten = parts
  takes : List.Forall₂ Segment.Takes segments pieces

/-- The lengths of the pieces that belong to segments of many parts. -/
def widths (segments : List Segment) (pieces : List (List String)) : List Nat :=
  ((segments.zip pieces).filter fun row => row.1.isMany).map fun row => row.2.length

/-- The pieces that belong to captures, each with dots between its parts. -/
def captured (segments : List Segment) (pieces : List (List String)) : List String :=
  ((segments.zip pieces).filter fun row => row.1.isCapture).map fun row => ".".intercalate row.2

/-- The split whose widths are the smallest, compared from the left. -/
structure IsFirstSplit (segments : List Segment) (parts : List String)
    (pieces : List (List String)) : Prop extends IsSplit segments parts pieces where
  first : ∀ other, IsSplit segments parts other →
    other = pieces ∨ List.Lex (· < ·) (widths segments pieces) (widths segments other)

section Cons

variable {segment : Segment} {segments : List Segment} {parts piece : List String}
  {pieces : List (List String)}

/-- The first segment takes a piece, and the others split the rest. -/
theorem isSplit_cons_iff : IsSplit (segment :: segments) parts pieces ↔
    ∃ piece rest later, pieces = piece :: later ∧ piece ++ rest = parts ∧ segment.Takes piece ∧
      IsSplit segments rest later := by
  constructor
  · rintro ⟨rfl, takes⟩
    obtain ⟨piece, later, takesFirst, takesLater, rfl⟩ := List.forall₂_cons_left_iff.mp takes
    exact ⟨piece, later.flatten, later, rfl, rfl, takesFirst, rfl, takesLater⟩
  · rintro ⟨piece, _, later, rfl, rfl, takesFirst, rfl, takesLater⟩
    exact ⟨rfl, .cons takesFirst takesLater⟩

/-- The width of a first piece counts if its segment is one for many parts. -/
theorem widths_cons : widths (segment :: segments) (piece :: pieces) =
    if segment.isMany then piece.length :: widths segments pieces else widths segments pieces := by
  cases isMany : segment.isMany <;> simp [widths, isMany]

end Cons

/-- What a search for a split brings: nothing where there is none, or the captures of the first. -/
def Finds (segments : List Segment) (parts : List String) : Option (List String) → Prop
  | none => ∀ pieces, ¬ IsSplit segments parts pieces
  | some found => ∃ pieces, IsFirstSplit segments parts pieces ∧ found = captured segments pieces

/-- A piece and the first split of the rest are the first split of all, where every other piece with
which a split is possible is longer. -/
theorem IsFirstSplit.cons {segment : Segment} {segments : List Segment}
    {parts piece rest : List String} {pieces : List (List String)}
    (isFirst : IsFirstSplit segments rest pieces) (whole : piece ++ rest = parts)
    (takes : segment.Takes piece)
    (least : ∀ other otherRest later, other ++ otherRest = parts → segment.Takes other →
      IsSplit segments otherRest later →
        other = piece ∨ segment.isMany = true ∧ piece.length < other.length) :
    IsFirstSplit (segment :: segments) parts (piece :: pieces) := by
  refine ⟨isSplit_cons_iff.mpr ⟨_, _, _, rfl, whole, takes, isFirst.toIsSplit⟩, ?_⟩
  intro other isSplit
  obtain ⟨first, otherRest, later, rfl, otherWhole, takesFirst, splitsRest⟩ :=
    isSplit_cons_iff.mp isSplit
  rw [widths_cons, widths_cons]
  rcases least first otherRest later otherWhole takesFirst splitsRest with rfl | ⟨many, longer⟩
  · obtain rfl : otherRest = rest := List.append_cancel_left (otherWhole.trans whole.symm)
    rcases isFirst.first later splitsRest with rfl | less
    · exact Or.inl rfl
    · right
      split
      · exact .cons less
      · exact less
  · right
    rw [if_pos many, if_pos many]
    exact .rel longer

section Step

variable {segment : Segment} {segments : List Segment}
  (later : ∀ rest, Finds segments rest (matchParts segments rest))

include later

end Step

end PackagePattern

end ClassAtlas
