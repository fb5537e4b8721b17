import Mosaic.Text.Measure

/-! Places in a document. Lines and columns count from zero and columns count bytes. A text cut
out of a document is located through the origin at which it starts there, so that its places are
places of the whole document. -/
namespace Mosaic

/-- A line and the byte column in it. -/
structure Position where
  line : Nat
  column : Nat
deriving DecidableEq, Inhabited

/-- A byte interval, its end left out. -/
structure Span where
  start : Nat
  stop : Nat
deriving DecidableEq, Inhabited

/-- A byte interval together with the positions of its two ends. -/
structure Range where
  span : Span
  start : Position
  stop : Position
deriving DecidableEq, Inhabited

def Range.zero : Range := ⟨⟨0, 0⟩, ⟨0, 0⟩, ⟨0, 0⟩⟩

def Position.text (p : Position) : String := toString p.line ++ ":" ++ toString p.column

def Range.text (r : Range) : String := r.start.text ++ ".." ++ r.stop.text

/-- Where a text starts in its document. The first `lead` bytes of the text are not in the
document: they stand in front of its real beginning and collapse onto it. -/
structure Origin where
  offset : Nat
  line : Nat
  column : Nat
  lead : Nat
deriving DecidableEq, Inhabited

def Origin.zero : Origin := ⟨0, 0, 0, 0⟩

def Origin.ofRange (range : Range) : Origin :=
  ⟨range.span.start, range.start.line, range.start.column, 0⟩

/-- The same origin for a text with `count` more bytes in front of it. -/
def Origin.back (origin : Origin) (count : Nat) : Origin :=
  { origin with lead := origin.lead + count }

/-- The offsets at which lines start, for a text at byte `offset`; its first line is left out. -/
def lineStarts (offset : Nat) : List Char → List Nat
  | [] => []
  | c :: rest =>
    let next := offset + c.utf8Size
    if c = '\n' then next :: lineStarts next rest else lineStarts next rest

/-- The number and the start of the last line that starts at or before `offset`, where line
`line` starts at `start` and the lines after it start at the listed offsets. -/
def lineAt (offset line start : Nat) : List Nat → Nat × Nat
  | [] => (line, start)
  | next :: rest => if next ≤ offset then lineAt offset (line + 1) next rest else (line, start)

/-- The line starts of a text and its origin: all that its places depend on. -/
structure Locator where
  starts : List Nat
  origin : Origin
deriving DecidableEq, Inhabited

namespace Locator

def ofText (text : List Char) (origin : Origin) : Locator := ⟨lineStarts 0 text, origin⟩

/-- The position of a byte offset of the text. Only the first line is shifted sideways. -/
def position (l : Locator) (offset : Nat) : Position :=
  let (line, start) := lineAt offset 0 0 l.starts
  if line = 0 then ⟨l.origin.line, l.origin.column + (offset - start - l.origin.lead)⟩
  else ⟨l.origin.line + line, offset - start⟩

/-- The offset in the document of a byte offset of the text. -/
def absolute (l : Locator) (offset : Nat) : Nat := l.origin.offset + (offset - l.origin.lead)

/-- The range in the document of a byte interval of the text. -/
def range (l : Locator) (start stop : Nat) : Range :=
  ⟨⟨l.absolute start, l.absolute stop⟩, l.position start, l.position stop⟩

end Locator

end Mosaic
