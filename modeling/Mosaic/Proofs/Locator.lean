import Mathlib.Data.List.TakeWhile
import Mosaic.Proofs.Bytewise.Encoding

/-! Places by counting. The place of a byte offset is found by counting the line breaks before it
and the bytes since the last of them, and counting goes on behind a text where it ended. So the
locator of a part of a document, whatever is put around the part, tells the places that the locator
of the document tells. -/
namespace Mosaic

open Bytewise

/-- The place of a byte offset by counting: the line breaks before it, and the bytes since the last
of them. Behind the end of the bytes there are no more line breaks. -/
def Position.counted (source : List UInt8) (offset : Nat) : Position :=
  ⟨(source.take offset).count 10,
    ((source.take offset).reverse.takeWhile (· ≠ 10)).length + (offset - source.length)⟩

/-- A place of a text that starts at `origin` as a place of the document. Only the first line is
shifted sideways. -/
def Position.shifted (origin : Origin) (p : Position) : Position :=
  ⟨origin.line + p.line, if p.line = 0 then origin.column + p.column else p.column⟩

namespace Position

theorem counted_zero (source : List UInt8) : counted source 0 = ⟨0, 0⟩ := by
  simp only [counted, List.take_zero, List.count_nil, List.reverse_nil, List.takeWhile_nil,
    List.length_nil, Nat.zero_sub, Nat.add_zero]

/-- Counting goes on behind `front`: the columns go on as long as no line begins. -/
theorem counted_append (front back : List UInt8) (offset : Nat) :
    counted (front ++ back) (front.length + offset) =
      ⟨(counted front front.length).line + (counted back offset).line,
        if (counted back offset).line = 0 then (counted front front.length).column + offset
        else (counted back offset).column⟩ := by
  have past : front.length + offset - (front ++ back).length = offset - back.length := by
    rw [List.length_append, Nat.add_sub_add_left]
  simp only [counted, List.take_length_add_append, List.take_length, List.count_append, past,
    Position.mk.injEq, true_and]
  split
  · next none =>
    rw [Text.takeWhile_reverse_append_of_not_mem _ (List.count_eq_zero.mp none), List.length_append,
      List.length_reverse, List.length_take]
    omega
  · next some =>
    have mem : 10 ∈ back.take offset := List.count_pos_iff.mp (Nat.pos_of_ne_zero some)
    rw [Text.takeWhile_reverse_append_of_mem _ mem]

/-- What stands behind an offset does not count. -/
theorem counted_append_of_le {front : List UInt8} {offset : Nat} (le : offset ≤ front.length)
    (back : List UInt8) : counted (front ++ back) offset = counted front offset := by
  have inside : offset ≤ (front ++ back).length := by
    rw [List.length_append]
    exact Nat.le_trans le (Nat.le_add_right _ _)
  rw [counted, counted, List.take_append_of_le_length le, Nat.sub_eq_zero_of_le le,
    Nat.sub_eq_zero_of_le inside]

/-- Without line breaks every byte is a column. -/
theorem counted_of_plain {source : List UInt8} {offset : Nat} (plain : 10 ∉ source.take offset) :
    counted source offset = ⟨0, offset⟩ := by
  have all := Text.takeWhile_reverse_append_of_not_mem [] plain
  rw [List.nil_append, List.reverse_nil, List.takeWhile_nil, List.append_nil] at all
  rw [counted, List.count_eq_zero.mpr plain, all, List.length_reverse, List.length_take]
  exact congrArg (Position.mk 0) (by omega)

theorem column_counted {source : List UInt8} {offset : Nat}
    (first : (counted source offset).line = 0) : (counted source offset).column = offset := by
  rw [counted_of_plain (List.count_eq_zero.mp first)]

theorem column_counted_le (source : List UInt8) (offset : Nat) :
    (counted source offset).column ≤ offset := by
  have part := (List.takeWhile_prefix (· ≠ 10) (l := (source.take offset).reverse)).length_le
  rw [List.length_reverse, List.length_take] at part
  simp only [counted]
  omega

end Position

/-- The offsets behind the line breaks among some bytes. -/
def byteStarts (offset : Nat) : List UInt8 → List Nat
  | [] => []
  | b :: rest =>
    if b = 10 then (offset + 1) :: byteStarts (offset + 1) rest else byteStarts (offset + 1) rest

theorem byteStarts_append {front : List UInt8} (plain : 10 ∉ front) (offset : Nat)
    (back : List UInt8) :
    byteStarts offset (front ++ back) = byteStarts (offset + front.length) back := by
  induction front generalizing offset with
  | nil => rfl
  | cons b rest ih =>
    rw [List.mem_cons, not_or] at plain
    rw [List.cons_append, byteStarts, if_neg (Ne.symm plain.1), ih plain.2, List.length_cons,
      Nat.add_assoc, Nat.add_comm 1]

theorem lineBreak_mem_encodeChar {c : Char} : 10 ∈ String.utf8EncodeChar c ↔ c = '\n' := by
  constructor
  · intro mem
    obtain ⟨lead, conts, shape, -, -, later⟩ := encodeChar_eq_cons c
    rw [shape, List.mem_cons] at mem
    rcases mem with rfl | mem
    · exact (eq_asChar_of_lt shape (by decide)).1
    · have wide := ge_of_not_first (later 10 mem)
      exact absurd wide (by decide)
  · rintro rfl
    decide

theorem lineBreak_mem_encode {text : List Char} : 10 ∈ encode text ↔ '\n' ∈ text := by
  simp only [encode, List.mem_flatMap, lineBreak_mem_encodeChar, exists_eq_right]

/-- A line starts behind each line break among the bytes of a text. -/
theorem lineStarts_eq (offset : Nat) (text : List Char) :
    lineStarts offset text = byteStarts offset (encode text) := by
  induction text generalizing offset with
  | nil => rfl
  | cons c rest ih =>
    rw [lineStarts, encode_cons]
    by_cases isBreak : c = '\n'
    · subst isBreak
      simp only [if_true, ih]
      rfl
    · rw [byteStarts_append (mt lineBreak_mem_encodeChar.mp isBreak),
        String.length_utf8EncodeChar]
      simp only [if_neg isBreak, ih]

theorem lineAt_byteStarts_ahead {base offset : Nat} (line start : Nat) (le : offset ≤ base)
    (source : List UInt8) : lineAt offset line start (byteStarts base source) = (line, start) := by
  induction source generalizing base with
  | nil => rfl
  | cons b rest ih =>
    rw [byteStarts]
    split
    · rw [lineAt, if_neg (Nat.not_le.mpr (Nat.lt_succ_of_le le))]
    · exact ih (Nat.le_succ_of_le le)

/-- The line of an offset and where it starts, by counting from byte `base` on. -/
theorem lineAt_byteStarts (source : List UInt8) (base line start offset : Nat) :
    lineAt (base + offset) line start (byteStarts base source) =
      (line + (Position.counted source offset).line,
        if (Position.counted source offset).line = 0 then start
        else base + offset - (Position.counted source offset).column) := by
  induction source generalizing base line start offset with
  | nil =>
    rw [Position.counted_of_plain (by rw [List.take_nil]; exact List.not_mem_nil)]
    rfl
  | cons b rest ih =>
    cases offset with
    | zero =>
      rw [Position.counted_zero]
      exact lineAt_byteStarts_ahead line start (Nat.le_refl base) _
    | succ offset =>
      have behind : base + (offset + 1) = base + 1 + offset := by omega
      have onward := Position.counted_append [b] rest offset
      rw [List.singleton_append, List.length_singleton, Nat.add_comm 1] at onward
      rw [onward, byteStarts, behind]
      by_cases isBreak : b = 10
      · subst isBreak
        have first : Position.counted [10] 1 = ⟨1, 0⟩ := by decide
        rw [if_pos rfl, lineAt, if_pos (Nat.le_add_right _ _), ih, first]
        refine Prod.ext (Nat.add_assoc _ _ _) ?_
        simp only [Nat.zero_add, Nat.add_eq_zero_iff, Nat.one_ne_zero, false_and, if_false]
        split
        · rw [Nat.add_sub_cancel]
        · rfl
      · have first : Position.counted [b] 1 = ⟨0, 1⟩ :=
          Position.counted_of_plain (by simpa using Ne.symm isBreak)
        rw [if_neg isBreak, ih, first]
        simp only [Nat.zero_add]
        split
        · rfl
        · rfl

/-- A locator tells the place that is found by counting, where the lead does not count. -/
theorem position_eq_counted (origin : Origin) (text : List Char) (offset : Nat) :
    (Locator.ofText text origin).position offset =
      ⟨origin.line + (Position.counted (encode text) offset).line,
        if (Position.counted (encode text) offset).line = 0 then
          origin.column + ((Position.counted (encode text) offset).column - origin.lead)
        else (Position.counted (encode text) offset).column⟩ := by
  have found := lineAt_byteStarts (encode text) 0 0 0 offset
  rw [Nat.zero_add, Nat.zero_add, ← lineStarts_eq] at found
  rw [Locator.position, Locator.ofText, found]
  by_cases first : (Position.counted (encode text) offset).line = 0
  · simp only [first, if_true, Position.column_counted first, Nat.sub_zero, Nat.add_zero]
  · simp only [first, if_false,
      Nat.sub_sub_self (Position.column_counted_le (encode text) offset)]

theorem counted_encode_of_plain {text : List Char} (plain : '\n' ∉ text) (offset : Nat) :
    Position.counted (encode text) offset = ⟨0, offset⟩ :=
  Position.counted_of_plain fun mem =>
    plain (lineBreak_mem_encode.mp (List.mem_of_mem_take mem))

/-- The place of an offset in a part is counted from the end of what stands before the part, and
without what stands behind it. -/
theorem counted_part (before middle after : List Char) {offset : Nat}
    (le : offset ≤ Text.bytes middle) :
    Position.counted (encode (before ++ middle ++ after)) (Text.bytes before + offset) =
      ⟨(Position.counted (encode before) (Text.bytes before)).line +
          (Position.counted (encode middle) offset).line,
        if (Position.counted (encode middle) offset).line = 0 then
          (Position.counted (encode before) (Text.bytes before)).column + offset
        else (Position.counted (encode middle) offset).column⟩ := by
  have onward := Position.counted_append (encode before) (encode middle ++ encode after) offset
  have inside : offset ≤ (encode middle).length := by rwa [length_encode]
  rw [Position.counted_append_of_le inside, length_encode] at onward
  rw [List.append_assoc, encode_append, encode_append, onward]

section Part

variable {origin : Origin} {lead : List Char} (plain : '\n' ∉ lead)
  (before middle after tail : List Char) (stop : Nat)

include plain

/-- The locator of a part tells the places that the locator of the document tells. -/
theorem position_part (whole : origin.lead = 0) {offset : Nat} (le : offset ≤ Text.bytes middle) :
    (Locator.ofText (lead ++ middle ++ tail)
        ((Origin.ofRange ((Locator.ofText (before ++ middle ++ after) origin).range
          (Text.bytes before) stop)).back (Text.bytes lead))).position
        (Text.bytes lead + offset) =
      (Locator.ofText (before ++ middle ++ after) origin).position
        (Text.bytes before + offset) := by
  have start := counted_part before middle after (Nat.zero_le _)
  have leading := counted_encode_of_plain plain (Text.bytes lead)
  rw [Position.counted_zero] at start
  simp only [Nat.add_zero, if_true] at start
  simp only [position_eq_counted, counted_part _ _ _ le, Origin.ofRange, Origin.back,
    Locator.range, start, leading, whole]
  generalize Position.counted (encode before) (Text.bytes before) = p
  generalize Position.counted (encode middle) offset = q
  rw [Position.mk.injEq]
  refine ⟨by omega, ?_⟩
  by_cases inner : q.line = 0
  · -- no line begins in the part before the offset: the column goes on from that of the part
    by_cases outer : p.line = 0
    · simp only [inner, outer, Nat.add_zero, if_true]
      omega
    · simp only [inner, outer, Nat.add_zero, if_true, if_false]
      omega
  · have later : p.line + q.line ≠ 0 := by omega
    simp only [inner, later, Nat.zero_add, if_false]

/-- The offsets in the lead collapse onto the place where the part starts. -/
theorem position_lead {offset : Nat} (le : offset ≤ Text.bytes lead) :
    (Locator.ofText (lead ++ middle ++ tail)
        ((Origin.ofRange ((Locator.ofText (before ++ middle ++ after) origin).range
          (Text.bytes before) stop)).back (Text.bytes lead))).position offset =
      (Locator.ofText (before ++ middle ++ after) origin).position (Text.bytes before) := by
  have inside : offset ≤ (encode lead).length := by rwa [length_encode]
  have nothing : offset - (0 + Text.bytes lead) = 0 := by omega
  rw [position_eq_counted, List.append_assoc lead, encode_append,
    Position.counted_append_of_le inside, counted_encode_of_plain plain]
  simp only [Origin.ofRange, Origin.back, Locator.range, if_true, Nat.add_zero, nothing]

end Part

/-- A locator tells the places that are found by counting, shifted to where the text starts, also
for offsets behind its end. The locator of a part, with a lead and a tail around it, tells the
ranges of the document for the offsets in the part, and where the part starts for those in the
lead. -/
theorem locators_compose {origin : Origin} (whole : origin.lead = 0) (text : List Char) :
    (∀ offset, (Locator.ofText text origin).position offset =
      (Position.counted (encode text) offset).shifted origin) ∧
    ∀ before middle after lead tail : List Char, text = before ++ middle ++ after →
      '\n' ∉ lead →
      let document := Locator.ofText text origin
      let start := Text.bytes before
      let part := Locator.ofText (lead ++ middle ++ tail)
        ((Origin.ofRange (document.range start (start + Text.bytes middle))).back
          (Text.bytes lead))
      (∀ x y, x ≤ y → y ≤ Text.bytes middle →
        part.range (Text.bytes lead + x) (Text.bytes lead + y) =
          document.range (start + x) (start + y)) ∧
      ∀ x y, x ≤ y → y ≤ Text.bytes lead → part.range x y = document.range start start := by
  refine ⟨fun offset => ?_, ?_⟩
  · rw [position_eq_counted, whole, Nat.sub_zero]
    rfl
  · rintro before middle after lead tail rfl plain document start part
    have absolute : ∀ x, part.absolute (Text.bytes lead + x) = document.absolute (start + x) := by
      intro x
      simp only [part, document, start, Locator.absolute, Locator.ofText, Origin.ofRange,
        Origin.back, Locator.range, whole]
      omega
    have collapsed : ∀ x ≤ Text.bytes lead, part.absolute x = document.absolute start := by
      intro x le
      simp only [part, document, start, Locator.absolute, Locator.ofText, Origin.ofRange,
        Origin.back, Locator.range, whole]
      omega
    refine ⟨fun x y le inside => ?_, fun x y le inside => ?_⟩
    · rw [Locator.range, Locator.range, absolute, absolute,
        position_part plain before middle after tail _ whole (Nat.le_trans le inside),
        position_part plain before middle after tail _ whole inside]
    · rw [Locator.range, Locator.range, collapsed x (Nat.le_trans le inside), collapsed y inside,
        position_lead plain before middle after tail _ (Nat.le_trans le inside),
        position_lead plain before middle after tail _ inside]

/-- A part that begins in the first line of its document and ends in the second one, between a lead
of two bytes and a tail; and an offset behind the end. -/
theorem locators_compose_wrapped :
    let origin : Origin := ⟨100, 10, 3, 0⟩
    let document := Locator.ofText "a:é;\nb:c".toList origin
    let part := Locator.ofText "*\x7bé;\nb\x7d".toList
      ((Origin.ofRange (document.range 2 7)).back 2)
    document.position 40 = (Position.counted (encode "a:é;\nb:c".toList) 40).shifted origin ∧
      document.position 40 = ⟨11, 34⟩ ∧
      part.range 4 7 = document.range 4 7 ∧
      document.range 4 7 = ⟨⟨104, 107⟩, ⟨10, 7⟩, ⟨11, 1⟩⟩ ∧
      part.range 0 1 = document.range 2 2 := by
  intro origin document part
  obtain ⟨counts, composes⟩ := @locators_compose origin rfl "a:é;\nb:c".toList
  obtain ⟨inside, collapsed⟩ := composes "a:".toList "é;\nb".toList ":c".toList "*\x7b".toList
    "\x7d".toList (by decide) (by decide)
  exact ⟨counts 40, by decide, inside 2 5 (by decide) (by decide), by decide,
    collapsed 0 1 (by decide) (by decide)⟩

end Mosaic
