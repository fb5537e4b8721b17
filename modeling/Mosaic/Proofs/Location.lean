import Mosaic.Proofs.Locator

/-! True places. The place right behind a text that begins a document is the number of its line
breaks, and the bytes since the last one, which is also what counting the bytes comes to; a locator
answers with true places of the document if its origin is one. -/
namespace Mosaic

open Bytewise

/-- The part of a text behind its last line break, backwards. -/
def lastLine (before : List Char) : List Char := before.reverse.takeWhile (· ≠ '\n')

/-- The position right behind the text that a document begins with. -/
def Position.behind (before : List Char) : Position :=
  ⟨before.count '\n', Text.bytes (lastLine before)⟩

/-- The range of a text that stands right behind `before`. -/
def Range.behind (before text : List Char) : Range :=
  ⟨⟨Text.bytes before, Text.bytes (before ++ text)⟩, .behind before, .behind (before ++ text)⟩

/-- The origin of a text that stands right behind `before`. -/
def Origin.behind (before : List Char) : Origin :=
  ⟨Text.bytes before, (Position.behind before).line, (Position.behind before).column, 0⟩

theorem Origin.ofRange_behind (before text : List Char) :
    Origin.ofRange (.behind before text) = .behind before := rfl

theorem bytes_reverse (s : List Char) : Text.bytes s.reverse = Text.bytes s := by
  induction s with
  | nil => rfl
  | cons c rest ih =>
    rw [List.reverse_cons, Text.bytes_append, ih, Text.bytes_cons, Text.bytes_nil, Nat.add_zero,
      Nat.add_comm, Text.bytes_cons]

theorem lastLine_append_of_not_mem {text : List Char} (before : List Char) (h : '\n' ∉ text) :
    lastLine (before ++ text) = text.reverse ++ lastLine before :=
  Text.takeWhile_reverse_append_of_not_mem before h

theorem lastLine_append_of_mem {text : List Char} (before : List Char) (h : '\n' ∈ text) :
    lastLine (before ++ text) = lastLine text :=
  Text.takeWhile_reverse_append_of_mem before h

theorem lastLine_of_not_mem {text : List Char} (h : '\n' ∉ text) :
    lastLine text = text.reverse := by
  have whole := lastLine_append_of_not_mem [] h
  simpa only [lastLine, List.nil_append, List.reverse_nil, List.takeWhile_nil, List.append_nil]
    using whole

theorem Position.behind_append (front back : List Char) :
    behind (front ++ back) =
      ⟨(behind front).line + (behind back).line,
        if (behind back).line = 0 then (behind front).column + Text.bytes back
        else (behind back).column⟩ := by
  simp only [behind, List.count_append, List.count_eq_zero]
  split
  · next plain =>
    rw [lastLine_append_of_not_mem _ plain, Text.bytes_append, bytes_reverse,
      Nat.add_comm (Text.bytes back)]
  · next broken => rw [lastLine_append_of_mem _ (Classical.not_not.mp broken)]

theorem counted_encodeChar (c : Char) :
    Position.counted (String.utf8EncodeChar c) c.utf8Size = .behind [c] := by
  by_cases isBreak : c = '\n'
  · subst isBreak
    decide
  · have plain : '\n' ∉ [c] := fun mem => isBreak (List.mem_singleton.mp mem).symm
    have place := counted_encode_of_plain plain c.utf8Size
    rw [encode, List.flatMap_singleton] at place
    rw [place, Position.behind, List.count_eq_zero.mpr plain, lastLine_of_not_mem plain]
    rfl

/-- Counting the bytes of a text comes to the place right behind it. -/
theorem counted_encode (text : List Char) :
    Position.counted (encode text) (Text.bytes text) = .behind text := by
  induction text with
  | nil => rfl
  | cons c rest ih =>
    have onward := Position.counted_append (String.utf8EncodeChar c) (encode rest) (Text.bytes rest)
    rw [String.length_utf8EncodeChar, counted_encodeChar, ih, ← Position.behind_append] at onward
    rw [encode_cons, Text.bytes_cons, onward]
    rfl

/-- The position of the character behind `before` in a text that starts anywhere. -/
theorem position_ofText (origin : Origin) (before after : List Char) :
    (Locator.ofText (before ++ after) origin).position (Text.bytes before) =
      ⟨origin.line + before.count '\n',
        if '\n' ∈ before then Text.bytes (lastLine before)
        else origin.column + (Text.bytes before - origin.lead)⟩ := by
  have inside : Text.bytes before ≤ (encode before).length :=
    Nat.le_of_eq (length_encode before).symm
  rw [position_eq_counted, encode_append, Position.counted_append_of_le inside, counted_encode]
  by_cases broken : '\n' ∈ before
  · have some : before.count '\n' ≠ 0 := fun none => List.count_eq_zero.mp none broken
    rw [Position.behind, if_neg some, if_pos broken]
  · rw [Position.behind, List.count_eq_zero.mpr broken, if_pos rfl, if_neg broken,
      lastLine_of_not_mem broken, bytes_reverse]

/-- A locator tells the true place of every character, if its origin is the true place of the
first character that is not glued in front of the text. -/
theorem position_behind {lead : List Char} (plain : '\n' ∉ lead) (front before after : List Char) :
    (Locator.ofText (lead ++ (before ++ after))
        ((Origin.behind front).back (Text.bytes lead))).position
      (Text.bytes lead + Text.bytes before) = .behind (front ++ before) := by
  have found := position_ofText ((Origin.behind front).back (Text.bytes lead)) (lead ++ before)
    after
  rw [List.append_assoc, Text.bytes_append] at found
  rw [found]
  simp only [List.count_append, List.count_eq_zero.mpr plain, Nat.zero_add, List.mem_append, plain,
    false_or]
  by_cases broken : '\n' ∈ before
  · rw [if_pos broken, lastLine_append_of_mem _ broken]
    simp only [Position.behind, Origin.behind, Origin.back, List.count_append,
      lastLine_append_of_mem _ broken]
  · rw [if_neg broken]
    simp only [Position.behind, Origin.behind, Origin.back, List.count_append,
      lastLine_append_of_not_mem _ broken, Text.bytes_append, bytes_reverse, Position.mk.injEq,
      true_and]
    omega

theorem eq_nil_of_position {origin : Origin} {before more after : List Char}
    (whole : origin.lead = 0)
    (h : (Locator.ofText (before ++ more ++ after) origin).position (Text.bytes (before ++ more)) =
      (Locator.ofText (before ++ more ++ after) origin).position (Text.bytes before)) :
    more = [] := by
  have place := position_ofText origin (before ++ more) after
  have front := position_ofText origin before (more ++ after)
  rw [← List.append_assoc] at front
  rw [place, front, whole, Position.mk.injEq, List.count_append] at h
  obtain ⟨line, column⟩ := h
  have plain : '\n' ∉ more := List.count_eq_zero.mp (by omega)
  refine Classical.byContradiction fun some => ?_
  have pos := Text.bytes_pos some
  by_cases broken : '\n' ∈ before
  · rw [if_pos broken, if_pos (List.mem_append_left more broken),
      lastLine_append_of_not_mem _ plain, Text.bytes_append, bytes_reverse] at column
    omega
  · have free : '\n' ∉ before ++ more := fun mem =>
      (List.mem_append.mp mem).elim broken plain
    rw [if_neg broken, if_neg free, Text.bytes_append] at column
    omega

/-- A text that starts with its first character has each of its positions only once. -/
theorem position_inj {origin : Origin} {text before after other behind : List Char}
    (whole : origin.lead = 0) (split : text = before ++ after) (parts : text = other ++ behind)
    (h : (Locator.ofText text origin).position (Text.bytes before) =
      (Locator.ofText text origin).position (Text.bytes other)) : before = other := by
  have front : before <+: text := ⟨after, split.symm⟩
  rcases List.prefix_or_prefix_of_prefix front ⟨behind, parts.symm⟩ with
    ⟨more, rfl⟩ | ⟨more, rfl⟩
  · subst parts
    rw [eq_nil_of_position whole h.symm, List.append_nil]
  · subst split
    rw [eq_nil_of_position whole h, List.append_nil]

/-- What a locator says of the parts of a text: the ranges that they have in a document which
begins with `front` and the text, but for the first `lead` bytes of it. -/
def Locator.Places (locator : Locator) (lead : Nat) (front text : List Char) : Prop :=
  ∀ before middle after, text = before ++ middle ++ after →
    locator.range (lead + Text.bytes before) (lead + Text.bytes before + Text.bytes middle) =
      .behind (front ++ before) middle

theorem places_ofText {lead : List Char} (plain : '\n' ∉ lead) (front text after : List Char) :
    (Locator.ofText (lead ++ (text ++ after))
      ((Origin.behind front).back (Text.bytes lead))).Places (Text.bytes lead) front text := by
  rintro before middle rest rfl
  have start := position_behind plain front before (middle ++ rest ++ after)
  have stop := position_behind plain front (before ++ middle) (rest ++ after)
  simp only [Text.bytes_append, List.append_assoc, ← Nat.add_assoc] at start stop ⊢
  unfold Locator.range Range.behind
  rw [start, stop]
  simp only [Locator.absolute, Locator.ofText, Origin.behind, Origin.back, Text.bytes_append,
    List.append_assoc, Range.mk.injEq, Span.mk.injEq, and_true]
  omega

/-- The range is the true place of a text in a document. -/
def Covers (document : List Char) (range : Range) (text : List Char) : Prop :=
  ∃ before after, document = before ++ text ++ after ∧ range = .behind before text

/-- The locator knows the places of the part of a document that stands behind `front`. Its bytes
count from `lead` on. -/
structure Locator.Locates (locator : Locator) (lead : Nat) (document front text : List Char) :
    Prop where
  part : ∃ after, document = front ++ text ++ after
  places : locator.Places lead front text

namespace Locator.Locates

variable {locator : Locator} {lead : Nat} {document front text : List Char}

theorem range (h : locator.Locates lead document front text) :
    locator.range lead (lead + Text.bytes text) = .behind front text := by
  have whole := h.places [] text [] (by rw [List.nil_append, List.append_nil])
  rwa [Text.bytes_nil, Nat.add_zero, List.append_nil] at whole

theorem covers (h : locator.Locates lead document front text) :
    Covers document (locator.range lead (lead + Text.bytes text)) text := by
  obtain ⟨after, hafter⟩ := h.part
  exact ⟨front, after, hafter, h.range⟩

theorem narrow (h : locator.Locates lead document front text) {before middle after : List Char}
    (split : text = before ++ middle ++ after) :
    locator.Locates (lead + Text.bytes before) document (front ++ before) middle := by
  subst split
  obtain ⟨behind, hbehind⟩ := h.part
  refine ⟨⟨after ++ behind, ?_⟩, ?_⟩
  · rw [hbehind]
    simp only [List.append_assoc]
  · rintro inFront text rest rfl
    have found := h.places (before ++ inFront) text (rest ++ after)
      (by simp only [List.append_assoc])
    rw [Text.bytes_append, ← Nat.add_assoc] at found
    rw [found, List.append_assoc]

theorem head {first rest : List Char}
    (h : locator.Locates lead document front (first ++ rest)) :
    locator.Locates lead document front first := by
  have part : locator.Locates (lead + Text.bytes []) document (front ++ []) first := h.narrow rfl
  rwa [Text.bytes_nil, Nat.add_zero, List.append_nil] at part

theorem tail {first rest : List Char}
    (h : locator.Locates lead document front (first ++ rest)) :
    locator.Locates (lead + Text.bytes first) document (front ++ first) rest :=
  h.narrow (List.append_nil _).symm

end Locator.Locates

theorem locates_ofText (lead : List Char) (plain : '\n' ∉ lead)
    {document front text after : List Char} (tail : List Char)
    (h : document = front ++ text ++ after) :
    (Locator.ofText (lead ++ (text ++ tail))
      ((Origin.behind front).back (Text.bytes lead))).Locates (Text.bytes lead) document front
      text :=
  ⟨⟨after, h⟩, places_ofText plain front text tail⟩

/-- A text that is read on its own is located through the place where it stands. -/
theorem locates_text {document front text after : List Char}
    (h : document = front ++ text ++ after) :
    (Locator.ofText text (.behind front)).Locates 0 document front text := by
  have located := locates_ofText [] (fun mem => nomatch mem) [] h
  rwa [List.nil_append, List.append_nil] at located

end Mosaic
