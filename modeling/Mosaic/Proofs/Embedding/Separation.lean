import Mosaic.Proofs.Embedding.Inline
import Mosaic.Proofs.Style.Ends

/-! What is kept of an inline style. A value is read unless a left delimiter reaches from the
wrapper into it, and then its declarations are kept if no template region takes a character of the
wrapper in. They are the tokens between those of the wrapper, and they are written as the value,
whatever stands in it. -/
namespace Mosaic.Embedding

open Outcome

/-- A left delimiter begins in the two characters in front of a wrapped value and ends behind
them. -/
def Straddles (left : List Char) (value : String) : Prop :=
  ∃ before behind, (wrap value).toList = before ++ left ++ behind ∧
    Text.bytes before < 2 ∧ 2 < Text.bytes (before ++ left)

/-- A template region stands over the star, the left brace or the right brace of a wrapped value
that tokens were read from. -/
def CoversWrapper (value : String) (tokens : List Token) : Prop :=
  ∃ before region after, tokens = before ++ region :: after ∧ region.kind = .template ∧
    ∃ byte ∈ [0, 1, 2 + Text.bytes value.toList],
      Text.bytes (Token.concat before).toList ≤ byte ∧
        byte < Text.bytes (Token.concat (before ++ [region])).toList

/-- Of two texts at the same place the one with more characters has more bytes. -/
theorem bytes_lt_iff {front left rest : List Char} (h : left <+: front ++ rest) :
    Text.bytes front < Text.bytes left ↔ front.length < left.length := by
  rcases Nat.lt_or_ge front.length left.length with long | short
  · obtain ⟨more, rfl⟩ := List.prefix_of_prefix_length_le (List.prefix_append front rest) h
      (Nat.le_of_lt long)
    have some : more ≠ [] := by
      rintro rfl
      rw [List.append_nil] at long
      exact Nat.lt_irrefl _ long
    have pos := Text.bytes_pos some
    rw [Text.bytes_append]
    exact ⟨fun _ => long, fun _ => Nat.lt_add_of_pos_right pos⟩
  · obtain ⟨more, rfl⟩ := List.prefix_of_prefix_length_le h (List.prefix_append front rest) short
    rw [Text.bytes_append]
    exact ⟨fun less => absurd less (Nat.not_lt.mpr (Nat.le_add_right _ _)),
      fun less => absurd less (Nat.not_lt.mpr short)⟩

theorem crossesWrapper_iff {left : List Char} {value : String} :
    crossesWrapper left (wrap value).toList = true ↔ Straddles left value := by
  rw [Straddles, toList_wrap]
  simp only [crossesWrapper, Bool.or_eq_true, Bool.and_eq_true, decide_eq_true_eq,
    List.isPrefixOf_iff_prefix]
  constructor
  · rintro (⟨starts, long⟩ | ⟨starts, long⟩)
    · have last : Text.bytes ['*', '\x7b'] < Text.bytes left := (bytes_lt_iff starts).mpr long
      obtain ⟨behind, whole⟩ := starts
      exact ⟨[], behind, whole.symm, Nat.zero_lt_two, last⟩
    · have last : Text.bytes ['\x7b'] < Text.bytes left := (bytes_lt_iff starts).mpr long
      obtain ⟨behind, whole⟩ := starts
      exact ⟨['*'], behind, congrArg ('*' :: ·) whole.symm, Nat.one_lt_two,
        Nat.add_lt_add_left last 1⟩
  · rintro ⟨before, behind, whole, first, last⟩
    match before with
    | [] =>
      have starts : left <+: ['*', '\x7b'] ++ (value.toList ++ ['\x7d']) := ⟨behind, whole.symm⟩
      exact .inl ⟨starts, (bytes_lt_iff starts).mp last⟩
    | [star] =>
      obtain ⟨rfl, rest⟩ := List.cons.inj whole
      have starts : left <+: ['\x7b'] ++ (value.toList ++ ['\x7d']) := ⟨behind, rest.symm⟩
      exact .inr ⟨starts, (bytes_lt_iff starts).mp (Nat.lt_of_add_lt_add_left (n := 1) last)⟩
    | a :: b :: more =>
      have one := a.utf8Size_pos
      have other := b.utf8Size_pos
      simp only [Text.bytes_cons] at first
      omega

variable {locator : Locator} {value : String}

theorem place_append (locator : Locator) (offset : Nat) (front back : List Style.Piece) :
    Style.place locator offset (front ++ back) = Style.place locator offset front ++
      Style.place locator (offset + Text.bytes (front.flatMap Style.Piece.text)) back := by
  induction front generalizing offset with
  | nil => rfl
  | cons piece rest ih =>
    simp only [List.cons_append, Style.place, ih, List.flatMap_cons, Text.bytes_append,
      Nat.add_assoc]

theorem covers_of_place (before after : List Style.Piece) {text : List Char} {byte : Nat}
    (glue : byte ∈ [0, 1, 2 + Text.bytes value.toList])
    (start : Text.bytes (before.flatMap Style.Piece.text) ≤ byte)
    (stop : byte < Text.bytes (before.flatMap Style.Piece.text) + Text.bytes text) :
    CoversWrapper value (Style.place locator 0 (before ++ ⟨.template, text⟩ :: after)) := by
  rw [place_append, Style.place]
  refine ⟨_, _, _, rfl, rfl, byte, glue, ?_, ?_⟩
  · rw [Style.concat_place]
    exact start
  · rw [Style.toList_concat, List.flatMap_append, ← Style.toList_concat, Style.concat_place,
      Text.bytes_append, List.flatMap_singleton, Token.plain, String.toList_ofList]
    exact stop

/-- The tokens of a wrapped value are those that are kept and those of the wrapper around them. -/
structure Parted (tokens kept : List Token) (star opening closing : Token) : Prop where
  split : tokens = [star, opening] ++ kept ++ [closing]
  starKind : star.kind = .selector
  starText : star.value = "*"
  openingKind : opening.kind = .leftBrace
  openingText : opening.value = "\x7b"
  closingKind : closing.kind = .rightBrace
  closingText : closing.value = "\x7d"

variable {tokens kept : List Token} {star opening closing : Token}

theorem Parted.trimWrapper_eq (h : Parted tokens kept star opening closing) :
    trimWrapper tokens = kept := by
  rcases h with ⟨rfl, starKind, starText, openingKind, -, closingKind, -⟩
  have first : ([star, opening] ++ kept ++ [closing]).findIdx? (·.kind == .leftBrace) = some 1 := by
    simp [List.findIdx?_cons, starKind, openingKind]
  have last : lastIndex? (·.kind == .rightBrace) ([star, opening] ++ kept ++ [closing]) =
      some (kept.length + 2) := by
    simp [lastIndex?, List.findIdx?_cons, closingKind]
  have head : (([star, opening] ++ kept ++ [closing]).take 1).all isWrapperHead = true := by
    simp [isWrapperHead, starKind, starText]
  rw [trimWrapper, first, last]
  dsimp only
  rw [if_pos ⟨by omega, head⟩]
  simp [slice]

theorem Parted.not_covers (h : Parted tokens kept star opening closing)
    (text : Token.concat kept = value) : ¬ CoversWrapper value tokens := by
  rintro ⟨before, region, after, whole, template, byte, glue, start, stop⟩
  rw [h.split] at whole
  match before with
  | [] =>
    obtain ⟨rfl, -⟩ := List.cons.inj whole
    exact nomatch h.starKind.symm.trans template
  | [_] =>
    obtain ⟨-, rest⟩ := List.cons.inj whole
    obtain ⟨rfl, -⟩ := List.cons.inj rest
    exact nomatch h.openingKind.symm.trans template
  | _ :: _ :: before =>
    obtain ⟨rfl, inner⟩ := List.cons.inj whole
    obtain ⟨rfl, inmost⟩ := List.cons.inj inner
    have rest : kept ++ [closing] = before ++ region :: after := inmost
    have behind (more : List Token) : Text.bytes (Token.concat (star :: opening :: more)).toList =
        2 + Text.bytes (Token.concat more).toList := by
      simp only [Style.toList_concat, List.flatMap_cons, Text.bytes_append, h.starText,
        h.openingText]
      exact (Nat.add_assoc 1 1 _).symm
    rw [behind] at start
    rw [List.cons_append, List.cons_append, behind] at stop
    have byteEq : byte = 2 + Text.bytes value.toList := by
      simp only [List.mem_cons, List.not_mem_nil, or_false] at glue
      omega
    rcases List.eq_nil_or_concat after with rfl | ⟨others, last, rfl⟩
    · obtain ⟨-, rfl⟩ := List.append_singleton_inj.mp rest
      exact nomatch h.closingKind.symm.trans template
    · rw [List.concat_eq_append, ← List.cons_append, ← List.append_assoc] at rest
      obtain ⟨rfl, -⟩ := List.append_singleton_inj.mp rest
      rw [byteEq, ← text, List.append_cons, Style.toList_concat, Style.toList_concat,
        List.flatMap_append, Text.bytes_append] at stop
      omega

variable {adapters : Template.Adapters} {config : Config} {region : Region}

/-- Where no left delimiter straddles, what is read of a value depends on the tokens of the wrapped
value alone. -/
theorem declarations?_of_not_straddles (adapters : Template.Adapters)
    (clear : ¬ Straddles config.template.left.toList region.text) :
    declarations? (.withAdapters adapters) config region =
      (Style.tokenize (adapters.scanner config.template) (region.origin.back 2)
        (wrap region.text)).map fun tokens =>
          if Style.stringify (trimWrapper tokens) = region.text then some (trimWrapper tokens)
          else none := by
  rw [← crossesWrapper_iff] at clear
  rw [declarations?, if_neg clear]
  dsimp only [Backends.withAdapters, StyleBackend.builtin]
  cases Style.tokenize (adapters.scanner config.template) (region.origin.back 2)
    (wrap region.text) <;> rfl

/-- Where something is kept, the three pieces of the wrapper are too short for template regions. -/
theorem short_of_kept {found : List Style.Piece} {kept : List Token} (nonempty : region.text ≠ "")
    (read : Style.read (adapters.scanner config.template) (wrap region.text).toList = .ok found)
    (h : declarations? (.withAdapters adapters) config region = .ok (some kept)) :
    ∃ star opening closing : Style.Piece, ∃ middle,
      found = star :: opening :: (middle ++ [closing]) ∧ star.text.length = 1 ∧
        opening.text.length = 1 ∧ closing.text.length = 1 := by
  obtain ⟨star, opening, closing, middle, reads, starText, openingText, closingText, -⟩ :=
    kept_between nonempty h
  refine ⟨star, opening, closing, middle, Except.ok.inj (read.symm.trans reads), ?_⟩
  rw [starText, openingText, closingText]
  exact ⟨rfl, rfl, rfl⟩

/-- A value is parted from its wrapper, or a template region covers a part of the wrapper, and then
nothing is kept. -/
theorem parted_or_covers {found : List Style.Piece} (nonempty : region.text ≠ "")
    (read : Style.read (adapters.scanner config.template) (wrap region.text).toList = .ok found) :
    (∃ kept star opening closing, Parted (Style.place (wrapLocator region) 0 found) kept star
        opening closing ∧ Token.concat kept = region.text) ∨
      CoversWrapper region.text (Style.place (wrapLocator region) 0 found) ∧
        ∀ kept, declarations? (.withAdapters adapters) config region ≠ .ok (some kept) := by
  have covers := Style.read_text read
  have shape := read
  have some : ∀ {text : List Char}, 2 ≤ text.length → 0 < Text.bytes text := fun long =>
    Text.bytes_pos (List.length_pos_iff.mp (Nat.lt_of_succ_lt long))
  rw [toList_wrap] at shape covers
  cases Style.read_wrapped shape with
  | apart middle =>
    left
    have value : middle.flatMap Style.Piece.text = region.text.toList := by
      simpa using covers
    have parts : (⟨.selector, ['*']⟩ :: ⟨.leftBrace, ['\x7b']⟩ ::
        (middle ++ [⟨.rightBrace, ['\x7d']⟩]) : List Style.Piece) =
          [⟨.selector, ['*']⟩, ⟨.leftBrace, ['\x7b']⟩] ++ middle ++
            [⟨.rightBrace, ['\x7d']⟩] := rfl
    rw [parts, place_append, place_append]
    refine ⟨_, _, _, _, ⟨rfl, rfl, rfl, rfl, rfl, rfl, rfl⟩, ?_⟩
    rw [← String.toList_inj, Style.concat_place, value]
  | @overStar text rest long =>
    refine .inr ⟨covers_of_place [] rest List.mem_cons_self (Nat.le_refl 0) ?_, ?_⟩
    · have pos := some long
      simpa using pos
    · intro kept same
      obtain ⟨star, opening, closing, middle, split, one, -⟩ := short_of_kept nonempty read same
      cases split
      exact absurd one (Nat.ne_of_gt long)
  | @overBrace text rest long =>
    refine .inr ⟨covers_of_place [⟨.selector, ['*']⟩] rest
      (List.mem_cons_of_mem _ List.mem_cons_self) (Nat.le_refl 1) ?_, ?_⟩
    · exact Nat.lt_add_of_pos_right (some long)
    · intro kept same
      obtain ⟨star, opening, closing, middle, split, -, one, -⟩ := short_of_kept nonempty read same
      cases split
      exact absurd one (Nat.ne_of_gt long)
  | @overEnd text front long =>
    have total : Text.bytes (front.flatMap Style.Piece.text) + Text.bytes text =
        2 + (Text.bytes region.text.toList + 1) := by
      have size := congrArg Text.bytes covers
      rw [List.flatMap_append, List.flatMap_singleton, Text.bytes_append, Text.bytes_append,
        Text.bytes_append] at size
      exact size
    have pos := some long
    refine .inr ⟨covers_of_place front [] (List.mem_cons_of_mem _ (List.mem_cons_of_mem _
      List.mem_cons_self)) (by omega) (by omega), ?_⟩
    intro kept same
    obtain ⟨star, opening, closing, middle, split, -, -, one⟩ := short_of_kept nonempty read same
    have ends : front ++ [⟨.template, text⟩] = (star :: opening :: middle) ++ [closing] := split
    obtain ⟨-, rfl⟩ := List.append_singleton_inj.mp ends
    exact absurd one (Nat.ne_of_gt long)

/-- A value is left as it is if a left delimiter straddles. Else it cannot be read where the
wrapped value cannot be, and what is read of it is kept if and only if no template region covers a
part of the wrapper; then the tokens that are kept are written as the value, and they are those of
the wrapped value but for the star and the two braces. -/
theorem keeps_value (adapters : Template.Adapters) (config : Config) (region : Region)
    (nonempty : region.text ≠ "") :
    (Straddles config.template.left.toList region.text →
      declarations? (.withAdapters adapters) config region = .ok none) ∧
    (¬ Straddles config.template.left.toList region.text →
      (∀ error, declarations? (.withAdapters adapters) config region = .error error ↔
        Style.tokenize (adapters.scanner config.template) (region.origin.back 2)
          (wrap region.text) = .error error) ∧
      ∀ tokens, Style.tokenize (adapters.scanner config.template) (region.origin.back 2)
          (wrap region.text) = .ok tokens →
        ((∃ kept, declarations? (.withAdapters adapters) config region = .ok (some kept)) ↔
          ¬ CoversWrapper region.text tokens) ∧
        ∀ kept, declarations? (.withAdapters adapters) config region = .ok (some kept) →
          Token.concat kept = region.text ∧
            ∃ star opening closing, Parted tokens kept star opening closing) := by
  constructor
  · intro straddles
    rw [declarations?, if_pos (crossesWrapper_iff.mpr straddles)]
  · intro clear
    have made := declarations?_of_not_straddles adapters clear
    constructor
    · intro error
      rw [made, map_eq_error]
    · intro tokens tokenized
      obtain ⟨found, read, rfl⟩ := Style.tokenize_eq_ok tokenized
      rcases parted_or_covers nonempty read with
        ⟨kept, star, opening, closing, parted, text⟩ | ⟨covers, none⟩
      · have keeps : declarations? (.withAdapters adapters) config region = .ok (some kept) := by
          have trimmed := parted.trimWrapper_eq
          rw [wrapLocator] at trimmed
          rw [made, tokenized, Except.map, trimmed]
          exact congrArg Except.ok (if_pos text)
        refine ⟨⟨fun _ => parted.not_covers text, fun _ => ⟨kept, keeps⟩⟩, ?_⟩
        intro other same
        cases keeps.symm.trans same
        exact ⟨text, star, opening, closing, parted⟩
      · refine ⟨⟨fun ⟨kept, keeps⟩ => absurd keeps (none kept), fun free => absurd covers free⟩, ?_⟩
        intro kept keeps
        exact absurd keeps (none kept)

/-- A value that closes the block of its wrapper and opens another one, with a template region in a
string. -/
def unruly : Region :=
  ⟨.inlineStyle, "a:b\x7d/*\x7d*/p\x7bc:'\x7b%\x7d%\x7d\x7d'", ⟨9, 0, 9, 0⟩, none⟩

/-- A value that goes on with a left delimiter which its wrapper begins. -/
def straddling : Region := ⟨.inlineStyle, "%x%\x7d", ⟨9, 0, 9, 0⟩, none⟩

theorem keeps_value_unruly :
    (∃ kept tokens star opening closing,
      declarations? .builtin .standard unruly = .ok (some kept) ∧ Token.concat kept = unruly.text ∧
      Style.tokenize (Template.Adapters.empty.scanner .standard) (unruly.origin.back 2)
        (wrap unruly.text) = .ok tokens ∧ Parted tokens kept star opening closing) ∧
      declarations? .builtin .standard straddling = .ok none := by
  have keeps : (declarations? .builtin .standard unruly).toOption.join.isSome := by
    decide +kernel
  have read : (Style.tokenize (Template.Adapters.empty.scanner .standard) (unruly.origin.back 2)
      (wrap unruly.text)).toBool := by
    decide +kernel
  have clear : ¬ Straddles Template.standard.left.toList unruly.text := by
    rw [← crossesWrapper_iff]
    decide +kernel
  have straddles : Straddles Template.standard.left.toList straddling.text := by
    rw [← crossesWrapper_iff]
    decide +kernel
  obtain ⟨tokens, tokenized⟩ := exists_of_toBool read
  obtain ⟨-, split⟩ := (keeps_value .empty .standard unruly (by decide)).2 clear
  obtain ⟨-, whole⟩ := split tokens tokenized
  refine ⟨?_, (keeps_value .empty .standard straddling (by decide)).1 straddles⟩
  cases made : declarations? .builtin .standard unruly with
  | error =>
    rw [made] at keeps
    cases keeps
  | ok slot =>
    cases slot with
    | none =>
      rw [made] at keeps
      cases keeps
    | some kept =>
      obtain ⟨text, star, opening, closing, parted⟩ := whole kept made
      exact ⟨kept, tokens, star, opening, closing, rfl, text, tokenized, parted⟩

end Mosaic.Embedding
