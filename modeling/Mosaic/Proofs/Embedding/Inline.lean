import Mosaic.Embedding.Inline
import Mosaic.Proofs.Outcome
import Mosaic.Proofs.Style.Piece

/-! What is kept of an inline style stands exactly over its value. The two characters in front of
the value and the one behind it are left for the tokens that are taken off, and there are tokens
taken off on both sides. -/
namespace Mosaic.Embedding

open Outcome

/-- The inline style of a start tag: the value of its first style attribute, if that has one and it
is not empty. -/
inductive InlineStyle (start : Token) : Region → Prop
  | of {tag : Tag} {attr : Attr} {value : String} : start.detail = some tag →
    tag.attr? "style" = some attr → attr.value = some value → value ≠ "" →
    InlineStyle start ⟨.inlineStyle, value, (attr.valueRange.map .ofRange).getD .zero, none⟩

theorem inlineStyle?_eq_some {start : Token} {region : Region} :
    inlineStyle? start = some region ↔ InlineStyle start region := by
  unfold inlineStyle?
  constructor
  · intro h
    split at h
    · cases h
    · next attr found =>
      obtain ⟨tag, detail, named⟩ := Option.bind_eq_some_iff.mp found
      split at h
      · cases h
      · next value valued =>
        simp only at h
        split at h
        · cases h
        · next nonempty =>
          cases h
          have made := InlineStyle.of detail named valued (by simpa using nonempty)
          cases hrange : attr.valueRange <;> rwa [hrange] at made
  · rintro ⟨detail, named, valued, nonempty⟩
    rename_i tag attr value
    have filled : ¬ value.isEmpty = true := by simpa using nonempty
    rw [detail, Option.bind_some, named]
    dsimp only
    rw [valued]
    dsimp only
    rw [if_neg filled]
    cases attr.valueRange <;> rfl

theorem inlineStyle?_attr {start : Token} {region : Region}
    (h : inlineStyle? start = some region) :
    ∃ tag attr, start.detail = some tag ∧ tag.attr? "style" = some attr ∧
      attr.value = some region.text ∧ region.text ≠ "" ∧
      region.origin = match attr.valueRange with
        | some range => .ofRange range
        | none => .zero := by
  cases inlineStyle?_eq_some.mp h with
  | @of tag attr value detail named valued nonempty =>
    refine ⟨tag, attr, detail, named, valued, nonempty, ?_⟩
    cases attr.valueRange <;> rfl

theorem inlineStyle?_kind {start : Token} {region : Region}
    (h : inlineStyle? start = some region) : region.kind = .inlineStyle := by
  cases inlineStyle?_eq_some.mp h
  rfl

/-- The locator of a wrapped inline style. -/
def wrapLocator (region : Region) : Locator :=
  .ofText (wrap region.text).toList (region.origin.back 2)

theorem declarations?_eq_ok {adapters : Template.Adapters} {config : Config} {region : Region}
    {kept : List Token}
    (h : declarations? (.withAdapters adapters) config region = .ok (some kept)) :
    ∃ found, Style.read (adapters.scanner config.template) (wrap region.text).toList = .ok found ∧
      kept = trimWrapper (Style.place (wrapLocator region) 0 found) ∧
      Style.stringify kept = region.text := by
  unfold declarations? at h
  simp only at h
  split at h
  · cases h
  · obtain ⟨tokens, htokens, h⟩ := bind_eq_ok.mp h
    obtain ⟨written, hwritten, h⟩ := bind_eq_ok.mp h
    cases hwritten
    split at h
    · next same =>
      cases h
      obtain ⟨found, hfound, rfl⟩ := Style.tokenize_eq_ok htokens
      exact ⟨found, hfound, rfl, same⟩
    · cases h

theorem take_place (locator : Locator) (offset n : Nat) (found : List Style.Piece) :
    (Style.place locator offset found).take n = Style.place locator offset (found.take n) := by
  induction found generalizing offset n with
  | nil => simp only [Style.place, List.take_nil]
  | cons piece rest ih =>
    cases n with
    | zero => rfl
    | succ n => simp only [Style.place, List.take_succ_cons, ih]

theorem drop_place (locator : Locator) (offset n : Nat) (found : List Style.Piece) :
    (Style.place locator offset found).drop n =
      Style.place locator (offset + Text.bytes ((found.take n).flatMap Style.Piece.text))
        (found.drop n) := by
  induction found generalizing offset n with
  | nil => simp only [Style.place, List.drop_nil]
  | cons piece rest ih =>
    cases n with
    | zero => rfl
    | succ n =>
      simp only [Style.place, List.drop_succ_cons, ih, List.take_succ_cons, List.flatMap_cons,
        Text.bytes_append, Nat.add_assoc]

theorem length_place (locator : Locator) (offset : Nat) (found : List Style.Piece) :
    (Style.place locator offset found).length = found.length := by
  induction found generalizing offset with
  | nil => rfl
  | cons piece rest ih => simp only [Style.place, List.length_cons, ih]

theorem lastIndex?_lt {p : Token → Bool} {tokens : List Token} {i : Nat}
    (h : lastIndex? p tokens = some i) : i < tokens.length := by
  obtain ⟨j, hj, rfl⟩ := Option.map_eq_some_iff.mp h
  obtain ⟨lt, -⟩ := List.findIdx?_eq_some_iff_getElem.mp hj
  rw [List.length_reverse] at lt
  omega

/-- At least one token is taken off behind the value, and in front of it two, or a left brace. -/
theorem trimWrapper_slice (tokens : List Token) :
    trimWrapper tokens = [] ∨ ∃ start stop, trimWrapper tokens = slice tokens start stop ∧
      stop < tokens.length ∧
      (2 ≤ start ∨ start = 1 ∧ ∃ first, tokens[0]? = some first ∧ first.kind = .leftBrace) := by
  have byPosition : trimByPosition tokens = [] ∨ ∃ start stop,
      trimByPosition tokens = slice tokens start stop ∧ stop < tokens.length ∧
      (2 ≤ start ∨ start = 1 ∧ ∃ first, tokens[0]? = some first ∧ first.kind = .leftBrace) := by
    unfold trimByPosition
    split
    · next long => exact .inr ⟨2, tokens.length - 1, rfl, by omega, .inl (Nat.le_refl 2)⟩
    · exact .inl rfl
  unfold trimWrapper
  split
  · next first last hfirst hlast =>
    split
    · refine .inr ⟨first + 1, last, rfl, lastIndex?_lt hlast, ?_⟩
      obtain ⟨lt, brace, -⟩ := List.findIdx?_eq_some_iff_getElem.mp hfirst
      rcases Nat.eq_zero_or_pos first with rfl | pos
      · exact .inr ⟨rfl, tokens[0], List.getElem?_eq_getElem lt, eq_of_beq brace⟩
      · exact .inl (Nat.succ_le_succ pos)
    · exact byPosition
  · exact byPosition

theorem length_le_flatMap (found : List Style.Piece)
    (spelled : ∀ piece ∈ found, piece.Spelled) :
    found.length ≤ (found.flatMap Style.Piece.text).length := by
  induction found with
  | nil => exact Nat.le_refl 0
  | cons piece rest ih =>
    obtain ⟨self, others⟩ := List.forall_mem_cons.mp spelled
    have one := List.length_pos_iff.mpr self.nonempty
    have more := ih others
    simp only [List.length_cons, List.flatMap_cons, List.length_append]
    omega

theorem toList_wrap (value : String) :
    (wrap value).toList = ['*', '\x7b'] ++ (value.toList ++ ['\x7d']) := by
  simp only [wrap, String.toList_append, List.append_assoc]
  rfl

/-- Three texts that make up the wrapped value, the second of which is the value: if the first is
too long for the star alone and the last is not empty, they are the wrapper. -/
theorem eq_wrapper {front value back : List Char}
    (h : front ++ (value ++ back) = ['*', '\x7b'] ++ (value ++ ['\x7d']))
    (frontLong : 2 ≤ front.length) (backLong : 1 ≤ back.length) : front = ['*', '\x7b'] := by
  have len := congrArg List.length h
  simp only [List.length_append, List.length_cons, List.length_nil] at len
  have same : front.length = ['*', '\x7b'].length := by
    simp only [List.length_cons, List.length_nil]
    omega
  exact List.append_inj_left h same

theorem head_not_leftBrace {locator : Locator} {found : List Style.Piece} {value : String}
    {first : Token} (spelled : ∀ piece ∈ found, piece.Spelled)
    (covers : found.flatMap Style.Piece.text = (wrap value).toList)
    (h : (Style.place locator 0 found)[0]? = some first) : first.kind ≠ .leftBrace := by
  cases found with
  | nil => cases h
  | cons piece rest =>
    cases h
    intro brace
    have text : piece.text = ['\x7b'] := (spelled piece List.mem_cons_self).sign _ (by
      rw [show piece.kind = .leftBrace from brace]
      rfl)
    rw [List.flatMap_cons, text, toList_wrap] at covers
    cases covers

/-- If there are as many pieces as characters in them, each piece is one character. -/
theorem map_text {found : List Style.Piece} (spelled : ∀ piece ∈ found, piece.Spelled)
    (few : (found.flatMap Style.Piece.text).length ≤ found.length) :
    found.map Style.Piece.text = (found.flatMap Style.Piece.text).map ([·]) := by
  induction found with
  | nil => rfl
  | cons piece rest ih =>
    obtain ⟨self, others⟩ := List.forall_mem_cons.mp spelled
    obtain ⟨c, more, text⟩ := List.exists_cons_of_ne_nil self.nonempty
    have long := length_le_flatMap rest others
    rw [List.flatMap_cons, text, List.length_append, List.length_cons, List.length_cons] at few
    have none : more = [] := List.length_eq_zero_iff.mp (by omega)
    subst none
    rw [List.map_cons, List.flatMap_cons, text, ih others (by omega)]
    rfl

/-- Pieces that make up a wrapped text, those in the middle the text itself: with two in front of it
and one behind it, no text is left over for another. -/
theorem wrapper_pieces {front middle back : List Style.Piece} {value : List Char}
    (frontSpelled : ∀ piece ∈ front, piece.Spelled) (backSpelled : ∀ piece ∈ back, piece.Spelled)
    (frontLong : 2 ≤ front.length) (backLong : 1 ≤ back.length)
    (inner : middle.flatMap Style.Piece.text = value)
    (covers : (front ++ (middle ++ back)).flatMap Style.Piece.text =
      ['*', '\x7b'] ++ (value ++ ['\x7d'])) :
    ∃ star opening closing : Style.Piece, front = [star, opening] ∧ back = [closing] ∧
      star.text = ['*'] ∧ opening.text = ['\x7b'] ∧ closing.text = ['\x7d'] := by
  have frontMore := length_le_flatMap front frontSpelled
  have backMore := length_le_flatMap back backSpelled
  rw [List.flatMap_append, List.flatMap_append, inner] at covers
  have wrapper := eq_wrapper covers (Nat.le_trans frontLong frontMore)
    (Nat.le_trans backLong backMore)
  rw [wrapper] at covers
  have brace := List.append_cancel_left (List.append_cancel_left covers)
  have frontTexts := map_text frontSpelled (by rw [wrapper]; exact frontLong)
  have backTexts := map_text backSpelled (by rw [brace]; exact backLong)
  rw [wrapper] at frontTexts
  rw [brace] at backTexts
  obtain ⟨star, more, rfl, starText, moreTexts⟩ := List.map_eq_cons_iff.mp frontTexts
  obtain ⟨opening, rfl, openingText⟩ := List.map_eq_singleton_iff.mp moreTexts
  obtain ⟨closing, rfl, closingText⟩ := List.map_eq_singleton_iff.mp backTexts
  exact ⟨star, opening, closing, rfl, rfl, starText, openingText, closingText⟩

/-- The pieces of a wrapped value of which declarations are kept: two for the wrapper in front of
the value, those that are kept, and one for the brace behind them. -/
theorem kept_between {adapters : Template.Adapters} {config : Config} {region : Region}
    {kept : List Token} (nonempty : region.text ≠ "")
    (h : declarations? (.withAdapters adapters) config region = .ok (some kept)) :
    ∃ star opening closing : Style.Piece, ∃ middle : List Style.Piece,
      Style.read (adapters.scanner config.template) (wrap region.text).toList =
        .ok (star :: opening :: (middle ++ [closing])) ∧
      star.text = ['*'] ∧ opening.text = ['\x7b'] ∧ closing.text = ['\x7d'] ∧
      middle.flatMap Style.Piece.text = region.text.toList ∧
      kept = Style.place (wrapLocator region) 2 middle := by
  obtain ⟨found, hfound, rfl, written⟩ := declarations?_eq_ok h
  have spelled := Style.read_spelled hfound
  have covers := Style.read_text hfound
  rcases trimWrapper_slice (Style.place (wrapLocator region) 0 found) with
    none | ⟨start, stop, hslice, inside, ahead⟩
  · rw [none] at written
    exact absurd written.symm nonempty
  · rw [hslice, slice, take_place, drop_place] at written ⊢
    rw [length_place] at inside
    let front := (found.take stop).take start
    let middle := (found.take stop).drop start
    have parts : found = front ++ (middle ++ found.drop stop) := by
      rw [← List.append_assoc, List.take_append_drop, List.take_append_drop]
    have value : middle.flatMap Style.Piece.text = region.text.toList := by
      rw [← Style.concat_place, ← String.toList_inj.mpr written]
      rfl
    have starts : start < stop := by
      refine Nat.lt_of_not_le fun le => nonempty (String.toList_inj.mp ?_)
      have none : middle = [] := List.drop_eq_nil_of_le (Nat.le_trans (List.length_take_le _ _) le)
      rw [← value, none]
      rfl
    have two : 2 ≤ start := by
      rcases ahead with two | ⟨-, first, hfirst, brace⟩
      · exact two
      · exact absurd brace (head_not_leftBrace spelled covers hfirst)
    have count : front.length = min start (min stop found.length) := by
      rw [List.length_take, List.length_take]
    have frontLong : 2 ≤ front.length := by omega
    have backLong : 1 ≤ (found.drop stop).length := by
      rw [List.length_drop]
      omega
    have frontSpelled : ∀ piece ∈ front, piece.Spelled := fun piece mem =>
      spelled piece (List.mem_of_mem_take (List.mem_of_mem_take mem))
    have backSpelled : ∀ piece ∈ found.drop stop, piece.Spelled := fun piece mem =>
      spelled piece (List.mem_of_mem_drop mem)
    rw [toList_wrap, parts] at covers
    obtain ⟨star, opening, closing, frontEq, backEq, starText, openingText, closingText⟩ :=
      wrapper_pieces frontSpelled backSpelled frontLong backLong value covers
    rw [frontEq, backEq] at parts
    refine ⟨star, opening, closing, middle, hfound.trans (congrArg Except.ok parts), starText,
      openingText, closingText, value, ?_⟩
    have wrapper : Text.bytes (front.flatMap Style.Piece.text) = 2 := by
      rw [frontEq, List.flatMap_cons, List.flatMap_singleton, starText, openingText]
      rfl
    rw [wrapper]

/-- The kept declarations are pieces of the wrapped value that cover the value, at the places
where they stand in the wrapped value. -/
theorem kept_eq_place {adapters : Template.Adapters} {config : Config} {region : Region}
    {kept : List Token} (nonempty : region.text ≠ "")
    (h : declarations? (.withAdapters adapters) config region = .ok (some kept)) :
    ∃ found : List Style.Piece, (∀ piece ∈ found, piece.Spelled) ∧
      found.flatMap Style.Piece.text = region.text.toList ∧
      kept = Style.place (wrapLocator region) 2 found := by
  obtain ⟨star, opening, closing, middle, read, -, -, -, value, placed⟩ := kept_between nonempty h
  refine ⟨middle, ?_, value, placed⟩
  intro piece mem
  apply Style.read_spelled read
  exact List.mem_cons_of_mem _ (List.mem_cons_of_mem _ (List.mem_append_left _ mem))

end Mosaic.Embedding
