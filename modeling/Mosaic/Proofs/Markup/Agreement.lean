import Mosaic.Proofs.Markup.Detail
import Mosaic.Proofs.Template.Agreement

/-! Markup read with scanners that agree on it. Each reader asks its scanner about nothing but what
stands from some place of its text on, so with two scanners that agree there it reads the same, and
is stopped by the same. Where no region opens, no part of markup is one. -/
namespace Mosaic.Markup

open Outcome Template.Scanner

section Agree

variable {t u : Template.Scanner} {s rest : List Char}

theorem endsName_congr (h : Agree t u s) : endsName t s = endsName u s := by
  cases s with
  | nil => rfl
  | cons c rest => simp only [endsName, h.opens_front]

theorem endsAttrName_congr (h : Agree t u s) : endsAttrName t s = endsAttrName u s := by
  rw [endsAttrName, endsAttrName, endsName_congr h]

theorem nameLength_congr (h : Agree t u s) : nameLength t s = nameLength u s := by
  induction s with
  | nil => rfl
  | cons c rest ih => rw [nameLength, nameLength, endsName_congr h, ih h.tail]

theorem attrNameLength_congr (h : Agree t u s) : attrNameLength t s = attrNameLength u s := by
  induction s with
  | nil => rfl
  | cons c rest ih => rw [attrNameLength, attrNameLength, endsAttrName_congr h, ih h.tail]

theorem quotedLength_congr (h : Agree t u s) (quote : Char) (unclosed : Halt) (skip : Nat) :
    quotedLength t quote unclosed skip s = quotedLength u quote unclosed skip s := by
  induction s generalizing skip with
  | nil => cases skip <;> rfl
  | cons c rest ih =>
    cases skip with
    | succ skip => rw [quotedLength, quotedLength, ih h.tail]
    | zero =>
      rw [quotedLength, quotedLength, h.opens_front]
      split
      · next opens =>
        rw [h.scanAfter opens]
        simp only [ih h.tail]
      · rw [ih h.tail]

theorem unquotedLength_congr (h : Agree t u s) (skip : Nat) :
    unquotedLength t skip s = unquotedLength u skip s := by
  induction s generalizing skip with
  | nil => cases skip <;> rfl
  | cons c rest ih =>
    cases skip with
    | succ skip => rw [unquotedLength, unquotedLength, ih h.tail]
    | zero =>
      rw [unquotedLength, unquotedLength, h.opens_front]
      split
      · next opens =>
        rw [h.scanAfter opens]
        simp only [ih h.tail]
      · rw [ih h.tail]

theorem valueAt_congr (h : Agree t u s) : valueAt t s = valueAt u s := by
  cases s with
  | nil => rfl
  | cons c rest => rw [valueAt, valueAt, quotedLength_congr h.tail, unquotedLength_congr h]

theorem attrAt_congr {c : Char} (h : Agree t u (c :: rest)) (leading : List Char) :
    attrAt t leading c rest = attrAt u leading c rest := by
  rw [attrAt, attrAt, h.opens_front]
  split
  · next opens => rw [h.scanAfter opens]
  · simp only [attrNameLength_congr h.tail, valueAt_congr (h.tail.drop _)]

theorem tagRest_congr (h : Agree t u s) (unclosed : Halt) :
    tagRest t unclosed s = tagRest u unclosed s := by
  induction size : s.length using Nat.strongRecOn generalizing s with
  | ind n ih =>
    rw [tagRest, tagRest]
    split
    · rfl
    · rfl
    · rfl
    · next c rest _ _ begins =>
      have part : c :: rest <:+ s := begins ▸ List.dropWhile_suffix _
      have agree := h.of_suffix part
      rw [attrAt_congr agree]
      split
      · rfl
      · next attr k _ =>
        have shorter : (rest.drop k).length < n := by
          have le := part.length_le
          rw [List.length_cons] at le
          rw [List.length_drop]
          omega
        rw [ih _ shorter (agree.tail.drop k) rfl]

theorem startTagAt_congr (h : Agree t u rest) : startTagAt t rest = startTagAt u rest := by
  simp only [startTagAt, nameLength_congr h, tagRest_congr (h.drop _)]

theorem endTagAt_congr (h : Agree t u rest) : endTagAt t rest = endTagAt u rest := by
  simp only [endTagAt, nameLength_congr (h.drop 1)]

theorem opensConstruct_congr (h : Agree t u s) : opensConstruct t s = opensConstruct u s := by
  rw [opensConstruct, opensConstruct, h.opens_front]

theorem textLength_congr (h : Agree t u s) : textLength t s = textLength u s := by
  induction s with
  | nil => rfl
  | cons c rest ih => rw [textLength, textLength, opensConstruct_congr h, ih h.tail]

theorem elementAt_congr (h : Agree t u rest) : elementAt t rest = elementAt u rest := by
  simp only [elementAt, startTagAt_congr h, endTagAt_congr ((h.drop _).drop _)]

theorem pieceAt_congr {c : Char} (h : Agree t u (c :: rest)) :
    pieceAt t c rest = pieceAt u c rest := by
  rw [pieceAt, pieceAt, h.opens_front]
  split
  · next opens => rw [h.scanAfter opens]
  · simp only [endTagAt_congr h.tail, elementAt_congr h.tail, textLength_congr h.tail]

theorem pieces_congr (h : Agree t u s) : pieces t s = pieces u s := by
  fun_induction pieces t s with
  | case1 => rw [pieces]
  | case2 c rest halt first => rw [pieces, ← pieceAt_congr h, first]
  | case3 c rest piece n first halt later =>
    rename_i ih
    rw [pieces, ← pieceAt_congr h, first]
    simp only [← ih (h.tail.drop n), later]
  | case4 c rest piece n first more later =>
    rename_i ih
    rw [pieces, ← pieceAt_congr h, first]
    simp only [← ih (h.tail.drop n), later]

theorem tokenize_congr {source : String} (h : Agree t u source.toList) (origin : Origin) :
    tokenize t origin source = tokenize u origin source := by
  rw [tokenize, tokenize, pieces_congr h]

end Agree

section Off

variable {c : Char} {rest : List Char} {n : Nat}

/-- A tag without a template region in the place of an attribute. -/
def TagText.Untemplated (tag : TagText) : Prop := ∀ attr ∈ tag.tag.attrs, attr.isTemplate = false

/-- A piece that is no template region, and none stands in its tags. -/
def Piece.Untemplated : Piece → Prop
  | .plain kind _ => kind ≠ .template
  | .startTag tag => tag.Untemplated
  | .endTag tag => tag.Untemplated
  | .block _ start _ finish => start.Untemplated ∧ ∀ tag ∈ finish, tag.Untemplated

theorem attrAt_untemplated {leading : List Char} {attr : Attr}
    (h : attrAt off leading c rest = .ok (attr, n)) : attr.isTemplate = false := by
  rw [attrAt, if_neg (not_opens_off _)] at h
  simp only at h
  split at h
  · cases h
    rfl
  · split at h
    · cases h
    · cases h
      rfl

theorem tagRest_untemplated {unclosed : Halt} {s : List Char} {more : TagRest}
    (h : tagRest off unclosed s = .ok more) : ∀ attr ∈ more.attrs, attr.isTemplate = false := by
  fun_induction tagRest off unclosed s generalizing more with
  | case1 => cases h
  | case2 => cases h; exact List.forall_mem_nil _
  | case3 => cases h; exact List.forall_mem_nil _
  | case4 => cases h
  | case5 => cases h
  | case6 s leading c rest _ _ _ attr n first inner later =>
    rename_i ih
    cases h
    exact List.forall_mem_cons.mpr ⟨attrAt_untemplated first, ih later⟩

theorem startTagAt_untemplated {tag : TagText} (h : startTagAt off rest = .ok (tag, n)) :
    tag.Untemplated := by
  unfold startTagAt at h
  simp only at h
  split at h
  · cases h
  · next more read =>
    cases h
    exact tagRest_untemplated read

theorem TagText.Ends.untemplated {tag : TagText} (h : tag.Ends) : tag.Untemplated := by
  rw [TagText.Untemplated, h.2]
  exact List.forall_mem_nil _

theorem Cut.untemplated {piece : Piece} (cut : Cut off c rest piece n) : piece.Untemplated := by
  cases cut with
  | region opens => exact absurd opens (not_opens_off _)
  | enclosed kinds => rcases kinds with rfl | rfl <;> exact nofun
  | endTag _ read => exact (endTagAt_ends read).untemplated
  | startTag _ read => exact startTagAt_untemplated read
  | openBlock _ read => exact ⟨startTagAt_untemplated read, fun _ last => nomatch last⟩
  | block _ read _ _ _ last =>
    exact ⟨startTagAt_untemplated read, fun _ same => Option.some.inj same ▸
      (endTagAt_ends last).untemplated⟩
  | text => exact nofun

end Off

end Mosaic.Markup
