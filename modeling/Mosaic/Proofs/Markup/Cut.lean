import Mosaic.Proofs.Markup.Piece
import Mosaic.Proofs.Style.Piece

/-! How a document is cut. Each way to cut a piece off the front of a text is a rule, and each token
of a document is a piece that was cut off what stands from there on. -/
namespace Mosaic.Markup

open Outcome

variable {t : Template.Scanner}

/-- The piece that begins with `c`, cut off a text, and the number of characters of it after `c`. -/
inductive Cut (t : Template.Scanner) (c : Char) (rest : List Char) : Piece → Nat → Prop
  | region {n : Nat} : t.opens (c :: rest) = true → t.scanAfter c rest = some n →
    Cut t c rest (.plain .template (c :: rest.take n)) n
  | enclosed {kind : TokenKind} {n : Nat} : kind = .comment ∨ kind = .declaration →
    opensConstruct t (c :: rest) = true → Cut t c rest (.plain kind (c :: rest.take n)) n
  | endTag {tag : TagText} {n : Nat} : opensEndTag (c :: rest) = true →
    endTagAt t rest = .ok (tag, n) → Cut t c rest (.endTag tag) n
  | startTag {tag : TagText} {n : Nat} : opensStartTag (c :: rest) = true →
    startTagAt t rest = .ok (tag, n) →
    tag.tag.selfClosing = true ∨ Element.ofName? tag.tag.nameLower = none →
    Cut t c rest (.startTag tag) n
  | openBlock {element : Element} {tag : TagText} {n : Nat} :
    opensStartTag (c :: rest) = true → startTagAt t rest = .ok (tag, n) →
    tag.tag.selfClosing = false → Element.ofName? tag.tag.nameLower = some element →
    firstCloser? element (rest.drop n) = none →
    Cut t c rest (.block element tag (rest.drop n) none) (n + (rest.drop n).length)
  | block {element : Element} {tag finish : TagText} {n i m k : Nat} :
    opensStartTag (c :: rest) = true → startTagAt t rest = .ok (tag, n) →
    tag.tag.selfClosing = false → Element.ofName? tag.tag.nameLower = some element →
    firstCloser? element (rest.drop n) = some (i, m) →
    endTagAt t ((rest.drop n).drop (i + 1)) = .ok (finish, k) →
    finish.text = ((rest.drop n).drop i).take m →
    Cut t c rest (.block element tag ((rest.drop n).take i) (some finish)) (n + i + m)
  | text : opensConstruct t (c :: rest) = false →
    Cut t c rest (.plain .text (c :: rest.take (textLength t rest))) (textLength t rest)

theorem cut_of_elementAt {c : Char} {rest : List Char} {piece : Piece} {n : Nat}
    (opens : opensStartTag (c :: rest) = true) (h : elementAt t rest = .ok (piece, n)) :
    Cut t c rest piece n := by
  unfold elementAt at h
  split at h
  · cases h
  · next start k read =>
    split at h
    · next plain =>
      cases h
      refine .startTag opens read ?_
      by_cases closed : start.tag.selfClosing = true
      · exact .inl closed
      · rw [if_neg closed] at plain
        exact .inr plain
    · next element named =>
      have closed : start.tag.selfClosing = false := by
        rw [Bool.eq_false_iff]
        intro closed
        rw [if_pos closed] at named
        cases named
      rw [closed] at named
      simp only at h
      split at h
      · next never =>
        cases h
        exact .openBlock opens read closed named never
      · next i m closer =>
        obtain ⟨finish, k, last, -, text⟩ := endTagAt_closer t (firstCloser?_spec closer)
        rw [List.drop_drop] at last
        rw [last] at h
        cases h
        exact .block opens read closed named closer last text

theorem cut_of_upTo {kind : TokenKind} {cause : Cause} {skip : Nat} {word : List Char} {c : Char}
    {rest : List Char} {piece : Piece} {n : Nat} (enclosed : kind = .comment ∨ kind = .declaration)
    (opens : opensConstruct t (c :: rest) = true)
    (h : upTo kind cause skip word c rest = .ok (piece, n)) : Cut t c rest piece n := by
  unfold upTo at h
  split at h
  · cases h
  · cases h
    exact .enclosed enclosed opens

/-- Every piece is cut by one of the rules. -/
theorem cut_of_pieceAt {c : Char} {rest : List Char} {piece : Piece} {n : Nat}
    (h : pieceAt t c rest = .ok (piece, n)) : Cut t c rest piece n := by
  unfold pieceAt at h
  split at h
  · next opens =>
    split at h
    · cases h
    · next found =>
      cases h
      exact .region opens found
  split at h
  · next closed comment =>
    refine cut_of_upTo (.inl rfl) ?_ h
    have bang : ['<', '!'].isPrefixOf (c :: rest) = true :=
      List.isPrefixOf_iff_prefix.mpr ((List.prefix_append ['<', '!'] ['-', '-']).trans
        (List.isPrefixOf_iff_prefix.mp comment))
    simp [opensConstruct, bang]
  split at h
  · next declaration =>
    refine cut_of_upTo (.inr rfl) ?_ h
    rcases declaration with bang | mark
    · simp [opensConstruct, bang]
    · simp [opensConstruct, mark]
  split at h
  · next ends =>
    obtain ⟨⟨tag, k⟩, read, same⟩ := map_eq_ok.mp h
    cases same
    exact .endTag ends read
  split at h
  · next starts => exact cut_of_elementAt starts h
  · next region _ declaration ends starts =>
    cases h
    apply Cut.text
    simp only [not_or, Bool.not_eq_true] at region declaration ends starts
    simp only [opensConstruct, region, declaration, ends, starts, Bool.or_self]

/-- Each piece is cut off what stands from there on, and so are the ones behind it. -/
theorem exists_of_pieces {s : List Char} {front back : List Piece} {piece : Piece}
    (h : pieces t s = .ok (front ++ piece :: back)) :
    ∃ c rest n, s = front.flatMap Piece.text ++ c :: rest ∧
      pieceAt t c rest = .ok (piece, n) ∧ pieces t (rest.drop n) = .ok back := by
  induction front generalizing s with
  | nil =>
    cases s with
    | nil =>
      rw [pieces] at h
      cases h
    | cons c rest =>
      rw [pieces] at h
      split at h
      · cases h
      · next n read =>
        split at h
        · cases h
        · next more later =>
          cases h
          exact ⟨c, rest, n, rfl, read, later⟩
  | cons first front ih =>
    cases s with
    | nil =>
      rw [pieces] at h
      cases h
    | cons c rest =>
      rw [pieces] at h
      split at h
      · cases h
      · next n read =>
        split at h
        · cases h
        · next more later =>
          cases h
          obtain ⟨d, others, m, text, next, behind⟩ := ih later
          refine ⟨d, others, m, ?_, next, behind⟩
          rw [List.flatMap_cons, pieceAt_text read, List.append_assoc, ← text, List.cons_append,
            List.take_append_drop]

theorem value_token (locator : Locator) (offset : Nat) (piece : Piece) :
    (piece.token locator offset).value = String.ofList piece.text := by
  cases piece with
  | block element start content finish => cases finish <;> rfl
  | _ => rfl

theorem placeStart_parts (locator : Locator) (offset : Nat) (element : Element) (tag : TagText) :
    (placeStart locator offset element tag).kind = .tagStart ∧
      (placeStart locator offset element tag).value = String.ofList tag.text ∧
      (placeStart locator offset element tag).detail = some (placeTag locator offset tag.tag) := by
  unfold placeStart
  simp only
  split <;> exact ⟨rfl, rfl, rfl⟩

theorem concat_place (locator : Locator) (offset : Nat) (found : List Piece) :
    (Token.concat (place locator offset found)).toList = found.flatMap Piece.text := by
  rw [Style.toList_concat]
  induction found generalizing offset with
  | nil => rfl
  | cons piece rest ih =>
    rw [place, List.flatMap_cons, List.flatMap_cons, ih, value_token, String.toList_ofList]

theorem place_eq_append {locator : Locator} {offset : Nat} {found : List Piece}
    {before after : List Token} {token : Token}
    (h : place locator offset found = before ++ token :: after) :
    ∃ front piece back, found = front ++ piece :: back ∧
      before = place locator offset front ∧
      token = piece.token locator (offset + Text.bytes (front.flatMap Piece.text)) ∧
      after = place locator
        (offset + Text.bytes (front.flatMap Piece.text) + Text.bytes piece.text) back := by
  induction before generalizing offset found with
  | nil =>
    cases found with
    | nil => cases h
    | cons piece rest =>
      cases h
      exact ⟨[], piece, rest, rfl, rfl, rfl, rfl⟩
  | cons first before ih =>
    cases found with
    | nil => cases h
    | cons piece rest =>
      obtain ⟨rfl, later⟩ := List.cons.inj h
      obtain ⟨front, other, back, rfl, rfl, rfl, rfl⟩ := ih later
      refine ⟨piece :: front, other, back, rfl, rfl, ?_, ?_⟩
      · simp only [List.flatMap_cons, Text.bytes_append, Nat.add_assoc]
      · simp only [List.flatMap_cons, Text.bytes_append, Nat.add_assoc]

/-- A token of a document is a piece that is cut off what stands from there on, and the tokens
behind it are the pieces of what is left. -/
theorem cut_of_tokenize {origin : Origin} {source : String} {before after : List Token}
    {token : Token} (h : tokenize t origin source = .ok (before ++ token :: after)) :
    ∃ piece c rest n back offset, Cut t c rest piece n ∧
      token = piece.token (.ofText source.toList origin) (Text.bytes (Token.concat before).toList) ∧
      source.toList = (Token.concat before).toList ++ c :: rest ∧
      piece.text = c :: rest.take n ∧ (Token.concat after).toList = rest.drop n ∧
      pieces t (rest.drop n) = .ok back ∧
      after = place (.ofText source.toList origin) offset back := by
  obtain ⟨found, cut, placed⟩ := tokenize_eq_ok h
  obtain ⟨front, piece, back, rfl, rfl, rfl, rfl⟩ := place_eq_append placed.symm
  obtain ⟨c, rest, n, text, read, later⟩ := exists_of_pieces cut
  refine ⟨piece, c, rest, n, back, _, cut_of_pieceAt read, ?_, ?_, pieceAt_text read, ?_, later,
    rfl⟩
  · rw [concat_place, Nat.zero_add]
  · rw [concat_place, text]
  · rw [concat_place, pieces_text later]

/-- A document is the texts of its tokens. -/
theorem source_of_tokenize {origin : Origin} {source : String} {before after : List Token}
    {token : Token} (h : tokenize t origin source = .ok (before ++ token :: after)) :
    source = Token.concat before ++ token.value ++ Token.concat after := by
  obtain ⟨piece, c, rest, n, back, offset, -, rfl, whole, own, behind, -⟩ := cut_of_tokenize h
  rw [← String.toList_inj, String.toList_append, String.toList_append, whole, value_token,
    String.toList_ofList, own, behind, List.append_assoc, List.cons_append, List.take_append_drop]

end Mosaic.Markup
