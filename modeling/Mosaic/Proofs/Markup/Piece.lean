import Mosaic.Markup.Piece
import Mosaic.Proofs.Markup.Tag
import Mosaic.Proofs.Token

/-! The pieces of a document keep every character: put one behind the other they are the document.
A block needs care, because its end tag is measured twice: when it is looked for and when it is
read. -/
namespace Mosaic.Markup

open Outcome

theorem name_free_of_bracket {name text : List Char} (free : ∀ c ∈ name, sameLetter c '>' = false)
    (h : beginsWithName name text = true) :
    name.length ≤ text.length ∧ '>' ∉ text.take name.length := by
  induction name generalizing text with
  | nil => exact ⟨Nat.zero_le _, by simp⟩
  | cons c name ih =>
    cases text with
    | nil => cases h
    | cons d text =>
      simp only [beginsWithName, Bool.and_eq_true] at h
      have rest := ih (fun x mem => free x (List.mem_cons_of_mem c mem)) h.2
      refine ⟨Nat.succ_le_succ rest.1, ?_⟩
      simp only [List.length_cons, List.take_succ_cons, List.mem_cons, not_or]
      refine ⟨?_, rest.2⟩
      rintro rfl
      rw [free c List.mem_cons_self] at h
      cases h.1

theorem element_name_free (element : Element) :
    ∀ c ∈ element.name.toList, sameLetter c '>' = false := by
  have all : element.name.toList.all (fun c => !sameLetter c '>') = true := by
    cases element <;> decide
  intro c mem
  rw [← Bool.not_eq_true']
  exact List.all_eq_true.mp all c mem

/-- An end tag that ends an element holds a closing bracket at its end and nowhere before. -/
theorem closerLength?_shape {element : Element} {s : List Char} {m : Nat}
    (h : closerLength? element s = some m) :
    ∃ before after, s = '<' :: '/' :: (before ++ '>' :: after) ∧ '>' ∉ before ∧
      m = before.length + 3 := by
  unfold closerLength? at h
  simp only at h
  split at h
  · next rest =>
    split at h
    · next named =>
      split at h
      · next after hafter =>
        cases h
        obtain ⟨len, free⟩ := name_free_of_bracket (element_name_free element) named
        let behind := rest.drop element.name.toList.length
        have cut : behind = behind.takeWhile Text.isBlank ++ '>' :: after := by
          rw [← hafter, List.takeWhile_append_dropWhile]
        refine ⟨rest.take element.name.toList.length ++ behind.takeWhile Text.isBlank, after,
          ?_, ?_, ?_⟩
        · rw [List.append_assoc, ← cut, List.take_append_drop]
        · simp only [List.mem_append, not_or]
          refine ⟨free, fun mem => ?_⟩
          exact absurd (List.all_eq_true.mp List.all_takeWhile _ mem) (by decide)
        · simp only [List.length_append, List.length_take, Nat.min_eq_left len, Text.blankLength,
            behind]
      · cases h
    · cases h
  · cases h

/-- What is found as the end tag of an element is read as an end tag of that length. -/
theorem endTagAt_closer (t : Template.Scanner) {element : Element} {s : List Char} {m : Nat}
    (h : closerLength? element s = some m) :
    ∃ tag n, endTagAt t (s.drop 1) = .ok (tag, n) ∧ n + 1 = m ∧ tag.text = s.take m := by
  obtain ⟨before, after, rfl, free, rfl⟩ := closerLength?_shape h
  obtain ⟨tag, read⟩ := endTagAt_bracket t after free
  exact ⟨tag, before.length + 2, read, rfl, endTagAt_text read⟩

theorem firstCloser?_spec {element : Element} {s : List Char} {i m : Nat}
    (h : firstCloser? element s = some (i, m)) : closerLength? element (s.drop i) = some m := by
  induction s generalizing i with
  | nil => cases h
  | cons c rest ih =>
    simp only [firstCloser?] at h
    split at h
    · next n hn =>
      cases h
      exact hn
    · obtain ⟨⟨j, k⟩, hjk, heq⟩ := Option.map_eq_some_iff.mp h
      cases heq
      exact ih hjk

theorem elementAt_text {t : Template.Scanner} {rest : List Char} {piece : Piece} {n : Nat}
    (h : elementAt t rest = .ok (piece, n)) : piece.text = '<' :: rest.take n := by
  unfold elementAt at h
  split at h
  · cases h
  · next start k hstart =>
    have startText := (startTagAt_text hstart).1
    split at h
    · cases h
      exact startText
    · next element _ =>
      simp only at h
      split at h
      · cases h
        simp only [Piece.text, startText, List.append_nil, List.cons_append, List.take_add,
          List.take_length]
      · next i m hcloser =>
        obtain ⟨finish, len, hread, hlen, htext⟩ := endTagAt_closer t (firstCloser?_spec hcloser)
        rw [List.drop_drop, Nat.add_comm i 1, Nat.add_comm 1 i] at hread
        simp only [hread] at h
        cases h
        simp only [Piece.text, startText, htext, List.take_add, List.cons_append,
          List.append_assoc, List.drop_drop]

theorem bracket_of_opensEndTag {c : Char} {rest : List Char}
    (h : opensEndTag (c :: rest) = true) : c = '<' := by
  unfold opensEndTag at h
  split at h
  · next heq => exact (List.cons.inj heq).1
  · cases h

theorem slash_of_opensEndTag {c : Char} {rest : List Char}
    (h : opensEndTag (c :: rest) = true) : ∃ more, rest = '/' :: more := by
  unfold opensEndTag at h
  split at h
  next heq => exact ⟨_, (List.cons.inj heq).2⟩
  next => cases h

theorem bracket_of_opensStartTag {c : Char} {rest : List Char}
    (h : opensStartTag (c :: rest) = true) : c = '<' := by
  unfold opensStartTag at h
  split at h
  · next heq => exact (List.cons.inj heq).1
  · cases h

theorem upTo_text {kind : TokenKind} {cause : Cause} {skip : Nat} {word : List Char} {c : Char}
    {rest : List Char} {piece : Piece} {n : Nat}
    (h : upTo kind cause skip word c rest = .ok (piece, n)) : piece.text = c :: rest.take n := by
  unfold upTo at h
  split at h
  · cases h
  · cases h
    rfl

theorem pieceAt_text {t : Template.Scanner} {c : Char} {rest : List Char} {piece : Piece} {n : Nat}
    (h : pieceAt t c rest = .ok (piece, n)) : piece.text = c :: rest.take n := by
  unfold pieceAt at h
  split at h
  · split at h
    · cases h
    · cases h
      rfl
  · split at h
    · exact upTo_text h
    · split at h
      · exact upTo_text h
      · split at h
        · next opens =>
          obtain ⟨⟨tag, k⟩, hread, heq⟩ := map_eq_ok.mp h
          cases heq
          rw [bracket_of_opensEndTag opens]
          exact endTagAt_text hread
        · split at h
          · next opens =>
            rw [bracket_of_opensStartTag opens]
            exact elementAt_text h
          · cases h
            rfl

theorem pieces_text {t : Template.Scanner} {s : List Char} {found : List Piece}
    (h : pieces t s = .ok found) : found.flatMap Piece.text = s := by
  fun_induction pieces t s generalizing found with
  | case1 => cases h; rfl
  | case2 => cases h
  | case3 => cases h
  | case4 c rest piece n hpiece more hmore ih =>
    cases h
    rw [List.flatMap_cons, pieceAt_text hpiece, ih hmore, List.cons_append,
      List.take_append_drop]

def finishText : Option TagText → List Char
  | some tag => tag.text
  | none => []

theorem text_block (element : Element) (start : TagText) (content : List Char)
    (finish : Option TagText) :
    (Piece.block element start content finish).text =
      start.text ++ content ++ finishText finish := by
  cases finish <;> rfl

/-- A start tag is put together to its text. -/
def TagText.Opens (tag : TagText) : Prop := tag.tag.render none = String.ofList tag.text

/-- An end tag has a text, and no attributes. -/
def TagText.Ends (tag : TagText) : Prop := tag.text ≠ [] ∧ tag.tag.attrs = []

/-- A piece has a text, its tags are start tags and end tags, and a plain one has no parts. -/
def Piece.Spelled : Piece → Prop
  | .plain kind text => text ≠ [] ∧ kind.isBlock = false
  | .startTag tag => tag.Opens
  | .endTag tag => tag.Ends
  | .block _ start _ finish => start.Opens ∧ ∀ tag ∈ finish, tag.Ends

theorem TagText.Opens.nonempty {tag : TagText} (h : tag.Opens) : tag.text ≠ [] := by
  rw [← String.toList_ofList (l := tag.text), ← h]
  simp only [Tag.render, String.toList_append, List.append_assoc]
  exact List.cons_ne_nil _ _

theorem Piece.Spelled.nonempty {piece : Piece} (h : piece.Spelled) : piece.text ≠ [] := by
  cases piece with
  | plain kind text => exact h.1
  | startTag tag => exact TagText.Opens.nonempty h
  | endTag tag => exact h.1
  | block element start content finish =>
    exact List.append_ne_nil_of_left_ne_nil
      (List.append_ne_nil_of_left_ne_nil h.1.nonempty content) _

theorem startTagAt_opens {t : Template.Scanner} {rest : List Char} {tag : TagText} {n : Nat}
    (h : startTagAt t rest = .ok (tag, n)) : tag.Opens := by
  rw [TagText.Opens, ← String.toList_inj, (startTagAt_text h).2, String.toList_ofList]

theorem endTagAt_ends {t : Template.Scanner} {rest : List Char} {tag : TagText} {n : Nat}
    (h : endTagAt t rest = .ok (tag, n)) : tag.Ends := by
  unfold endTagAt at h
  simp only at h
  split at h
  · cases h
  · cases h
    exact ⟨List.cons_ne_nil _ _, rfl⟩

theorem elementAt_spelled {t : Template.Scanner} {rest : List Char} {piece : Piece} {n : Nat}
    (h : elementAt t rest = .ok (piece, n)) : piece.Spelled := by
  unfold elementAt at h
  split at h
  · cases h
  · next start k hstart =>
    have opens := startTagAt_opens hstart
    split at h
    · cases h
      exact opens
    · simp only at h
      split at h
      · cases h
        exact ⟨opens, fun _ mem => nomatch mem⟩
      · split at h
        · cases h
        · next finish _ hfinish =>
          cases h
          refine ⟨opens, fun tag mem => ?_⟩
          cases mem
          exact endTagAt_ends hfinish

theorem upTo_spelled {kind : TokenKind} {cause : Cause} {skip : Nat} {word : List Char} {c : Char}
    {rest : List Char} {piece : Piece} {n : Nat} (whole : kind.isBlock = false)
    (h : upTo kind cause skip word c rest = .ok (piece, n)) : piece.Spelled := by
  unfold upTo at h
  split at h
  · cases h
  · cases h
    exact ⟨List.cons_ne_nil _ _, whole⟩

theorem pieceAt_spelled {t : Template.Scanner} {c : Char} {rest : List Char} {piece : Piece}
    {n : Nat} (h : pieceAt t c rest = .ok (piece, n)) : piece.Spelled := by
  unfold pieceAt at h
  split at h
  · split at h
    · cases h
    · cases h
      exact ⟨List.cons_ne_nil _ _, rfl⟩
  · split at h
    · exact upTo_spelled rfl h
    · split at h
      · exact upTo_spelled rfl h
      · split at h
        · obtain ⟨⟨tag, k⟩, hread, heq⟩ := map_eq_ok.mp h
          cases heq
          exact endTagAt_ends hread
        · split at h
          · exact elementAt_spelled h
          · cases h
            exact ⟨List.cons_ne_nil _ _, rfl⟩

theorem pieces_spelled {t : Template.Scanner} {s : List Char} {found : List Piece}
    (h : pieces t s = .ok found) : ∀ piece ∈ found, piece.Spelled := by
  fun_induction pieces t s generalizing found with
  | case1 => cases h; exact fun _ mem => nomatch mem
  | case2 => cases h
  | case3 => cases h
  | case4 c rest piece n hpiece more hmore ih =>
    cases h
    exact List.forall_mem_cons.mpr ⟨pieceAt_spelled hpiece, ih hmore⟩

theorem tokenize_eq_ok {t : Template.Scanner} {origin : Origin} {source : String}
    {tokens : List Token} (h : tokenize t origin source = .ok tokens) :
    ∃ found, pieces t source.toList = .ok found ∧
      tokens = place (.ofText source.toList origin) 0 found := by
  simp only [Markup.tokenize] at h
  split at h
  · next found hfound =>
    cases h
    exact ⟨found, hfound, rfl⟩
  · cases h

end Mosaic.Markup
