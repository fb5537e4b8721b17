import Mathlib.Data.List.Forall2
import Mosaic.Proofs.Markup.Cut

/-! Style and script elements. What stands behind their start tags is no markup: it reaches to the
first text that is spelled like their end tag, or to the end of the document. -/
namespace Mosaic.Markup

variable {t : Template.Scanner}

/-- A name in any case; the long s is an s too. -/
def SameName (name text : List Char) : Prop :=
  List.Forall₂ (fun c d => d.toLower = c ∨ c = 's' ∧ d = 'ſ') name text

/-- The end tags of an element: its name in any case, perhaps with blanks behind it. -/
def Element.Closes (element : Element) (text : List Char) : Prop :=
  ∃ name blanks, text = '<' :: '/' :: (name ++ blanks ++ ['>']) ∧
    SameName element.name.toList name ∧ ∀ c ∈ blanks, Text.isBlank c = true

theorem Element.Closes.ne_nil {element : Element} {text : List Char} (h : element.Closes text) :
    text ≠ [] := by
  obtain ⟨name, blanks, rfl, -⟩ := h
  exact List.cons_ne_nil _ _

theorem sameLetter_iff {c d : Char} :
    sameLetter c d = true ↔ d.toLower = c ∨ c = 's' ∧ d = 'ſ' := by
  rw [sameLetter, Bool.or_eq_true, Bool.and_eq_true, beq_iff_eq, beq_iff_eq, beq_iff_eq]

theorem beginsWithName_iff {name text : List Char} :
    beginsWithName name text = true ↔ ∃ front back, text = front ++ back ∧ SameName name front := by
  constructor
  · intro begins
    induction name generalizing text with
    | nil => exact ⟨[], text, rfl, .nil⟩
    | cons c name ih =>
      cases text with
      | nil => cases begins
      | cons d text =>
        rw [beginsWithName, Bool.and_eq_true, sameLetter_iff] at begins
        obtain ⟨front, back, rfl, same⟩ := ih begins.2
        exact ⟨d :: front, back, rfl, .cons begins.1 same⟩
  · rintro ⟨front, back, rfl, same⟩
    induction same with
    | nil => rfl
    | cons own _ ih =>
      rw [List.cons_append, beginsWithName, sameLetter_iff.mpr own, ih]
      rfl

/-- The length that is measured is the one of the end tag at the front of a text. -/
theorem closerLength?_eq_some {element : Element} {s : List Char} {m : Nat} :
    closerLength? element s = some m ↔
      ∃ text more, s = text ++ more ∧ element.Closes text ∧ text.length = m := by
  constructor
  · intro h
    unfold closerLength? at h
    simp only at h
    split at h
    · next rest =>
      split at h
      · next named =>
        obtain ⟨front, back, rfl, same⟩ := beginsWithName_iff.mp named
        rw [same.length_eq, List.drop_left] at h
        split at h
        · next more bracket =>
          cases h
          have whole : back = back.takeWhile Text.isBlank ++ '>' :: more := by
            rw [← bracket, List.takeWhile_append_dropWhile]
          refine ⟨'<' :: '/' :: (front ++ back.takeWhile Text.isBlank ++ ['>']), more, ?_,
            ⟨front, _, rfl, same, List.all_eq_true.mp List.all_takeWhile⟩, ?_⟩
          · simp only [List.cons_append, List.append_assoc, List.nil_append, ← whole]
          · simp only [List.length_cons, List.length_append, List.length_nil, Text.blankLength]
        · cases h
      · cases h
    · cases h
  · rintro ⟨_, more, rfl, ⟨name, blanks, rfl, same, blank⟩, rfl⟩
    have named : beginsWithName element.name.toList (name ++ (blanks ++ '>' :: more)) = true :=
      beginsWithName_iff.mpr ⟨name, _, rfl, same⟩
    have spaces : (blanks ++ '>' :: more).dropWhile Text.isBlank = '>' :: more := by
      rw [List.dropWhile_append_of_pos blank]
      rfl
    have size : Text.blankLength (blanks ++ '>' :: more) = blanks.length := by
      refine Text.length_takeWhile_append.mpr ⟨blank, ?_⟩
      rintro _ ⟨⟩
      decide
    simp only [List.cons_append, List.append_assoc, List.nil_append]
    unfold closerLength?
    simp only [named, if_true, same.length_eq, List.drop_left, spaces, size, List.length_cons,
      List.length_append, List.length_nil]
    rfl

/-- A text in which an element does not end. -/
def Element.Runs (element : Element) (s : List Char) : Prop :=
  ∀ front text back, s = front ++ text ++ back → ¬ element.Closes text

/-- `closer` is the first end tag of an element in `content ++ closer ++ after`: any other begins
behind its first character. -/
structure Element.FirstCloses (element : Element) (content closer after : List Char) : Prop where
  closes : element.Closes closer
  first {front text back : List Char} : content ++ closer ++ after = front ++ text ++ back →
    element.Closes text → front = content ∧ text = closer ∨ content.length < front.length

/-- The text in front of the first end tag holds no other. -/
theorem Element.FirstCloses.runs {element : Element} {content closer after : List Char}
    (h : element.FirstCloses content closer after) : element.Runs content := by
  rintro front text back rfl closes
  have whole : front ++ text ++ back ++ closer ++ after =
      front ++ text ++ (back ++ closer ++ after) := by
    simp only [List.append_assoc]
  have inside := List.length_pos_of_ne_nil closes.ne_nil
  rcases h.first whole closes with ⟨same, -⟩ | behind
  · have sizes := congrArg List.length same
    simp only [List.length_append] at sizes
    omega
  · simp only [List.length_append] at behind
    omega

theorem closerLength?_of_closes {element : Element} {text more : List Char}
    (closes : element.Closes text) : closerLength? element (text ++ more) = some text.length :=
  closerLength?_eq_some.mpr ⟨text, more, rfl, closes, rfl⟩

theorem firstCloser?_eq_none {element : Element} {s : List Char}
    (h : firstCloser? element s = none) : element.Runs s := by
  induction s with
  | nil =>
    intro front text back whole closes
    have empty := (List.append_eq_nil_iff.mp (List.append_eq_nil_iff.mp whole.symm).1).2
    exact closes.ne_nil empty
  | cons c rest ih =>
    rw [firstCloser?] at h
    split at h
    · cases h
    · next never =>
      intro front text back whole closes
      cases front with
      | nil =>
        rw [whole, List.nil_append, closerLength?_of_closes closes] at never
        cases never
      | cons d front =>
        obtain ⟨-, behind⟩ := List.cons.inj whole
        exact ih (Option.map_eq_none_iff.mp h) front text back behind closes

theorem firstCloser?_le {element : Element} {s : List Char} {i m : Nat}
    (h : firstCloser? element s = some (i, m)) {front text back : List Char}
    (whole : s = front ++ text ++ back) (closes : element.Closes text) : i ≤ front.length := by
  induction s generalizing i front with
  | nil => cases h
  | cons c rest ih =>
    rw [firstCloser?] at h
    split at h
    · cases h
      exact Nat.zero_le _
    · next never =>
      obtain ⟨⟨j, k⟩, later, same⟩ := Option.map_eq_some_iff.mp h
      cases same
      cases front with
      | nil =>
        rw [whole, List.nil_append, closerLength?_of_closes closes] at never
        cases never
      | cons d front => exact Nat.succ_le_succ (ih later (List.cons.inj whole).2)

/-- The end tag that is found is the first one. -/
theorem firstCloses_of_firstCloser? {element : Element} {s : List Char} {i m : Nat}
    (h : firstCloser? element s = some (i, m)) :
    element.FirstCloses (s.take i) ((s.drop i).take m) (s.drop (i + m)) := by
  obtain ⟨text, more, cut, closes, size⟩ := closerLength?_eq_some.mp (firstCloser?_spec h)
  have own : (s.drop i).take m = text := by rw [cut, ← size, List.take_left]
  refine ⟨own ▸ closes, ?_⟩
  intro front other back whole otherCloses
  rw [List.append_assoc, ← List.drop_drop, List.take_append_drop, List.take_append_drop] at whole
  have before := firstCloser?_le h whole otherCloses
  rcases Nat.lt_or_eq_of_le before with behind | here
  · exact .inr (Nat.lt_of_le_of_lt (List.length_take_le i s) behind)
  · -- both begin at the same place, where only one length is measured
    have frontSame : s.take i = front := by
      rw [here, whole, List.append_assoc, List.take_left]
    have measured := firstCloser?_spec h
    rw [here, whole, List.append_assoc, List.drop_left, closerLength?_of_closes otherCloses]
      at measured
    cases measured
    refine .inl ⟨frontSame.symm, ?_⟩
    rw [here, whole, List.append_assoc, List.drop_left, List.take_left]

/-- What hangs in the type slot of a start tag: a script's type, trimmed and in lower case. -/
def Element.typeSlot (tag : Tag) : Element → Option Payload
  | .style => none
  | .script => (tag.attrValue? "type").map fun value =>
    .text (String.ofList (Text.lower (Text.trim value.toList)))

/-- The parts of an element with raw text, where `after` follows it. -/
structure RawParts (element : Element) (block start : Token) (tag : Tag) (content : Token)
    (finish : Option Token) (after : List Char) : Prop where
  slots : block.ext = { Extensions.empty with
    start := some (.token start), content := some (.token content), finish := finish.map .token }
  written : block.value = Token.concat (start :: content :: finish.toList)
  opening : start.kind = .tagStart ∧ start.detail = some tag
  unclosed : tag.selfClosing = false
  named : Text.lower tag.name.toList = element.name.toList
  type : start.ext = { Extensions.empty with type := element.typeSlot tag }
  body : content.kind = .text ∧ content.ext = .empty
  runs : element.Runs content.value.toList
  finished : finish.isSome ↔ ∃ text more,
    (Token.concat finish.toList).toList ++ after = text ++ more ∧ element.Closes text
  first {last : Token} : finish = some last → last.kind = .tagEnd ∧ last.ext = .empty ∧
    element.FirstCloses content.value.toList last.value.toList after
  unfinished : finish = none → after = []

theorem ofName?_eq_some {name : String} {element : Element} :
    Element.ofName? name = some element ↔ name = element.name := by
  constructor
  · intro h
    unfold Element.ofName? at h
    split at h
    · next style =>
      cases h
      exact style
    · split at h
      · next script =>
        cases h
        exact script
      · cases h
  · rintro rfl
    cases element <;> rfl

/-- The element is chosen by the name in lower case. -/
theorem startTagAt_named {rest : List Char} {tag : TagText} {n : Nat} {element : Element}
    (h : startTagAt t rest = .ok (tag, n)) :
    Element.ofName? tag.tag.nameLower = some element ↔
      Text.lower tag.tag.name.toList = element.name.toList := by
  unfold startTagAt at h
  simp only at h
  split at h
  · cases h
  · cases h
    simp only [ofName?_eq_some, ← String.toList_inj, String.toList_ofList]

theorem placeStart_ext (locator : Locator) (offset : Nat) (element : Element) (start : TagText) :
    (placeStart locator offset element start).ext =
      { Extensions.empty with type := element.typeSlot (placeTag locator offset start.tag) } := by
  cases element with
  | style => rfl
  | script =>
    have slot : (declaredType? start.tag).map Payload.text =
        Element.script.typeSlot (placeTag locator offset start.tag) := by
      rw [← declaredType?_placeTag locator offset, declaredType?, Option.map_map]
      rfl
    rw [← slot]
    unfold placeStart
    simp only
    cases declaredType? start.tag <;> rfl

theorem concat_finish (locator : Locator) (offset : Nat) (finish : Option TagText) :
    (Token.concat (finish.map (placeTagText locator offset .tagEnd)).toList).toList =
      finishText finish := by
  rw [Style.toList_concat]
  cases finish with
  | none => rfl
  | some last => exact (List.flatMap_singleton _ _).trans String.toList_ofList

/-- A block has an end tag exactly if there is one behind its content. -/
theorem isSome_finish_iff {element : Element} {content after : List Char} {finish : Option TagText}
    (first : ∀ last, finish = some last → element.FirstCloses content last.text after)
    (unfinished : finish = none → after = []) :
    finish.isSome ↔
      ∃ text more, finishText finish ++ after = text ++ more ∧ element.Closes text := by
  cases finish with
  | some last => exact iff_of_true rfl ⟨last.text, after, rfl, (first last rfl).closes⟩
  | none =>
    rw [unfinished rfl]
    refine iff_of_false Bool.false_ne_true ?_
    rintro ⟨text, more, empty, closes⟩
    exact closes.ne_nil (List.append_eq_nil_iff.mp empty.symm).1

/-- A block knows its parts, if the element runs through its content and ends with what is taken for
its end tag. -/
theorem rawParts_token {locator : Locator} {offset : Nat} {element : Element} {start : TagText}
    {content after : List Char} {finish : Option TagText} (unclosed : start.tag.selfClosing = false)
    (named : Text.lower start.tag.name.toList = element.name.toList)
    (runs : element.Runs content)
    (first : ∀ last, finish = some last → element.FirstCloses content last.text after)
    (unfinished : finish = none → after = []) :
    ∃ part tag body last,
      RawParts element ((Piece.block element start content finish).token locator offset)
        part tag body last after := by
  obtain ⟨kind, value, detail⟩ := placeStart_parts locator offset element start
  let contentAt := offset + Text.bytes start.text
  refine ⟨placeStart locator offset element start, placeTag locator offset start.tag,
    placeText locator contentAt .text content,
    finish.map (placeTagText locator (contentAt + Text.bytes content) .tagEnd), ?_⟩
  have body : (placeText locator contentAt .text content).value.toList = content :=
    String.toList_ofList
  refine ⟨?_, ?_, ⟨kind, detail⟩, unclosed, named, placeStart_ext .., ⟨rfl, rfl⟩, ?_, ?_, ?_, ?_⟩
  · cases finish <;> rfl
  · rw [value_token, text_block, ← String.toList_inj, Style.toList_concat, List.flatMap_cons,
      List.flatMap_cons, ← Style.toList_concat, concat_finish, value, body, String.toList_ofList,
      String.toList_ofList, List.append_assoc]
  · rwa [body]
  · rw [concat_finish, Option.isSome_map]
    exact isSome_finish_iff first unfinished
  · intro last same
    obtain ⟨tag, rfl, rfl⟩ := Option.map_eq_some_iff.mp same
    refine ⟨rfl, rfl, ?_⟩
    rw [body, placeTagText, placeText, Token.plain, String.toList_ofList]
    exact first tag rfl
  · exact fun none => unfinished (Option.map_eq_none_iff.mp none)

theorem kind_token {locator : Locator} {offset : Nat} {element other : Element} {start : TagText}
    {content : List Char} {finish : Option TagText}
    (kind : ((Piece.block element start content finish).token locator offset).kind = other.kind) :
    other = element := by
  cases finish <;> cases element <;> cases other <;> first | rfl | cases kind

/-- A piece of the kind of an element is that element, cut off with all of its parts. -/
theorem rawParts_of_cut {c : Char} {rest : List Char} {piece : Piece} {n : Nat} {locator : Locator}
    {offset : Nat} {element : Element} (cut : Cut t c rest piece n)
    (kind : (piece.token locator offset).kind = element.kind) :
    ∃ start tag content finish,
      RawParts element (piece.token locator offset) start tag content finish (rest.drop n) := by
  cases cut with
  | region | endTag | startTag | text => cases element <;> cases kind
  | enclosed kinds => obtain rfl | rfl := kinds <;> cases element <;> cases kind
  | @openBlock _ tag k opens read closed named never =>
    cases kind_token kind
    refine rawParts_token closed ((startTagAt_named read).mp named) (firstCloser?_eq_none never)
      (fun _ some => nomatch some) fun _ => ?_
    rw [← List.drop_drop, List.drop_length]
  | @block _ tag finish k i m l opens read closed named closer last text =>
    cases kind_token kind
    have first := firstCloses_of_firstCloser? closer
    rw [← text, List.drop_drop, ← Nat.add_assoc] at first
    exact rawParts_token closed ((startTagAt_named read).mp named) first.runs
      (fun _ same => Option.some.inj same ▸ first) (fun none => nomatch none)

/-- A start tag that is a piece of its own opens no element with raw text. -/
theorem selfClosing_of_cut {c : Char} {rest : List Char} {piece : Piece} {n : Nat}
    {locator : Locator} {offset : Nat} (cut : Cut t c rest piece n)
    (kind : (piece.token locator offset).kind = .tagStart) :
    ∃ tag, (piece.token locator offset).detail = some tag ∧
      ∀ element : Element, Text.lower tag.name.toList = element.name.toList →
        tag.selfClosing = true := by
  cases cut with
  | region | endTag | text => cases kind
  | enclosed kinds => obtain rfl | rfl := kinds <;> cases kind
  | @startTag tag n opens read unraw =>
    refine ⟨placeTag locator offset tag.tag, rfl, fun element named => ?_⟩
    rcases unraw with closed | unnamed
    · exact closed
    · rw [(startTagAt_named read).mpr named] at unnamed
      cases unnamed
  | @openBlock element => cases element <;> cases kind
  | @block element => cases element <;> cases kind

namespace RawParts

variable {element : Element} {block start : Token} {tag : Tag} {content : Token}
  {finish : Option Token} {after : List Char} {owner : Token}

theorem start_childless (parts : RawParts element block start tag content finish after)
    (slot : Slot) (payload : Payload) (held : start.ext.get? slot = some payload) :
    payload.tokens = [] := by
  rw [parts.type] at held
  cases slot with
  | type =>
    cases element with
    | style => cases held
    | script =>
      obtain ⟨value, -, rfl⟩ := Option.map_eq_some_iff.mp held
      rfl
  | _ => cases held

/-- There is nothing in a block but its parts. -/
theorem within_cases (parts : RawParts element block start tag content finish after)
    (within : Within block owner) :
    owner = block ∨ owner = start ∨ owner = content ∨ finish = some owner := by
  cases within with
  | self => exact .inl rfl
  | @child _ part _ slot payload held mem inside =>
    right
    rw [parts.slots] at held
    cases slot with
    | start =>
      cases held
      cases List.mem_singleton.mp mem
      exact .inl (inside.eq_of_childless parts.start_childless)
    | content =>
      cases held
      cases List.mem_singleton.mp mem
      exact .inr (.inl (inside.eq_of_empty parts.body.2))
    | finish =>
      obtain ⟨last, same, rfl⟩ := Option.map_eq_some_iff.mp held
      cases List.mem_singleton.mp mem
      rw [inside.eq_of_empty (parts.first same).2.1]
      exact .inr (.inr same)
    | type | tokens | styleTokens | ast => cases held

/-- Only the start part of a script has something in its type slot. -/
theorem typed (parts : RawParts element block start tag content finish after)
    (within : Within block owner) (typed : owner.ext.type ≠ none) :
    element = .script ∧ owner = start := by
  rcases parts.within_cases within with rfl | rfl | rfl | last
  · rw [parts.slots] at typed
    exact absurd rfl typed
  · refine ⟨?_, rfl⟩
    rw [parts.type] at typed
    cases element with
    | style => exact absurd rfl typed
    | script => rfl
  · rw [parts.body.2] at typed
    exact absurd rfl typed
  · rw [(parts.first last).2.1] at typed
    exact absurd rfl typed

end RawParts

theorem token_cases (locator : Locator) (offset : Nat) (piece : Piece) :
    (piece.token locator offset).ext = .empty ∨
      ∃ element : Element, (piece.token locator offset).kind = element.kind := by
  cases piece with
  | plain | startTag | endTag => exact .inl rfl
  | block element start content finish =>
    refine .inr ⟨element, ?_⟩
    cases finish <;> rfl

/-- A token of a document has nothing in its slots, or the parts of a block. -/
theorem parts_of_mem {origin : Origin} {source : String} {tokens : List Token} {top : Token}
    (h : tokenize t origin source = .ok tokens) (mem : top ∈ tokens) :
    top.ext = .empty ∨ ∃ element start tag content finish after,
      top.kind = Element.kind element ∧
        RawParts element top start tag content finish after := by
  obtain ⟨before, after, rfl⟩ := List.append_of_mem mem
  obtain ⟨piece, c, rest, n, back, offset, cut, rfl, -⟩ := cut_of_tokenize h
  rcases token_cases _ _ piece with empty | ⟨element, kind⟩
  · exact .inl empty
  · obtain ⟨start, tag, content, finish, parts⟩ := rawParts_of_cut cut kind
    exact .inr ⟨element, start, tag, content, finish, _, kind, parts⟩

/-- A style or script tag that does not close itself opens a block, a block has all of its parts and
ends where its element does, and no token but the start part of a script has a type. -/
theorem rawText_of_tokenize {origin : Origin} {source : String} {tokens : List Token}
    (h : tokenize t origin source = .ok tokens) :
    (∀ token ∈ tokens, token.kind = .tagStart → ∃ tag, token.detail = some tag ∧
      ∀ element : Element, Text.lower tag.name.toList = element.name.toList →
        tag.selfClosing = true) ∧
    (∀ before block after (element : Element), tokens = before ++ block :: after →
      block.kind = element.kind →
      source = Token.concat before ++ block.value ++ Token.concat after ∧
        ∃ start tag content finish,
          RawParts element block start tag content finish (Token.concat after).toList) ∧
    ∀ top ∈ tokens, ∀ owner, Within top owner → owner.ext.type ≠ none →
      top.kind = .scriptBlock ∧ top.ext.token? .start = some owner := by
  refine ⟨?_, ?_, ?_⟩
  · intro token mem kind
    obtain ⟨before, after, rfl⟩ := List.append_of_mem mem
    obtain ⟨piece, c, rest, n, back, offset, cut, rfl, -⟩ := cut_of_tokenize h
    exact selfClosing_of_cut cut kind
  · rintro before block after element rfl kind
    refine ⟨source_of_tokenize h, ?_⟩
    obtain ⟨piece, c, rest, n, back, offset, cut, rfl, -, -, behind, -⟩ := cut_of_tokenize h
    rw [behind]
    exact rawParts_of_cut cut kind
  · intro top mem owner within typed
    rcases parts_of_mem h mem with
      empty | ⟨element, start, tag, content, finish, after, kind, parts⟩
    · rw [within.eq_of_empty empty, empty] at typed
      exact absurd rfl typed
    · obtain ⟨rfl, rfl⟩ := parts.typed within typed
      refine ⟨kind, ?_⟩
      rw [Extensions.token?, parts.slots]
      rfl

/-- A tag that closes itself, a script whose body holds half an end tag, and a style without one. -/
theorem rawText_of_tokenize_halfClosed :
    ∃ before block after start tag content finish,
      tokenize (Template.Adapters.empty.scanner .standard) .zero
        "<STYLE/><script Type=' Text/X '>a</script b</ſCRIPT\n>c<style>d" =
          .ok (before ++ block :: after) ∧
      block.kind = .scriptBlock ∧
      RawParts .script block start tag content finish (Token.concat after).toList ∧
      content.value = "a</script b" ∧ finish.map (·.value) = some "</ſCRIPT\n>" ∧
      start.ext.text? .type = some "text/x" := by
  have seen : (tokenize (Template.Adapters.empty.scanner .standard) .zero
      "<STYLE/><script Type=' Text/X '>a</script b</ſCRIPT\n>c<style>d").toOption.bind
        (fun tokens => tokens[1]?.map fun block =>
          (block.kind, (block.ext.token? .content).map (·.value),
            (block.ext.token? .finish).map (·.value),
            (block.ext.token? .start).bind (·.ext.text? .type))) =
      some (.scriptBlock, some "a</script b", some "</ſCRIPT\n>", some "text/x") := by
    decide +kernel
  obtain ⟨tokens, read, seen⟩ := Outcome.exists_of_toOption_bind seen
  obtain ⟨block, second, seen⟩ := Option.map_eq_some_iff.mp seen
  simp only [Prod.mk.injEq] at seen
  obtain ⟨kind, body, last, type⟩ := seen
  obtain ⟨before, after, rfl⟩ := List.append_of_mem (List.mem_of_getElem? second)
  obtain ⟨-, start, tag, content, finish, parts⟩ :=
    (rawText_of_tokenize read).2.1 before block after .script rfl kind
  refine ⟨before, block, after, start, tag, content, finish, read, kind, parts, ?_⟩
  rw [Extensions.token?, parts.slots] at body last type
  refine ⟨Option.some.inj body, ?_, type⟩
  cases finish <;> exact last

end Mosaic.Markup
