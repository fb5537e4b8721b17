import Mosaic.Proofs.Markup.Cut
import Mosaic.Proofs.Template

/-! What a start tag is known to consist of. Its detail holds every character of the tag, each in
the part that it belongs to, and writes the tag with another inline style by exchanging the value of
the first style attribute and nothing else. -/
namespace Mosaic

/-- Whether this is an attribute, no template region, that is called `name` in any case. -/
def Attr.IsCalled (attr : Attr) (name : String) : Prop :=
  attr.isTemplate = false ∧ Text.lower attr.name.toList = name.toList

/-- An attribute as it is cut out of a tag: blanks, a name, and perhaps a value; or a template
region, which begins with the left delimiter. -/
structure Attr.Spelled (t : Template.Scanner) (attr : Attr) : Prop where
  leading : ∀ c ∈ attr.leading.toList, Text.isBlank c = true
  name : attr.name ≠ ""
  lower : attr.isTemplate = false → attr.nameLower.toList = Text.lower attr.name.toList
  region : attr.isTemplate = true → t.left <+: attr.name.toList ∧ attr.value = none

/-- A tag that is put together to a text, and to the text with another value for its first style
attribute if that has a value. -/
structure Tag.Captures (t : Template.Scanner) (tag : Tag) (text : String) : Prop where
  written : tag.render none = text
  attrs : ∀ attr ∈ tag.attrs, attr.Spelled t
  tail : ∀ c ∈ tag.tail.toList, Text.isBlank c = true
  unstyled : (∀ attr ∈ tag.attrs, ¬ attr.IsCalled "style") → ∀ style, tag.render style = text
  valueless {before after : List Attr} {attr : Attr} : tag.attrs = before ++ attr :: after →
    (∀ other ∈ before, ¬ other.IsCalled "style") → attr.IsCalled "style" → attr.value = none →
    ∀ style, tag.render style = text
  styled {before after : List Attr} {attr : Attr} {value : String} :
    tag.attrs = before ++ attr :: after → (∀ other ∈ before, ¬ other.IsCalled "style") →
    attr.IsCalled "style" → attr.value = some value →
    ∃ front back,
      front = "<" ++ tag.name ++ Tag.renderAttrs none before ++
        (attr.leading ++ attr.name ++ attr.assign ++ attr.quoteText) ∧
      text = front ++ value ++ back ∧
      ∀ style, tag.render (some style) = front ++ style ++ back

namespace Attr.Spelled

variable {t : Template.Scanner} {attr : Attr}

theorem isNamed_iff (h : attr.Spelled t) (name : String) :
    attr.isNamed name = true ↔ attr.IsCalled name := by
  rw [Attr.isNamed, Bool.and_eq_true, Bool.not_eq_true', beq_iff_eq]
  constructor
  · rintro ⟨plain, rfl⟩
    exact ⟨plain, (h.lower plain).symm⟩
  · rintro ⟨plain, called⟩
    refine ⟨plain, ?_⟩
    rw [← String.toList_inj, h.lower plain, called]

/-- The place of a value says nothing of how an attribute is spelled. -/
theorem placed (h : attr.Spelled t) (valueRange : Option Range) :
    Attr.Spelled t { attr with valueRange } := ⟨h.leading, h.name, h.lower, h.region⟩

end Attr.Spelled

namespace Tag

/-- Attributes without a style attribute are written the same for every style. -/
theorem renderAttrs_of_unnamed {attrs : List Attr}
    (unnamed : ∀ attr ∈ attrs, attr.isNamed "style" = false) (style : Option String) :
    renderAttrs style attrs = renderAttrs none attrs := by
  induction attrs with
  | nil => rfl
  | cons attr rest ih =>
    obtain ⟨own, others⟩ := List.forall_mem_cons.mp unnamed
    simp only [renderAttrs, own, Bool.false_eq_true, if_false, ih others]

/-- A style is written for the first style attribute, and for no other. -/
theorem renderAttrs_append {before : List Attr}
    (unnamed : ∀ attr ∈ before, attr.isNamed "style" = false) {attr : Attr}
    (named : attr.isNamed "style" = true) (after : List Attr) (style : Option String) :
    renderAttrs style (before ++ attr :: after) =
      renderAttrs none before ++ attr.render style ++ renderAttrs none after := by
  induction before with
  | nil => simp only [List.nil_append, renderAttrs, named, if_true, String.empty_append]
  | cons first rest ih =>
    obtain ⟨own, others⟩ := List.forall_mem_cons.mp unnamed
    simp only [List.cons_append, renderAttrs, own, Bool.false_eq_true, if_false, ih others,
      String.append_assoc]

/-- What is to be known of the parts of a tag to know how it is written with a style. -/
theorem captures {t : Template.Scanner} {tag : Tag} {text : String}
    (written : tag.render none = text) (attrs : ∀ attr ∈ tag.attrs, attr.Spelled t)
    (tail : ∀ c ∈ tag.tail.toList, Text.isBlank c = true) : tag.Captures t text := by
  have unnamed : ∀ {some : List Attr}, (∀ attr ∈ some, attr ∈ tag.attrs) →
      (∀ attr ∈ some, ¬ attr.IsCalled "style") → ∀ attr ∈ some, attr.isNamed "style" = false := by
    intro some part uncalled attr mem
    rw [Bool.eq_false_iff]
    exact fun named => uncalled attr mem (((attrs attr (part attr mem)).isNamed_iff _).mp named)
  -- the attributes in front of the first style attribute, that one, and the ones behind it
  have split : ∀ {before after : List Attr} {attr : Attr}, tag.attrs = before ++ attr :: after →
      (∀ other ∈ before, ¬ other.IsCalled "style") → attr.IsCalled "style" → ∀ style,
      tag.render style = "<" ++ tag.name ++
        (renderAttrs none before ++ attr.render style ++ renderAttrs none after) ++ tag.tail ++
          (if tag.selfClosing then "/>" else ">") := by
    intro before after attr parts uncalled called style
    have first : ∀ other ∈ before, other ∈ tag.attrs := by
      rw [parts]
      exact fun other mem => List.mem_append_left _ mem
    have inside : attr ∈ tag.attrs := by
      rw [parts]
      exact List.mem_append_right _ List.mem_cons_self
    rw [render, parts, renderAttrs_append (unnamed first uncalled)
      (((attrs attr inside).isNamed_iff _).mpr called)]
  refine ⟨written, attrs, tail, ?_, ?_, ?_⟩
  · intro uncalled style
    rw [← written, render, render, renderAttrs_of_unnamed (unnamed (fun _ mem => mem) uncalled)]
  · intro before after attr parts uncalled called none style
    have same : attr.render style = attr.render Option.none := by simp only [Attr.render, none]
    rw [← written, split parts uncalled called, split parts uncalled called, same]
  · intro before after attr value parts uncalled called valued
    refine ⟨_, attr.quoteText ++ renderAttrs none after ++ tag.tail ++
      (if tag.selfClosing then "/>" else ">"), rfl, ?_, fun style => ?_⟩
    · rw [← written, split parts uncalled called, Markup.render_value valued]
      simp only [Option.getD_none, String.append_assoc]
    · rw [split parts uncalled called, Markup.render_value valued]
      simp only [Option.getD_some, String.append_assoc]

end Tag

namespace Markup

variable {t : Template.Scanner}

/-- A template region begins with the left delimiter. -/
theorem left_prefix_region {c : Char} {rest : List Char} {n : Nat}
    (opens : t.opens (c :: rest) = true) (found : t.scanAfter c rest = some n) :
    t.left <+: c :: rest.take n := by
  have measured := (Template.Scanner.scanAfter_spec opens found).1
  rw [Template.Scanner.opens, Bool.and_eq_true] at opens
  obtain ⟨leftSome, -⟩ := Template.Scanner.ne_nil_of_active opens.1
  obtain ⟨m, behind, last, -⟩ := Template.endsAfter_scan leftSome opens.2 measured
  rw [← List.take_succ_cons, List.prefix_take_iff]
  exact ⟨List.isPrefixOf_iff_prefix.mp opens.2, by omega⟩

theorem spelled_attr {leading : List Char} (blanks : ∀ c ∈ leading, Text.isBlank c = true)
    (c : Char) (more : List Char) (assign : String) (quote : Option Char) (value : Option String) :
    Attr.Spelled t { bareAttr leading (c :: more) with assign, quote, value } := by
  refine ⟨?_, ?_, fun _ => ?_, ?_⟩
  · rwa [bareAttr, String.toList_ofList]
  · intro empty
    rw [← String.toList_inj, bareAttr, String.toList_ofList] at empty
    cases empty
  · simp only [bareAttr, String.toList_ofList]
  · rintro ⟨⟩

theorem attrAt_spelled {leading : List Char} {c : Char} {rest : List Char} {attr : Attr} {n : Nat}
    (blanks : ∀ d ∈ leading, Text.isBlank d = true)
    (h : attrAt t leading c rest = .ok (attr, n)) : attr.Spelled t := by
  unfold attrAt at h
  split at h
  · next opens =>
    split at h
    · cases h
    · next found =>
      cases h
      have bare := spelled_attr (t := t) blanks c (rest.take n) "" none none
      refine ⟨bare.leading, bare.name, ?_, fun _ => ⟨?_, rfl⟩⟩
      · rintro ⟨⟩
      · rw [templateAttr, bareAttr, String.toList_ofList]
        exact left_prefix_region opens found
  · simp only at h
    split at h
    · cases h
      exact spelled_attr blanks c _ "" none none
    · split at h
      · cases h
      · cases h
        exact spelled_attr blanks c _ _ _ _

theorem tagRest_spelled {unclosed : Halt} {s : List Char} {more : TagRest}
    (h : tagRest t unclosed s = .ok more) :
    (∀ attr ∈ more.attrs, attr.Spelled t) ∧ ∀ c ∈ more.tail, Text.isBlank c = true := by
  have blanks : ∀ s : List Char, ∀ c ∈ s.takeWhile Text.isBlank, Text.isBlank c = true :=
    fun s => List.all_eq_true.mp List.all_takeWhile
  fun_induction tagRest t unclosed s generalizing more with
  | case1 => cases h
  | case2 s =>
    cases h
    exact ⟨List.forall_mem_nil _, blanks s⟩
  | case3 s =>
    cases h
    exact ⟨List.forall_mem_nil _, blanks s⟩
  | case4 => cases h
  | case5 => cases h
  | case6 s leading c rest _ _ _ attr n first inner later =>
    rename_i ih
    cases h
    obtain ⟨attrs, tail⟩ := ih later
    exact ⟨List.forall_mem_cons.mpr ⟨attrAt_spelled (blanks s) first, attrs⟩, tail⟩

theorem exists_of_mem_placeAttrs {locator : Locator} {offset : Nat} {attrs : List Attr}
    {attr : Attr} (mem : attr ∈ placeAttrs locator offset attrs) :
    ∃ original ∈ attrs, ∃ valueRange, attr = { original with valueRange } := by
  induction attrs generalizing offset with
  | nil => cases mem
  | cons first rest ih =>
    rcases List.mem_cons.mp mem with rfl | mem
    · exact ⟨first, List.mem_cons_self, _, rfl⟩
    · obtain ⟨original, inside, same⟩ := ih mem
      exact ⟨original, List.mem_cons_of_mem first inside, same⟩

/-- A start tag knows its text wherever it is placed. -/
theorem startTagAt_captures {rest : List Char} {tag : TagText} {n : Nat}
    (h : startTagAt t rest = .ok (tag, n)) (locator : Locator) (offset : Nat) :
    (placeTag locator offset tag.tag).Captures t (String.ofList tag.text) := by
  have opens := startTagAt_opens h
  unfold startTagAt at h
  simp only at h
  split at h
  · cases h
  · next more read =>
    cases h
    obtain ⟨attrs, tail⟩ := tagRest_spelled read
    refine Tag.captures ?_ ?_ ?_
    · rw [render_placeTag]
      exact opens
    · intro attr mem
      obtain ⟨original, inside, valueRange, rfl⟩ := exists_of_mem_placeAttrs mem
      exact (attrs original inside).placed valueRange
    · rwa [placeTag, String.toList_ofList]

/-- A start tag is a token of its own or the start part of a block. -/
theorem startTag_of_cut {c : Char} {rest : List Char} {piece : Piece} {n : Nat}
    {locator : Locator} {offset : Nat} {token : Token} (cut : Cut t c rest piece n)
    (here : token = piece.token locator offset ∧ token.kind = .tagStart ∨
      (piece.token locator offset).ext.token? .start = some token) :
    ∃ tag n, startTagAt t rest = .ok (tag, n) ∧ token.value = String.ofList tag.text ∧
      token.detail = some (placeTag locator offset tag.tag) := by
  cases cut with
  | region | endTag | text =>
    rcases here with ⟨rfl, kind⟩ | part
    · cases kind
    · cases part
  | enclosed kinds =>
    rcases here with ⟨rfl, kind⟩ | part
    · obtain rfl | rfl := kinds <;> cases kind
    · cases part
  | @startTag tag n opens read unraw =>
    rcases here with ⟨rfl, kind⟩ | part
    · exact ⟨tag, n, read, rfl, rfl⟩
    · cases part
  | @openBlock element tag n opens read =>
    rcases here with ⟨rfl, kind⟩ | part
    · cases element <;> cases kind
    · cases part
      exact ⟨tag, n, read, (placeStart_parts locator offset element tag).2⟩
  | @block element tag finish n i m k opens read =>
    rcases here with ⟨rfl, kind⟩ | part
    · cases element <;> cases kind
    · cases part
      exact ⟨tag, n, read, (placeStart_parts locator offset element tag).2⟩

/-- Every start tag of a document, also the one of a block, has a detail that holds all of its
text. -/
theorem captures_of_tokenize {origin : Origin} {source : String} {tokens : List Token}
    {token : Token} (h : tokenize t origin source = .ok tokens)
    (here : (token ∈ tokens ∧ token.kind = .tagStart) ∨
      ∃ block ∈ tokens, block.ext.token? .start = some token) :
    ∃ tag, token.detail = some tag ∧ tag.Captures t token.value := by
  have own : ∃ top ∈ tokens, (token = top ∧ token.kind = .tagStart) ∨
      top.ext.token? .start = some token := by
    rcases here with ⟨mem, kind⟩ | ⟨block, mem, part⟩
    · exact ⟨token, mem, .inl ⟨rfl, kind⟩⟩
    · exact ⟨block, mem, .inr part⟩
  obtain ⟨top, mem, part⟩ := own
  obtain ⟨before, after, rfl⟩ := List.append_of_mem mem
  obtain ⟨piece, c, rest, n, back, offset, cut, rfl, -⟩ := cut_of_tokenize h
  obtain ⟨tag, n, read, value, detail⟩ := startTag_of_cut cut part
  refine ⟨_, detail, ?_⟩
  rw [value]
  exact startTagAt_captures read _ _

/-- A region in the place of an attribute and one in a value, and two inline styles. -/
theorem captures_of_tokenize_twoStyles :
    ∃ tokens token tag, tokenize (Template.Adapters.empty.scanner .standard) .zero
        "<p \x7b%x%\x7d Style = 'a\x7b%>%\x7db' style=c/>" = .ok tokens ∧
      token ∈ tokens ∧ token.kind = .tagStart ∧ token.detail = some tag ∧
      tag.Captures (Template.Adapters.empty.scanner .standard) token.value ∧
      tag.render (some "w") = "<p \x7b%x%\x7d Style = 'w' style=c/>" := by
  have seen : (tokenize (Template.Adapters.empty.scanner .standard) .zero
      "<p \x7b%x%\x7d Style = 'a\x7b%>%\x7db' style=c/>").toOption.bind (fun tokens =>
        tokens[0]?.bind fun token => token.detail.map fun tag =>
          (token.kind, tag.render (some "w"))) =
      some (.tagStart, "<p \x7b%x%\x7d Style = 'w' style=c/>") := by
    decide +kernel
  obtain ⟨tokens, read, seen⟩ := Outcome.exists_of_toOption_bind seen
  obtain ⟨token, first, seen⟩ := Option.bind_eq_some_iff.mp seen
  obtain ⟨tag, detail, same⟩ := Option.map_eq_some_iff.mp seen
  obtain ⟨kind, restyled⟩ := Prod.mk.inj same
  have mem := List.mem_of_getElem? first
  obtain ⟨tag', detail', captures⟩ := captures_of_tokenize read (.inl ⟨mem, kind⟩)
  cases detail.symm.trans detail'
  exact ⟨tokens, token, tag, read, mem, kind, detail, captures, restyled⟩

end Markup

end Mosaic
