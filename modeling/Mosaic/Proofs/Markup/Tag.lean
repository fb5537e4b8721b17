import Mosaic.Markup.Tokenize
import Mosaic.Proofs.Outcome
import Mosaic.Proofs.Text

/-! Tags keep every character. The text that a tag is cut out of is what its parts are put
together to, so a start tag is written back from its parts letter by letter. -/
namespace Mosaic.Markup

open Outcome

theorem quotedLength_quote {t : Template.Scanner} {quote : Char} {unclosed : Halt} {skip : Nat}
    {s : List Char} {n : Nat} (h : quotedLength t quote unclosed skip s = .ok n) :
    s[n]? = some quote := by
  induction s generalizing skip n with
  | nil => cases skip <;> cases h
  | cons c rest ih =>
    cases skip with
    | succ skip =>
      obtain ⟨m, hm, rfl⟩ := map_eq_ok.mp h
      exact ih hm
    | zero =>
      simp only [quotedLength] at h
      split at h
      · split at h
        · cases h
        · obtain ⟨m, hm, rfl⟩ := map_eq_ok.mp h
          exact ih hm
      · split at h
        · cases h
          simp only [List.getElem?_cons_zero, Option.some.injEq]
          assumption
        · obtain ⟨m, hm, rfl⟩ := map_eq_ok.mp h
          exact ih hm

theorem valueAt_text {t : Template.Scanner} {s value : List Char} {quote : Option Char} {n : Nat}
    (h : valueAt t s = .ok (quote, value, n)) :
    quote.toList ++ value ++ quote.toList = s.take n := by
  cases s with
  | nil => cases h; rfl
  | cons c rest =>
    simp only [valueAt] at h
    split at h
    · obtain ⟨m, hm, heq⟩ := map_eq_ok.mp h
      cases heq
      have closing : rest[m]? = some c := quotedLength_quote hm
      rw [List.take_succ_cons, List.take_add_one, closing]
      rfl
    · obtain ⟨m, hm, heq⟩ := map_eq_ok.mp h
      cases heq
      simp only [Option.toList_none, List.nil_append, List.append_nil]

theorem toList_quoteText (attr : Attr) : attr.quoteText.toList = attr.quote.toList := by
  unfold Attr.quoteText
  cases attr.quote with
  | none => rfl
  | some quote => exact String.toList_singleton quote

theorem toList_render (attr : Attr) : (attr.render none).toList =
    attr.leading.toList ++ attr.name.toList ++ attr.assign.toList ++
      match attr.value with
      | some value => attr.quote.toList ++ value.toList ++ attr.quote.toList
      | none => [] := by
  unfold Attr.render
  cases attr.value with
  | none => simp only [String.toList_append, String.toList_empty]
  | some value => simp only [String.toList_append, toList_quoteText, Option.getD_none]

/-- An attribute is written back as the text it was read from. -/
theorem attrAt_text {t : Template.Scanner} {leading : List Char} {c : Char} {rest : List Char}
    {attr : Attr} {n : Nat} (h : attrAt t leading c rest = .ok (attr, n)) :
    (attr.render none).toList = leading ++ c :: rest.take n := by
  unfold attrAt at h
  split at h
  · split at h
    · cases h
    · cases h
      simp only [toList_render, templateAttr, bareAttr, String.toList_ofList, String.toList_empty,
        List.append_nil]
  · simp only at h
    split at h
    · cases h
      simp only [toList_render, bareAttr, String.toList_ofList, String.toList_empty,
        List.append_nil]
    · split at h
      · cases h
      · next quote value m hvalue =>
        cases h
        have cut := valueAt_text hvalue
        simp only [toList_render, bareAttr, String.toList_ofList, cut, List.take_add,
          List.append_assoc, List.cons_append]

def closing (selfClosing : Bool) : List Char := if selfClosing then ['/', '>'] else ['>']

theorem renderAttrs_cons (attr : Attr) (rest : List Attr) :
    Tag.renderAttrs none (attr :: rest) = attr.render none ++ Tag.renderAttrs none rest := by
  simp only [Tag.renderAttrs, ite_self]

theorem take_behind_blanks {s rest : List Char} (h : s.dropWhile Text.isBlank = rest) (n : Nat) :
    s.take ((s.takeWhile Text.isBlank).length + n) = s.takeWhile Text.isBlank ++ rest.take n := by
  have whole : s = s.takeWhile Text.isBlank ++ rest := by
    rw [← h, List.takeWhile_append_dropWhile]
  calc s.take ((s.takeWhile Text.isBlank).length + n)
      = (s.takeWhile Text.isBlank ++ rest).take ((s.takeWhile Text.isBlank).length + n) := by
        rw [← whole]
    _ = s.takeWhile Text.isBlank ++ rest.take n := List.take_length_add_append n

theorem tagRest_text {t : Template.Scanner} {unclosed : Halt} {s : List Char} {more : TagRest}
    (h : tagRest t unclosed s = .ok more) :
    (Tag.renderAttrs none more.attrs).toList ++ more.tail ++ closing more.selfClosing =
      s.take more.length := by
  fun_induction tagRest t unclosed s generalizing more with
  | case1 => cases h
  | case2 s leading tail =>
    rename_i hs
    cases h
    rw [take_behind_blanks hs]
    rfl
  | case3 s leading tail =>
    rename_i hs
    cases h
    rw [take_behind_blanks hs]
    rfl
  | case4 => cases h
  | case5 => cases h
  | case6 s leading c rest _ _ hs attr n hattr inner hinner =>
    rename_i ih
    cases h
    have first : (attr.render none).toList = s.takeWhile Text.isBlank ++ c :: rest.take n :=
      attrAt_text hattr
    have others := ih hinner
    simp only [renderAttrs_cons, String.toList_append, first, List.append_assoc] at others ⊢
    rw [others, Nat.add_assoc, Nat.add_assoc, take_behind_blanks hs, Nat.add_comm 1,
      List.take_succ_cons, List.take_add]
    rfl

/-- A start tag is cut out of the text whole, and is written back as that. -/
theorem startTagAt_text {t : Template.Scanner} {rest : List Char} {tag : TagText} {n : Nat}
    (h : startTagAt t rest = .ok (tag, n)) :
    tag.text = '<' :: rest.take n ∧ (tag.tag.render none).toList = tag.text := by
  unfold startTagAt at h
  simp only at h
  split at h
  · cases h
  · next more hmore =>
    cases h
    refine ⟨rfl, ?_⟩
    have behind := tagRest_text hmore
    have bracket : (if more.selfClosing then "/>" else ">").toList = closing more.selfClosing := by
      cases more.selfClosing <;> rfl
    simp only [Tag.render, String.toList_append, String.toList_ofList, bracket]
    rw [List.take_add, ← behind]
    simp only [List.append_assoc]
    rfl

theorem render_placed (attr : Attr) (valueRange : Option Range) (style : Option String) :
    Attr.render { attr with valueRange } style = attr.render style := rfl

theorem renderAttrs_placeAttrs (locator : Locator) (offset : Nat) (attrs : List Attr)
    (style : Option String) :
    Tag.renderAttrs style (placeAttrs locator offset attrs) = Tag.renderAttrs style attrs := by
  induction attrs generalizing offset style with
  | nil => rfl
  | cons attr rest ih =>
    simp only [placeAttrs, Tag.renderAttrs, ih, render_placed]
    rfl

theorem render_placeTag (locator : Locator) (offset : Nat) (tag : Tag) (style : Option String) :
    (placeTag locator offset tag).render style = tag.render style := by
  simp only [Tag.render, placeTag, renderAttrs_placeAttrs]
  rfl

theorem find?_placeAttrs (locator : Locator) (name : String) (attrs : List Attr) (offset : Nat) :
    ((placeAttrs locator offset attrs).find? (·.isNamed name)).bind (·.value) =
      (attrs.find? (·.isNamed name)).bind (·.value) := by
  induction attrs generalizing offset with
  | nil => rfl
  | cons attr rest ih =>
    rw [placeAttrs, List.find?_cons, List.find?_cons]
    have same : Attr.isNamed { attr with
        valueRange := attr.value.map fun value => locator.range (offset + valueOffset attr)
          (offset + valueOffset attr + Text.bytes value.toList) } name = attr.isNamed name := rfl
    rw [same]
    cases attr.isNamed name with
    | true => rfl
    | false => exact ih _

theorem attrValue?_placeTag (locator : Locator) (offset : Nat) (tag : Tag) (name : String) :
    (placeTag locator offset tag).attrValue? name = tag.attrValue? name :=
  find?_placeAttrs locator name tag.attrs _

theorem declaredType?_placeTag (locator : Locator) (offset : Nat) (tag : Tag) :
    declaredType? (placeTag locator offset tag) = declaredType? tag := by
  rw [declaredType?, attrValue?_placeTag, declaredType?]

theorem render_value {attr : Attr} {value : String} (h : attr.value = some value)
    (style : Option String) :
    attr.render style = (attr.leading ++ attr.name ++ attr.assign ++ attr.quoteText) ++
      style.getD value ++ attr.quoteText := by
  simp only [Attr.render, h, String.append_assoc]

/-- The first style attribute, if it has a value: only its value depends on what is written for
it, and where the value stands is where it is written. -/
theorem renderAttrs_around {locator : Locator} {offset : Nat} {attrs : List Attr} {attr : Attr}
    {value : String}
    (named : (placeAttrs locator offset attrs).find? (·.isNamed "style") = some attr)
    (valued : attr.value = some value) :
    ∃ front back : String,
      (∀ style, Tag.renderAttrs style attrs = front ++ style.getD value ++ back) ∧
      attr.valueRange = some (locator.range (offset + Text.bytes front.toList)
        (offset + Text.bytes front.toList + Text.bytes value.toList)) := by
  induction attrs generalizing offset with
  | nil => cases named
  | cons first rest ih =>
    simp only [placeAttrs, List.find?_cons] at named
    split at named
    · next isStyle =>
      cases named
      have self : first.isNamed "style" = true := isStyle
      have own : first.value = some value := valued
      refine ⟨first.leading ++ first.name ++ first.assign ++ first.quoteText,
        first.quoteText ++ Tag.renderAttrs none rest, fun style => ?_, ?_⟩
      · simp only [Tag.renderAttrs, self, if_true, render_value own, String.append_assoc]
      · simp only [own, Option.map_some, valueOffset]
    · next notStyle =>
      have self : first.isNamed "style" = false := notStyle
      obtain ⟨front, back, written, placed⟩ := ih named
      refine ⟨first.render none ++ front, back, fun style => ?_, ?_⟩
      · simp only [Tag.renderAttrs, self, Bool.false_eq_true, if_false, written,
          String.append_assoc]
      · simp only [placed, String.toList_append, Text.bytes_append, Nat.add_assoc]

/-- A start tag with an inline style: only the value of the style depends on what is written for
it, and where the value stands is where it is written. -/
theorem render_around {locator : Locator} {offset : Nat} {tag : Tag} {attr : Attr} {value : String}
    (named : (placeTag locator offset tag).attr? "style" = some attr)
    (valued : attr.value = some value) :
    ∃ front back : String,
      (∀ style, tag.render style = front ++ style.getD value ++ back) ∧
      attr.valueRange = some (locator.range (offset + Text.bytes front.toList)
        (offset + Text.bytes front.toList + Text.bytes value.toList)) := by
  obtain ⟨front, back, written, placed⟩ := renderAttrs_around named valued
  refine ⟨"<" ++ tag.name ++ front,
    back ++ tag.tail ++ (if tag.selfClosing then "/>" else ">"), fun style => ?_, ?_⟩
  · simp only [Tag.render, written, String.append_assoc]
  · have bracket : Text.bytes "<".toList = 1 := by decide
    simp only [placed, String.toList_append, Text.bytes_append, bracket, Nat.add_assoc]

theorem renderAttrs_of_mem {locator : Locator} {offset : Nat} {attrs : List Attr} {attr : Attr}
    {value : String} (mem : attr ∈ placeAttrs locator offset attrs)
    (valued : attr.value = some value) :
    ∃ front back : String, Tag.renderAttrs none attrs = front ++ value ++ back ∧
      attr.valueRange = some (locator.range (offset + Text.bytes front.toList)
        (offset + Text.bytes front.toList + Text.bytes value.toList)) := by
  induction attrs generalizing offset with
  | nil => cases mem
  | cons first rest ih =>
    rcases List.mem_cons.mp mem with rfl | mem
    · have own : first.value = some value := valued
      refine ⟨first.leading ++ first.name ++ first.assign ++ first.quoteText,
        first.quoteText ++ Tag.renderAttrs none rest, ?_, ?_⟩
      · simp only [renderAttrs_cons, render_value own, Option.getD_none, String.append_assoc]
      · simp only [own, Option.map_some, valueOffset]
    · obtain ⟨front, back, written, placed⟩ := ih mem
      refine ⟨first.render none ++ front, back, ?_, ?_⟩
      · simp only [renderAttrs_cons, written, String.append_assoc]
      · simp only [placed, String.toList_append, Text.bytes_append, Nat.add_assoc]

/-- The place that a tag gives for the value of an attribute is where the value is written, behind
the bracket that opens the tag. -/
theorem render_inside {locator : Locator} {offset : Nat} {tag : Tag} {attr : Attr} {value : String}
    (mem : attr ∈ (placeTag locator offset tag).attrs) (valued : attr.value = some value) :
    ∃ front back : String, tag.render none = "<" ++ front ++ value ++ back ∧
      attr.valueRange = some (locator.range (offset + Text.bytes ("<" ++ front).toList)
        (offset + Text.bytes ("<" ++ front).toList + Text.bytes value.toList)) := by
  obtain ⟨front, back, written, placed⟩ := renderAttrs_of_mem mem valued
  refine ⟨tag.name ++ front,
    back ++ tag.tail ++ (if tag.selfClosing then "/>" else ">"), ?_, ?_⟩
  · simp only [Tag.render, written, String.append_assoc]
  · have bracket : Text.bytes "<".toList = 1 := by decide
    simp only [placed, String.toList_append, Text.bytes_append, bracket, Nat.add_assoc]

theorem render_of_mem {locator : Locator} {offset : Nat} {tag : Tag} {attr : Attr} {value : String}
    (mem : attr ∈ (placeTag locator offset tag).attrs) (valued : attr.value = some value) :
    ∃ front back : String, tag.render none = front ++ value ++ back ∧
      attr.valueRange = some (locator.range (offset + Text.bytes front.toList)
        (offset + Text.bytes front.toList + Text.bytes value.toList)) := by
  obtain ⟨front, back, written, placed⟩ := render_inside mem valued
  exact ⟨"<" ++ front, back, written, placed⟩

theorem endTagAt_text {t : Template.Scanner} {rest : List Char} {tag : TagText} {n : Nat}
    (h : endTagAt t rest = .ok (tag, n)) : tag.text = '<' :: rest.take n := by
  unfold endTagAt at h
  simp only at h
  split at h
  · cases h
  · cases h
    rfl

theorem endTagAt_halts {t : Template.Scanner} {rest : List Char} {halt : Halt}
    (h : endTagAt t rest = .error halt) : halt = ⟨.unclosedEndTag, '<' :: rest⟩ := by
  unfold endTagAt at h
  simp only at h
  split at h
  · cases h
    rfl
  · cases h

theorem nameLength_le (t : Template.Scanner) (before after : List Char) :
    nameLength t (before ++ '>' :: after) ≤ before.length := by
  induction before with
  | nil =>
    have ends : endsName t ('>' :: after) = true := by simp [endsName]
    simp only [List.nil_append, nameLength, ends, if_true, List.length_nil, Nat.le_refl]
  | cons c rest ih =>
    simp only [List.cons_append, nameLength, List.length_cons]
    split
    · exact Nat.zero_le _
    · exact Nat.succ_le_succ ih

theorem endTagAt_bracket (t : Template.Scanner) {before : List Char} (after : List Char)
    (h : '>' ∉ before) :
    ∃ tag, endTagAt t ('/' :: (before ++ '>' :: after)) = .ok (tag, before.length + 2) := by
  have short := nameLength_le t before after
  have found : Text.endOf? ['>']
      ((before ++ '>' :: after).drop (nameLength t (before ++ '>' :: after))) =
      some (before.length - nameLength t (before ++ '>' :: after) + 1) := by
    rw [List.drop_append_of_le_length short, Text.endOf?_first]
    · rw [List.length_drop]
    · exact fun mem => h (List.mem_of_mem_drop mem)
  unfold endTagAt
  simp only [List.drop_succ_cons, List.drop_zero, found]
  refine ⟨_, congrArg Except.ok (Prod.ext rfl ?_)⟩
  simp only
  omega

end Mosaic.Markup
