import Mosaic.Proofs.Bytewise.Markup.Cursor
import Mosaic.Proofs.Markup.RawText

/-! Runs of text. A document is text where nothing else begins, and a run of it ends only where
something does. The body of a style or script element is no such run: it is not read as markup. -/
namespace Mosaic.Markup

variable {t : Template.Scanner}

/-- A place where nothing but text begins. -/
structure Plain (t : Template.Scanner) (s : List Char) : Prop where
  region : t.left ≠ [] → t.right ≠ [] → ¬ t.left <+: s
  declaration : ¬ ['<', '!'] <+: s
  instruction : ¬ ['<', '?'] <+: s
  endTag {c : Char} : c.isAlpha = true → ¬ ['<', '/', c] <+: s
  startTag {c : Char} : c.isAlpha = true → ¬ ['<', c] <+: s

/-- A run of text with `behind` after it: nothing else begins at any of its characters, and it does
not go on. -/
structure TextRun (t : Template.Scanner) (text behind : List Char) : Prop where
  nonempty : text ≠ []
  plain {front back : List Char} : text = front ++ back → back ≠ [] → Plain t (back ++ behind)
  maximal : behind = [] ∨ ¬ Plain t behind

theorem opensEndTag_iff {s : List Char} :
    opensEndTag s = true ↔ ∃ c, c.isAlpha = true ∧ ['<', '/', c] <+: s := by
  constructor
  · intro opens
    unfold opensEndTag at opens
    split at opens
    · next c rest => exact ⟨c, opens, rest, rfl⟩
    · cases opens
  · rintro ⟨c, letter, rest, rfl⟩
    exact letter

theorem opensStartTag_iff {s : List Char} :
    opensStartTag s = true ↔ ∃ c, c.isAlpha = true ∧ ['<', c] <+: s := by
  constructor
  · intro opens
    unfold opensStartTag at opens
    split at opens
    · next c rest => exact ⟨c, opens, rest, rfl⟩
    · cases opens
  · rintro ⟨c, letter, rest, rfl⟩
    exact letter

theorem opens_iff {s : List Char} :
    t.opens s = true ↔ t.left ≠ [] ∧ t.right ≠ [] ∧ t.left <+: s := by
  simp only [Template.Scanner.opens, Template.Scanner.active, Bool.and_eq_true, Bool.not_eq_true',
    List.isEmpty_eq_false_iff, List.isPrefixOf_iff_prefix, and_assoc]

theorem plain_iff {s : List Char} : Plain t s ↔ opensConstruct t s = false := by
  rw [← Bool.not_eq_true, opensConstruct]
  simp only [Bool.or_eq_true, opens_iff, List.isPrefixOf_iff_prefix, opensEndTag_iff,
    opensStartTag_iff, not_or, not_and, not_exists]
  constructor
  · intro h
    exact ⟨⟨⟨⟨h.region, h.declaration⟩, h.instruction⟩, fun _ => h.endTag⟩, fun _ => h.startTag⟩
  · rintro ⟨⟨⟨⟨region, declaration⟩, instruction⟩, endTag⟩, startTag⟩
    exact ⟨region, declaration, instruction, endTag _, startTag _⟩

theorem plain_of_lt_textLength {s : List Char} {k : Nat} (h : k < textLength t s) :
    Plain t (s.drop k) := by
  induction s generalizing k with
  | nil => cases h
  | cons c rest ih =>
    rw [textLength] at h
    split at h
    · cases h
    · next plain =>
      cases k with
      | zero => exact plain_iff.mpr (Bool.eq_false_iff.mpr plain)
      | succ k => exact ih (Nat.lt_of_succ_lt_succ h)

theorem drop_textLength (t : Template.Scanner) (s : List Char) :
    s.drop (textLength t s) = [] ∨ ¬ Plain t (s.drop (textLength t s)) := by
  induction s with
  | nil => exact .inl rfl
  | cons c rest ih =>
    rw [textLength]
    split
    · next construct =>
      right
      rw [plain_iff, Bool.not_eq_false]
      exact construct
    · exact ih

/-- Text is measured up to where its run ends. -/
theorem textRun_of_plain {c : Char} {rest : List Char}
    (plain : opensConstruct t (c :: rest) = false) :
    TextRun t (c :: rest.take (textLength t rest)) (rest.drop (textLength t rest)) := by
  refine ⟨List.cons_ne_nil _ _, ?_, drop_textLength t rest⟩
  intro front back cut some
  have whole : c :: rest = front ++ (back ++ rest.drop (textLength t rest)) := by
    rw [← List.append_assoc, ← cut, List.cons_append, List.take_append_drop]
  cases front with
  | nil =>
    rw [List.nil_append] at whole
    rw [← whole]
    exact plain_iff.mpr plain
  | cons d front =>
    rw [List.cons_append] at cut whole
    obtain ⟨-, cut⟩ := List.cons.inj cut
    obtain ⟨-, whole⟩ := List.cons.inj whole
    have before : front.length < textLength t rest := by
      have size := congrArg List.length cut
      have inside := List.length_pos_iff.mpr some
      rw [List.length_append, List.length_take] at size
      omega
    have there := plain_of_lt_textLength before
    rwa [whole, List.drop_left] at there

theorem text_of_cut {c : Char} {rest : List Char} {piece : Piece} {n : Nat} {locator : Locator}
    {offset : Nat} (cut : Cut t c rest piece n)
    (kind : (piece.token locator offset).kind = .text) :
    n = textLength t rest ∧ opensConstruct t (c :: rest) = false := by
  cases cut with
  | region | endTag | startTag => cases kind
  | enclosed kinds => obtain rfl | rfl := kinds <;> cases kind
  | @openBlock element => cases element <;> cases kind
  | @block element => cases element <;> cases kind
  | text plain => exact ⟨rfl, plain⟩

theorem textRun_of_split {origin : Origin} {source : String} {before after : List Token}
    {token : Token} (h : tokenize t origin source = .ok (before ++ token :: after))
    (kind : token.kind = .text) :
    TextRun t token.value.toList (Token.concat after).toList ∧
      Bytewise.Markup.textEnd t source.toList (Text.bytes (Token.concat before).toList) =
        .ok (Text.bytes (Token.concat before ++ token.value).toList) := by
  obtain ⟨piece, c, rest, n, back, offset, cut, rfl, whole, own, behind, -⟩ := cut_of_tokenize h
  obtain ⟨rfl, plain⟩ := text_of_cut cut kind
  rw [String.toList_append, value_token, String.toList_ofList, own, behind, Text.bytes_append]
  exact ⟨textRun_of_plain plain, Bytewise.Markup.textEnd_eq ⟨_, whole, rfl⟩ plain⟩

/-- Text does not go on behind a run of it. -/
theorem TextRun.not_text {text more behind : List Char} (run : TextRun t text (more ++ behind)) :
    ¬ TextRun t more behind := by
  intro next
  rcases run.maximal with nothing | ends
  · exact next.nonempty (List.append_eq_nil_iff.mp nothing).1
  · exact ends (next.plain (List.nil_append _).symm next.nonempty)

/-- A text in a document is a run of text: it hides nothing, and no other text follows it. The scan
that jumps from one bracket or left delimiter to the next ends where it does. There is no other text
but in the bodies of style and script elements. -/
theorem textRun_of_tokenize {origin : Origin} {source : String} {tokens : List Token}
    (h : tokenize t origin source = .ok tokens) :
    (∀ before first second after, tokens = before ++ first :: second :: after →
      first.kind = .text → second.kind ≠ .text) ∧
    (∀ before token after, tokens = before ++ token :: after → token.kind = .text →
      source = Token.concat before ++ token.value ++ Token.concat after ∧
      TextRun t token.value.toList (Token.concat after).toList ∧
      Bytewise.Markup.textEnd t source.toList (Text.bytes (Token.concat before).toList) =
        .ok (Text.bytes (Token.concat before ++ token.value).toList)) ∧
    ∀ top ∈ tokens, ∀ owner, Within top owner → owner.kind = .text → owner = top ∨
      ∃ element : Element, top.kind = element.kind ∧ top.ext.token? .content = some owner := by
  refine ⟨?_, ?_, ?_⟩
  · rintro before first second after rfl kind text
    have next : tokenize t origin source = .ok (before ++ [first] ++ second :: after) := by
      rw [← List.append_cons]
      exact h
    have run := (textRun_of_split h kind).1
    rw [Style.toList_concat, List.flatMap_cons, ← Style.toList_concat] at run
    exact run.not_text (textRun_of_split next text).1
  · rintro before token after rfl kind
    exact ⟨source_of_tokenize h, textRun_of_split h kind⟩
  · intro top mem owner within text
    rcases parts_of_mem h mem with
      empty | ⟨element, start, tag, content, finish, after, kind, parts⟩
    · exact .inl (within.eq_of_empty empty)
    · rcases parts.within_cases within with same | rfl | rfl | last
      · exact .inl same
      · rw [parts.opening.1] at text
        cases text
      · refine .inr ⟨element, kind, ?_⟩
        rw [Extensions.token?, parts.slots]
        rfl
      · rw [(parts.first last).1] at text
        cases text

/-- Brackets that open nothing, the last of them in front of a delimiter that begins with one. -/
theorem textRun_of_tokenize_strayBrackets :
    ∃ token after, tokenize (Template.Adapters.empty.scanner ⟨"", "<\x7b", "\x7d>", none⟩) .zero
        "1 < 2 </ 3 <<\x7bx\x7d>" = .ok (token :: after) ∧ token.kind = .text ∧
      token.value = "1 < 2 </ 3 <" ∧
      TextRun (Template.Adapters.empty.scanner ⟨"", "<\x7b", "\x7d>", none⟩) token.value.toList
        (Token.concat after).toList := by
  have seen : (tokenize (Template.Adapters.empty.scanner ⟨"", "<\x7b", "\x7d>", none⟩) .zero
      "1 < 2 </ 3 <<\x7bx\x7d>").toOption.bind (fun tokens =>
        tokens.head?.map fun token => (token.kind, token.value)) =
      some (.text, "1 < 2 </ 3 <") := by
    decide +kernel
  obtain ⟨tokens, read, seen⟩ := Outcome.exists_of_toOption_bind seen
  obtain ⟨token, first, seen⟩ := Option.map_eq_some_iff.mp seen
  obtain ⟨kind, value⟩ := Prod.mk.inj seen
  obtain ⟨after, rfl⟩ := List.head?_eq_some_iff.mp first
  obtain ⟨-, run, -⟩ := (textRun_of_tokenize read).2.1 [] token after rfl kind
  exact ⟨token, after, read, kind, value, run⟩

end Mosaic.Markup
