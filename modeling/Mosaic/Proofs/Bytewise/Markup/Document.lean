import Mosaic.Proofs.Bytewise.Markup.Tag

/-! A markup document read with a cursor in bytes, piece by piece: the tokens are those of the
pieces that are cut out by characters, and so are the failures. -/
namespace Mosaic.Bytewise.Markup

open Mosaic.Markup Outcome

section Readers

variable (t : Template.Scanner) (origin : Origin) (source : List Char)

/-- The first and the last byte of the first end tag of an element from byte `stop` on, where
`rest` stands. -/
def closerBounds (element : Element) (stop : Nat) (rest : List Char) : Option (Nat × Nat) :=
  (firstCloser? element rest).map fun (i, n) =>
    (stop + Text.bytes (rest.take i), stop + Text.bytes (rest.take (i + n)))

/-- The start part of a script with the type that it declares. -/
def typed (element : Element) (tag : Tag) (start : Token) : Token :=
  match element, declaredType? tag with
  | .script, some declared => start.attach .type (.text declared)
  | _, _ => start

/-- The style or script element whose start tag is `tag`, from byte `pos` to before byte `stop`. -/
def block (element : Element) (tag : Tag) (start : Token) (pos stop : Nat) :
    Checked (Token × Nat) := do
  let rest ← suffixAt source stop
  let bounds := closerBounds element stop rest
  let contentEnd := (bounds.map (·.1)).getD (Text.bytes source)
  let blockEnd := (bounds.map (·.2)).getD contentEnd
  let plain ← token origin source element.kind pos blockEnd
  let content ← token origin source .text stop contentEnd
  let block := plain |>.attach .start (.token (typed element tag start))
    |>.attach .content (.token content)
  match bounds with
  | some (opening, _) =>
    let finish ← endTag t origin source pos opening
    return (block.attach .finish (.token finish), blockEnd)
  | none => return (block, blockEnd)

/-- The start tag or the element at byte `pos`, and where it ends. -/
def element (pos : Nat) : Checked (Token × Nat) := do
  let (tag, stop) ← startTag t origin source pos
  let plain ← token origin source .tagStart pos stop
  let start := { plain with detail := some tag }
  match if tag.selfClosing then none else Element.ofName? tag.nameLower with
  | none => return (start, stop)
  | some element => block t origin source element tag start pos stop

def push (kind : TokenKind) (tokens : List Token) (pos stop : Nat) :
    Checked (Step (List Token) (List Token)) := do
  let token ← token origin source kind pos stop
  return .go stop (tokens ++ [token])

def pieceRound (tokens : List Token) (pos : Nat) : Checked (Step (List Token) (List Token)) := do
  let rest ← suffixAt source pos
  if t.opens rest then
    push origin source .template tokens pos (← templateEnd t origin source pos)
  else if ['<', '!', '-', '-'].isPrefixOf rest then
    push origin source .comment tokens pos
      (← findAfter origin source pos (pos + 4) ['-', '-', '>'] .unclosedComment)
  else if ['<', '!'].isPrefixOf rest ∨ ['<', '?'].isPrefixOf rest then
    push origin source .declaration tokens pos
      (← findAfter origin source pos (pos + 2) ['>'] .unclosedDeclaration)
  else if opensEndTag rest then
    let token ← endTag t origin source pos pos
    return .go (pos + Text.bytes token.value.toList) (tokens ++ [token])
  else if opensStartTag rest then
    let (token, stop) ← element t origin source pos
    return .go stop (tokens ++ [token])
  else push origin source .text tokens pos (← textEnd t source pos)

end Readers

/-- The tokens of a document that starts at `origin`. -/
def tokenize (t : Template.Scanner) (origin : Origin) (source : String) :
    Checked (List Token) :=
  loop (Text.bytes source.toList) (pieceRound t origin source.toList)
    (fun tokens _ => .ok tokens) [] 0

section Spec

variable {t : Template.Scanner} {origin : Origin} {source : List Char} {pos : Nat}

theorem typed_eq (locator : Locator) (offset : Nat) (element : Element) (start : TagText) :
    typed element (placeTag locator offset start.tag)
        (placeTagText locator offset .tagStart start) =
      placeStart locator offset element start := by
  unfold typed
  rw [declaredType?_placeTag]
  rfl

theorem push_eq {c : Char} {rest : List Char} (kind : TokenKind) (tokens : List Token) (n : Nat)
    (h : At source pos (c :: rest)) :
    push origin source kind tokens pos (pos + Text.bytes (c :: rest.take n)) =
      .ok (.go (pos + Text.bytes (c :: rest.take n))
        (tokens ++ [placeText (.ofText source origin) pos kind (c :: rest.take n)])) := by
  have text : At source pos ((c :: rest.take n) ++ rest.drop n) := by
    rwa [List.cons_append, List.take_append_drop]
  rw [push, token_eq origin kind text]
  rfl

theorem block_open {element : Element} {start : TagText} {after : List Char}
    (h : At source pos (start.text ++ after)) (endless : firstCloser? element after = none) :
    block t origin source element (placeTag (.ofText source origin) pos start.tag)
        (placeTagText (.ofText source origin) pos .tagStart start) pos
        (pos + Text.bytes start.text) =
      .ok ((Piece.block element start after none).token (.ofText source origin) pos,
        pos + Text.bytes start.text + Text.bytes after) := by
  have behind := h.skip
  have bounds : closerBounds element (pos + Text.bytes start.text) after = none := by
    rw [closerBounds, endless]
    rfl
  have whole : At source pos ((start.text ++ after) ++ []) := by rwa [List.append_nil]
  have content : At source (pos + Text.bytes start.text) (after ++ []) := by
    rwa [List.append_nil]
  have plain := token_eq origin element.kind whole
  rw [Text.bytes_append, ← Nat.add_assoc] at plain
  rw [block, behind.suffix, ok_bind, bounds]
  dsimp only [Option.map_none, Option.getD_none]
  rw [← behind.size, plain, ok_bind, token_eq origin _ content, ok_bind, typed_eq]
  have text : (Piece.block element start after none).text = start.text ++ after := by
    rw [text_block]
    exact List.append_nil _
  simp only [Piece.token, text]
  rfl

/-- The end tag of an element is read as it was found. -/
theorem block_closed (t : Template.Scanner) (origin : Origin) {element : Element}
    {start : TagText} {after : List Char} {i m : Nat}
    (h : At source pos (start.text ++ after)) (found : firstCloser? element after = some (i, m)) :
    ∃ finish n, endTagAt t (after.drop (i + 1)) = .ok (finish, n) ∧
      block t origin source element (placeTag (.ofText source origin) pos start.tag)
          (placeTagText (.ofText source origin) pos .tagStart start) pos
          (pos + Text.bytes start.text) =
        .ok ((Piece.block element start (after.take i) (some finish)).token
            (.ofText source origin) pos,
          pos + Text.bytes start.text + Text.bytes (after.take (i + m))) := by
  have closer := firstCloser?_spec found
  obtain ⟨finish, n, read, length, text⟩ := endTagAt_closer t closer
  obtain ⟨name, more, shape, -, -⟩ := closerLength?_shape closer
  have behind := h.skip
  have bounds : closerBounds element (pos + Text.bytes start.text) after =
      some (pos + Text.bytes start.text + Text.bytes (after.take i),
        pos + Text.bytes start.text + Text.bytes (after.take (i + m))) := by
    rw [closerBounds, found]
    rfl
  have whole : At source pos ((start.text ++ after.take (i + m)) ++ after.drop (i + m)) := by
    rwa [List.append_assoc, List.take_append_drop]
  have content : At source (pos + Text.bytes start.text) (after.take i ++ after.drop i) := by
    rwa [List.take_append_drop]
  have plain := token_eq origin element.kind whole
  rw [Text.bytes_append, ← Nat.add_assoc] at plain
  have opening := content.skip
  rw [shape] at opening read
  have last := endTag_eq t origin opening h
  rw [List.drop_succ_cons, List.drop_zero] at read
  rw [read] at last
  refine ⟨finish, n, ?_, ?_⟩
  · rw [← List.drop_drop, shape]
    exact read
  · have pieceText : (Piece.block element start (after.take i) (some finish)).text =
        start.text ++ after.take (i + m) := by
      rw [text_block, List.append_assoc, finishText, text, List.take_add]
    rw [block, behind.suffix, ok_bind, bounds]
    dsimp only [Option.map_some, Option.getD_some]
    rw [plain, ok_bind, token_eq origin _ content, ok_bind, typed_eq, last]
    simp only [Piece.token, pieceText]
    rfl

/-- What a reader by bytes answers for a piece that is cut out behind a first character. -/
def answer {α : Type} (origin : Origin) (source : List Char) (pos : Nat) (c : Char)
    (rest : List Char) (found : Except Halt (Piece × Nat)) (make : Token → Nat → α) : Checked α :=
  match found with
  | .error halt => .error (told origin source halt)
  | .ok (piece, n) =>
    .ok (make (piece.token (.ofText source origin) pos) (pos + Text.bytes (c :: rest.take n)))

theorem element_eq {rest : List Char} (h : At source pos ('<' :: rest)) :
    element t origin source pos =
      answer origin source pos '<' rest (elementAt t rest) fun token stop => (token, stop) := by
  rw [element, startTag_eq h]
  unfold elementAt
  cases hstart : startTagAt t rest with
  | error halt => rfl
  | ok found =>
    obtain ⟨start, n⟩ := found
    have text : start.text = '<' :: rest.take n := (startTagAt_text hstart).1
    have whole : At source pos (start.text ++ rest.drop n) := by
      rwa [text, List.cons_append, List.take_append_drop]
    have plain := token_eq origin .tagStart whole
    have grown : ∀ k, Text.bytes ('<' :: rest.take (n + k)) =
        Text.bytes start.text + Text.bytes ((rest.drop n).take k) := by
      intro k
      rw [text, List.take_add, ← List.cons_append, Text.bytes_append]
    dsimp only [Except.mapError, Except.map]
    rw [ok_bind]
    dsimp only
    rw [← text, plain, ok_bind]
    change (match if start.tag.selfClosing then none else Element.ofName? start.tag.nameLower with
      | none => _
      | some element => _) = _
    cases kind : (if start.tag.selfClosing then none else Element.ofName? start.tag.nameLower) with
    | none =>
      change _ = Except.ok (_, pos + Text.bytes ('<' :: rest.take n))
      rw [← text]
      rfl
    | some element =>
      dsimp only
      cases hcloser : firstCloser? element (rest.drop n) with
      | none =>
        have length := grown (rest.drop n).length
        rw [List.take_length] at length
        refine (block_open whole hcloser).trans ?_
        dsimp only
        rw [answer, length, Nat.add_assoc]
      | some bounds =>
        obtain ⟨i, m⟩ := bounds
        obtain ⟨finish, k, read, closed⟩ :=
          block_closed t origin whole hcloser
        have length := grown (i + m)
        rw [← Nat.add_assoc] at length
        dsimp only
        rw [read]
        refine closed.trans ?_
        rw [answer, length, Nat.add_assoc]

theorem upTo_eq {c : Char} {rest : List Char} (kind : TokenKind) (cause : Cause) (skip : Nat)
    (word : List Char) (tokens : List Token) (h : At source pos (c :: rest))
    (size : Text.bytes (c :: rest.take skip) = skip + 1) :
    (findAfter origin source pos (pos + (skip + 1)) word cause >>=
        push origin source kind tokens pos) =
      answer origin source pos c rest (upTo kind cause skip word c rest)
        fun token stop => .go stop (tokens ++ [token]) := by
  have behind : At source (pos + (skip + 1)) (rest.drop skip) := by
    rw [← size]
    exact h.drop (skip + 1)
  rw [findAfter_eq word cause behind h, upTo]
  cases Text.endOf? word (rest.drop skip) with
  | none => rfl
  | some n =>
    have stop : pos + (skip + 1) + Text.bytes ((rest.drop skip).take n) =
        pos + Text.bytes (c :: rest.take (skip + n)) := by
      rw [List.take_add, ← List.cons_append, Text.bytes_append, size, Nat.add_assoc]
    dsimp only
    rw [ok_bind, stop, push_eq kind tokens _ h]
    rfl

theorem endTagRound_eq {more : List Char} (tokens : List Token)
    (h : At source pos ('<' :: '/' :: more)) :
    (endTag t origin source pos pos >>= fun token =>
        .ok (.go (pos + Text.bytes token.value.toList) (tokens ++ [token]))) =
      answer origin source pos '<' ('/' :: more)
        ((endTagAt t ('/' :: more)).map fun (tag, n) => (.endTag tag, n))
        fun token stop => (.go stop (tokens ++ [token]) : Step (List Token) (List Token)) := by
  rw [endTag_eq t origin h h]
  cases read : endTagAt t ('/' :: more) with
  | error halt =>
    obtain rfl := endTagAt_halts read
    rfl
  | ok found =>
    obtain ⟨tag, n⟩ := found
    have text : (placeTagText (.ofText source origin) pos .tagEnd tag).value.toList =
        '<' :: ('/' :: more).take n := by
      rw [← endTagAt_text read]
      exact String.toList_ofList
    dsimp only
    rw [ok_bind, text]
    rfl

theorem bytes_take_word {word : List Char} {c : Char} {rest : List Char}
    (h : word.isPrefixOf (c :: rest) = true) {skip : Nat} (length : word.length = skip + 1) :
    Text.bytes (c :: rest.take skip) = Text.bytes word := by
  rw [← List.take_succ_cons, ← length, Text.take_of_prefix h]

/-- A piece is read by bytes as it is cut out by characters. -/
theorem pieceRound_eq {c : Char} {rest : List Char} (tokens : List Token)
    (h : At source pos (c :: rest)) :
    pieceRound t origin source tokens pos =
      answer origin source pos c rest (pieceAt t c rest)
        fun token stop => .go stop (tokens ++ [token]) := by
  rw [pieceRound, h.suffix, ok_bind, pieceAt]
  by_cases opens : t.opens (c :: rest) = true
  · rw [if_pos opens, if_pos opens, templateEnd_eq origin h opens]
    cases t.scanAfter c rest with
    | none => rfl
    | some n =>
      dsimp only
      rw [ok_bind, push_eq .template tokens n h]
      rfl
  · rw [if_neg opens, if_neg opens]
    by_cases comment : ['<', '!', '-', '-'].isPrefixOf (c :: rest) = true
    · rw [if_pos comment, if_pos comment]
      apply upTo_eq .comment .unclosedComment 3 _ tokens h
      exact (bytes_take_word comment rfl).trans (by decide)
    · rw [if_neg comment, if_neg comment]
      by_cases declaration : ['<', '!'].isPrefixOf (c :: rest) = true ∨
          ['<', '?'].isPrefixOf (c :: rest) = true
      · rw [if_pos declaration, if_pos declaration]
        apply upTo_eq .declaration .unclosedDeclaration 1 _ tokens h
        rcases declaration with declared | processed
        · exact (bytes_take_word declared rfl).trans (by decide)
        · exact (bytes_take_word processed rfl).trans (by decide)
      · rw [if_neg declaration, if_neg declaration]
        by_cases ends : opensEndTag (c :: rest) = true
        · rw [if_pos ends, if_pos ends]
          obtain rfl := bracket_of_opensEndTag ends
          obtain ⟨more, rfl⟩ := slash_of_opensEndTag ends
          exact endTagRound_eq tokens h
        · rw [if_neg ends, if_neg ends]
          by_cases starts : opensStartTag (c :: rest) = true
          · rw [if_pos starts, if_pos starts]
            obtain rfl := bracket_of_opensStartTag starts
            rw [element_eq h]
            cases elementAt t rest <;> rfl
          · rw [if_neg starts, if_neg starts]
            have plain : opensConstruct t (c :: rest) = false := by
              rw [not_or] at declaration
              rw [opensConstruct, Bool.eq_false_iff.mpr opens,
                Bool.eq_false_iff.mpr declaration.1, Bool.eq_false_iff.mpr declaration.2,
                Bool.eq_false_iff.mpr ends, Bool.eq_false_iff.mpr starts]
              rfl
            rw [textEnd_eq h plain, ok_bind, push_eq .text tokens _ h]
            rfl

theorem loop_piece {c : Char} {rest : List Char} {piece : Piece} {n : Nat} (tokens : List Token)
    (h : At source pos (c :: rest)) (read : pieceAt t c rest = .ok (piece, n)) :
    loop (Text.bytes source) (pieceRound t origin source) (fun tokens _ => .ok tokens) tokens pos =
      loop (Text.bytes source) (pieceRound t origin source) (fun tokens _ => .ok tokens)
        (tokens ++ [piece.token (.ofText source origin) pos])
        (pos + Text.bytes (c :: rest.take n)) ∧
      At source (pos + Text.bytes (c :: rest.take n)) (rest.drop n) := by
  constructor
  · have go : pieceRound t origin source tokens pos =
        .ok (.go (pos + Text.bytes (c :: rest.take n))
          (tokens ++ [piece.token (.ofText source origin) pos])) := by
      rw [pieceRound_eq tokens h, read]
      rfl
    exact loop_go h.lt go (Nat.lt_add_of_pos_right (Text.bytes_pos (List.cons_ne_nil _ _)))
  · exact h.drop (n + 1)

theorem loop_pieces {s : List Char} (tokens : List Token) (h : At source pos s) :
    loop (Text.bytes source) (pieceRound t origin source) (fun tokens _ => .ok tokens) tokens pos =
      match pieces t s with
      | .error halt => .error (told origin source halt)
      | .ok found => .ok (tokens ++ place (.ofText source origin) pos found) := by
  fun_induction pieces t s generalizing pos tokens with
  | case1 =>
    rw [loop_finish (Nat.le_of_eq h.stop.symm)]
    exact congrArg Except.ok (List.append_nil tokens).symm
  | case2 c rest halt read =>
    apply loop_stop h.lt
    rw [pieceRound_eq tokens h, read]
    rfl
  | case3 c rest piece n read halt later ih =>
    obtain ⟨goes, at_⟩ := loop_piece tokens h read
    rw [goes, ih _ at_, later]
  | case4 c rest piece n read more later ih =>
    obtain ⟨goes, at_⟩ := loop_piece tokens h read
    rw [goes, ih _ at_, later]
    refine congrArg Except.ok ?_
    rw [place, pieceAt_text read, List.append_assoc]
    rfl

end Spec

/-- A document is read by bytes as it is read by characters: nothing is ever trapped. -/
theorem tokenize_eq (t : Template.Scanner) (origin : Origin) (source : String) :
    tokenize t origin source = (Mosaic.Markup.tokenize t origin source).mapError .failure := by
  rw [tokenize, loop_pieces [] (At.start source.toList), Mosaic.Markup.tokenize]
  cases pieces t source.toList <;> rfl

end Mosaic.Bytewise.Markup
