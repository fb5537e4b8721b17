import Mosaic.Proofs.Bytewise.Markup.Cursor

/-! Tags read with a cursor in bytes. The parts of a tag are cut out at the places where the
cursor stopped, and the place of a value is where its text was cut out. -/
namespace Mosaic.Bytewise.Markup

open Mosaic.Markup Outcome

section Readers

variable (t : Template.Scanner) (origin : Origin) (source : List Char)

def attrNameEnd (start : Nat) : Checked Nat := do
  let stop ← walk (endsAttrName t) source start
  if stop = start then
    let rest ← suffixAt source start
    return stop + firstSize rest
  else return stop

/-- The quote of the value at byte `start`, the places of its first and last byte, and the end of
the value with its quotes. -/
def valueBounds (start : Nat) : Checked (Option Char × Nat × Nat × Nat) := do
  let rest ← suffixAt source start
  match rest.head?.filter isQuote with
  | some quote =>
    let stop ← quotedEnd t origin source quote (start + 1)
    return (some quote, start + 1, stop, stop + 1)
  | none =>
    let stop ← unquotedEnd t origin source start
    return (none, start, stop, stop)

/-- The attribute at byte `start`, and where it ends. -/
def attrFrom (leading : List Char) (start : Nat) : Checked (Attr × Nat) := do
  let nameEnd ← attrNameEnd t source start
  let name ← slice source start nameEnd
  let attr := bareAttr leading name
  let sign ← blanksEnd source nameEnd
  let behind ← suffixAt source sign
  if behind.head? = some '=' ∧ name ≠ ['='] then
    let valueStart ← blanksEnd source (sign + 1)
    let assign ← slice source nameEnd valueStart
    let (quote, first, last, stop) ← valueBounds t origin source valueStart
    let value ← slice source first last
    let range ← rangeAt (.ofText source origin) first last
    return ({ attr with
      assign := String.ofList assign
      quote
      value := some (String.ofList value)
      valueRange := some range }, stop)
  else return (attr, nameEnd)

/-- An attribute whose name ends at byte `nameEnd`, with a value behind the sign at byte `sign`. -/
def valuedFrom (attr : Attr) (nameEnd sign : Nat) : Checked (Attr × Nat) := do
  let valueStart ← blanksEnd source (sign + 1)
  let assign ← slice source nameEnd valueStart
  let (quote, first, last, stop) ← valueBounds t origin source valueStart
  let value ← slice source first last
  let range ← rangeAt (.ofText source origin) first last
  return ({ attr with
    assign := String.ofList assign
    quote
    value := some (String.ofList value)
    valueRange := some range }, stop)

/-- A tag whose parts are texts. -/
def tagOf (name : List Char) (attrs : List Attr) (tail : List Char) (selfClosing : Bool) : Tag where
  name := String.ofList name
  nameLower := String.ofList (Text.lower name)
  attrs
  tail := String.ofList tail
  selfClosing

/-- What stands behind the blanks `leading` in a start tag, from byte `stop` on. -/
def startPart (start : Nat) (name : List Char) (attrs : List Attr) (leading : List Char)
    (stop : Nat) (rest : List Char) : Checked (Step (List Attr) (Tag × Nat)) := do
  if rest = [] then fail origin source (.unclosedTag (String.ofList name)) start
  else if ['/', '>'].isPrefixOf rest then return .done (tagOf name attrs leading true, stop + 2)
  else if ['>'].isPrefixOf rest then return .done (tagOf name attrs leading false, stop + 1)
  else if t.opens rest then
    let next ← templateEnd t origin source stop
    let text ← slice source stop next
    return .go next (attrs ++ [templateAttr leading text])
  else
    let (attr, next) ← attrFrom t origin source leading stop
    return .go next (attrs ++ [attr])

def startRound (start : Nat) (name : List Char) (attrs : List Attr) (pos : Nat) :
    Checked (Step (List Attr) (Tag × Nat)) := do
  let stop ← blanksEnd source pos
  let leading ← slice source pos stop
  let rest ← suffixAt source stop
  startPart t origin source start name attrs leading stop rest

def startTag (start : Nat) : Checked (Tag × Nat) := do
  let nameEnd ← nameEnd t source (start + 1)
  let name ← slice source (start + 1) nameEnd
  loop (Text.bytes source + 1) (startRound t origin source start name)
    (fun _ _ => .error (.trap .badIndex)) [] nameEnd

def token (kind : TokenKind) (start stop : Nat) : Checked Token := do
  let text ← slice source start stop
  let range ← rangeAt (.ofText source origin) start stop
  return .plain kind (String.ofList text) range

def endTag (cursor start : Nat) : Checked Token := do
  let nameEnd ← nameEnd t source (start + 2)
  let stop ← findAfter origin source cursor nameEnd ['>'] .unclosedEndTag
  let name ← slice source (start + 2) nameEnd
  let plain ← token origin source .tagEnd start stop
  return { plain with detail := some (tagOf name [] [] false) }

end Readers

section Attribute

variable {t : Template.Scanner} {origin : Origin} {source : List Char} {pos : Nat}
  {c : Char} {rest : List Char}

theorem lengthUntil_endsAttrName (s : List Char) :
    lengthUntil (endsAttrName t) s = attrNameLength t s := by
  induction s with
  | nil => rfl
  | cons c rest ih => rw [lengthUntil, attrNameLength, ih]

/-- What stands before an attribute name was passed already, so only an equals sign ends it at
once. -/
structure Begins (t : Template.Scanner) (c : Char) (rest : List Char) : Prop where
  notBlank : Text.isBlank c = false
  notCloser : c ≠ '>'
  notSelfCloser : ¬ (c = '/' ∧ rest.head? = some '>')
  notTemplate : t.opens (c :: rest) = false

theorem endsAttrName_eq (h : Begins t c rest) : endsAttrName t (c :: rest) = (c == '=') := by
  have notEnd : endsName t (c :: rest) = false := by
    have both : (c == '/' && rest.head? == some '>') = false := by
      rw [Bool.eq_false_iff, ne_eq, Bool.and_eq_true, beq_iff_eq, beq_iff_eq]
      exact h.notSelfCloser
    simp only [endsName, h.notBlank, h.notTemplate, both, beq_false_of_ne h.notCloser,
      Bool.or_self]
  rw [endsAttrName, notEnd, Bool.or_false, List.head?_cons, Option.some_beq_some]

/-- The number of characters of an attribute name behind its first one. -/
def nameRest (t : Template.Scanner) (c : Char) (rest : List Char) : Nat :=
  if c = '=' then 0 else attrNameLength t rest

theorem attrNameEnd_eq (begins : Begins t c rest) (h : At source pos (c :: rest)) :
    attrNameEnd t source pos = .ok (pos + Text.bytes (c :: rest.take (nameRest t c rest))) := by
  rw [attrNameEnd, walk_eq _ h, lengthUntil_endsAttrName, attrNameLength, endsAttrName_eq begins,
    nameRest]
  by_cases sign : c = '='
  · have stopped : pos + Text.bytes ((c :: rest).take 0) = pos := rfl
    rw [if_pos (beq_iff_eq.mpr sign), if_pos sign]
    change (if _ then _ else _) = _
    rw [if_pos stopped, h.suffix]
    rfl
  · have some : 0 < Text.bytes (c :: rest.take (attrNameLength t rest)) :=
      Text.bytes_pos (List.cons_ne_nil _ _)
    rw [if_neg fun same => sign (beq_iff_eq.mp same), if_neg sign]
    exact if_neg (Nat.ne_of_gt (Nat.lt_add_of_pos_right some))

theorem utf8Size_of_isQuote {quote : Char} (h : isQuote quote = true) : quote.utf8Size = 1 := by
  rw [isQuote, Bool.or_eq_true, beq_iff_eq, beq_iff_eq] at h
  obtain rfl | rfl := h <;> decide

theorem valueBounds_eq (h : At source pos rest) :
    valueBounds t origin source pos =
      ((valueAt t rest).mapError (told origin source)).map fun (quote, value, n) =>
        (quote, pos + Text.bytes quote.toList,
          pos + Text.bytes quote.toList + Text.bytes value, pos + Text.bytes (rest.take n)) := by
  rw [valueBounds, h.suffix]
  cases rest with
  | nil =>
    change (unquotedEnd t origin source pos >>= fun _ => _) = _
    rw [unquotedEnd_eq h]
    rfl
  | cons c rest =>
    rw [valueAt]
    by_cases quoted : isQuote c = true
    · have one := utf8Size_of_isQuote quoted
      have filtered : (c :: rest).head?.filter isQuote = some c := by
        rw [List.head?_cons, Option.filter_some, if_pos quoted]
      change (match (c :: rest).head?.filter isQuote with
        | some _ => _
        | none => _) = _
      rw [filtered, if_pos quoted]
      change (quotedEnd t origin source c (pos + 1) >>= fun _ => _) = _
      rw [quotedEnd_eq one h]
      cases hlen : quotedLength t c ⟨.unclosedValue, c :: rest⟩ 0 rest with
      | error halt => rfl
      | ok n =>
        have closing : rest[n]? = some c := quotedLength_quote hlen
        refine congrArg Except.ok ?_
        change (some c, pos + 1, pos + 1 + Text.bytes (rest.take n),
            pos + 1 + Text.bytes (rest.take n) + 1) =
          (some c, pos + Text.bytes [c], pos + Text.bytes [c] + Text.bytes (rest.take n),
            pos + Text.bytes ((c :: rest).take (n + 2)))
        have self : Text.bytes [c] = 1 := one
        rw [self, bytes_quoted one closing, Nat.add_assoc, Nat.add_assoc, Nat.add_assoc]
    · have filtered : (c :: rest).head?.filter isQuote = none := by
        rw [List.head?_cons, Option.filter_some, if_neg quoted]
      change (match (c :: rest).head?.filter isQuote with
        | some _ => _
        | none => _) = _
      rw [filtered, if_neg quoted]
      change (unquotedEnd t origin source pos >>= fun _ => _) = _
      rw [unquotedEnd_eq h]
      cases unquotedLength t 0 (c :: rest) <;> rfl

/-- An attribute with the place of its value, which stands at byte `offset`. -/
def placeAttr (locator : Locator) (offset : Nat) (attr : Attr) : Attr :=
  { attr with
    valueRange := attr.value.map fun value =>
      locator.range (offset + valueOffset attr)
        (offset + valueOffset attr + Text.bytes value.toList) }

theorem valueOffset_eq (attr : Attr) {leading name assign : List Char} {quote : Option Char}
    (hleading : attr.leading = String.ofList leading) (hname : attr.name = String.ofList name)
    (hassign : attr.assign = String.ofList assign) (hquote : attr.quote = quote) :
    valueOffset attr = Text.bytes (leading ++ name ++ assign ++ quote.toList) := by
  rw [valueOffset, hleading, hname, hassign, ← hquote]
  simp only [String.toList_append, String.toList_ofList, toList_quoteText]

theorem assignLength?_spec {s more : List Char} (h : s.dropWhile Text.isBlank = '=' :: more) :
    assignLength? s = some (Text.blankLength s + 1 + Text.blankLength more) ∧
      s.take (Text.blankLength s + 1 + Text.blankLength more) =
        s.takeWhile Text.isBlank ++ '=' :: more.takeWhile Text.isBlank ∧
      s.drop (Text.blankLength s + 1 + Text.blankLength more) = more.dropWhile Text.isBlank := by
  have whole : s = s.takeWhile Text.isBlank ++ '=' :: more := by
    rw [← h, List.takeWhile_append_dropWhile]
  have behind : s.drop (Text.blankLength s) = '=' :: more := by
    rw [← h]
    exact Text.drop_length_takeWhile Text.isBlank s
  refine ⟨?_, ?_, ?_⟩
  · rw [assignLength?, behind]
    rfl
  · rw [Nat.add_assoc, Nat.add_comm 1, Text.blankLength, take_behind_blanks h,
      List.take_succ_cons]
    exact congrArg (fun front => _ ++ '=' :: front)
      (Text.take_length_takeWhile Text.isBlank more)
  · rw [Nat.add_assoc, ← List.drop_drop, behind, Nat.add_comm 1, List.drop_succ_cons]
    exact Text.drop_length_takeWhile Text.isBlank more

theorem assignLength?_none {s : List Char} (h : (s.dropWhile Text.isBlank).head? ≠ some '=') :
    assignLength? s = none := by
  have behind : s.drop (Text.blankLength s) = s.dropWhile Text.isBlank :=
    Text.drop_length_takeWhile Text.isBlank s
  rw [assignLength?, behind]
  split
  next heq => exact absurd (congrArg List.head? heq) h
  next => rfl

theorem attrAt_eq (leading : List Char) (begins : Begins t c rest) :
    attrAt t leading c rest =
      match if c = '=' then none else assignLength? (rest.drop (nameRest t c rest)) with
      | none => .ok (bareAttr leading (c :: rest.take (nameRest t c rest)), nameRest t c rest)
      | some a =>
        match valueAt t (rest.drop (nameRest t c rest + a)) with
        | .error halt => .error halt
        | .ok (quote, value, m) =>
          .ok ({ bareAttr leading (c :: rest.take (nameRest t c rest)) with
            assign := String.ofList ((rest.drop (nameRest t c rest)).take a)
            quote
            value := some (String.ofList value) }, nameRest t c rest + a + m) := by
  rw [attrAt, if_neg (Bool.eq_false_iff.mp begins.notTemplate)]
  rfl

theorem name_eq_sign_iff : c :: rest.take (nameRest t c rest) = ['='] ↔ c = '=' := by
  constructor
  · intro same
    exact (List.cons.inj same).1
  · intro sign
    rw [nameRest, if_pos sign, sign]
    rfl

theorem blanksEnd_assign {s more : List Char} (h : At source pos s)
    (sign : s.dropWhile Text.isBlank = '=' :: more) {a : Nat} (length : assignLength? s = some a) :
    blanksEnd source (pos + Text.bytes (s.takeWhile Text.isBlank) + 1) =
      .ok (pos + Text.bytes (s.take a)) := by
  obtain ⟨found, text, -⟩ := assignLength?_spec sign
  obtain rfl := Option.some.inj (found.symm.trans length)
  have at_ := h.span Text.isBlank
  rw [sign] at at_
  have one : '='.utf8Size = 1 := by decide
  have behind := at_.next
  rw [one] at behind
  rw [blanksEnd_eq behind, text, Text.bytes_append, Text.bytes_cons, one]
  exact congrArg Except.ok (by omega)

theorem attrFrom_name (begins : Begins t c rest) (leading : List Char)
    (h : At source pos (c :: rest)) :
    attrFrom t origin source leading pos =
      let name := c :: rest.take (nameRest t c rest)
      let behind := rest.drop (nameRest t c rest)
      if (behind.dropWhile Text.isBlank).head? = some '=' ∧ c ≠ '=' then
        valuedFrom t origin source (bareAttr leading name) (pos + Text.bytes name)
          (pos + Text.bytes name + Text.bytes (behind.takeWhile Text.isBlank))
      else .ok (bareAttr leading name, pos + Text.bytes name) := by
  have named : At source pos
      ((c :: rest.take (nameRest t c rest)) ++ rest.drop (nameRest t c rest)) := by
    rwa [List.cons_append, List.take_append_drop]
  have sign := named.skip.span Text.isBlank
  rw [attrFrom, attrNameEnd_eq begins h, ok_bind, named.slice, ok_bind, blanksEnd_eq named.skip,
    ok_bind, sign.suffix, ok_bind]
  simp only [ne_eq, name_eq_sign_iff]
  rfl

theorem valuedFrom_eq {s more : List Char} (attr : Attr) (h : At source pos s)
    (sign : s.dropWhile Text.isBlank = '=' :: more) {a : Nat} (length : assignLength? s = some a) :
    valuedFrom t origin source attr pos (pos + Text.bytes (s.takeWhile Text.isBlank)) =
      ((valueAt t (s.drop a)).mapError (told origin source)).map fun (quote, value, n) =>
        let first := pos + Text.bytes (s.take a) + Text.bytes quote.toList
        ({ attr with
          assign := String.ofList (s.take a)
          quote
          value := some (String.ofList value)
          valueRange := some
            ((Locator.ofText source origin).range first (first + Text.bytes value)) },
          pos + Text.bytes (s.take (a + n))) := by
  have at_ := h.drop a
  rw [valuedFrom, blanksEnd_assign h sign length, ok_bind, h.slice_take a, ok_bind,
    valueBounds_eq at_]
  cases hvalue : valueAt t (s.drop a) with
  | error halt => rfl
  | ok found =>
    obtain ⟨quote, value, n⟩ := found
    have cut : s.drop a = quote.toList ++ (value ++ (quote.toList ++ (s.drop a).drop n)) := by
      rw [← List.append_assoc, ← List.append_assoc, valueAt_text hvalue, List.take_append_drop]
    have inner := at_
    rw [cut] at inner
    change (slice _ _ _ >>= fun _ => _) = _
    rw [inner.skip.slice, ok_bind, rangeAt_eq, ok_bind]
    refine congrArg Except.ok (Prod.ext rfl ?_)
    change _ + _ = pos + Text.bytes (s.take (a + n))
    rw [List.take_add, Text.bytes_append, Nat.add_assoc]

/-- Where an attribute is read from, there its parts are cut out, and its value has its place. -/
theorem attrFrom_eq {offset : Nat} {leading : List Char} (begins : Begins t c rest)
    (h : At source offset (leading ++ c :: rest)) :
    attrFrom t origin source leading (offset + Text.bytes leading) =
      ((attrAt t leading c rest).mapError (told origin source)).map fun (attr, n) =>
        (placeAttr (.ofText source origin) offset attr,
          offset + Text.bytes leading + Text.bytes (c :: rest.take n)) := by
  have named : At source (offset + Text.bytes leading)
      ((c :: rest.take (nameRest t c rest)) ++ rest.drop (nameRest t c rest)) := by
    rw [List.cons_append, List.take_append_drop]
    exact h.skip
  have behind := named.skip
  rw [attrFrom_name begins leading h.skip, attrAt_eq leading begins]
  by_cases assigned : ((rest.drop (nameRest t c rest)).dropWhile Text.isBlank).head? = some '=' ∧
      c ≠ '='
  · obtain ⟨more, sign⟩ := List.head?_eq_some_iff.mp assigned.1
    obtain ⟨length, -, -⟩ := assignLength?_spec sign
    generalize nameRest t c rest = k at *
    generalize Text.blankLength (rest.drop k) + 1 + Text.blankLength more = a at length
    simp only [if_pos assigned, if_neg assigned.2, length]
    rw [valuedFrom_eq _ behind sign length, List.drop_drop]
    cases valueAt t (rest.drop (k + a)) with
    | error halt => rfl
    | ok found =>
      obtain ⟨quote, value, m⟩ := found
      refine congrArg Except.ok (Prod.ext ?_ ?_)
      · dsimp only [placeAttr]
        rw [valueOffset_eq _ rfl rfl rfl rfl, Option.map_some, String.toList_ofList,
          Text.bytes_append, Text.bytes_append, Text.bytes_append]
        simp only [Nat.add_assoc]
      · change _ = offset + Text.bytes leading + Text.bytes (c :: rest.take (k + a + m))
        simp only [List.take_add, Text.bytes_cons, Text.bytes_append, List.drop_drop]
        omega
  · have none :
        (if c = '=' then none else assignLength? (rest.drop (nameRest t c rest))) = none := by
      by_cases equals : c = '='
      · exact if_pos equals
      · rw [if_neg equals]
        exact assignLength?_none fun head => assigned ⟨head, equals⟩
    simp only [if_neg assigned, none]
    rfl

end Attribute

section StartTag

variable {t : Template.Scanner} {origin : Origin} {source : List Char} {pos start : Nat}

theorem notBlank_of_dropWhile {s rest : List Char} {c : Char}
    (h : s.dropWhile Text.isBlank = c :: rest) : Text.isBlank c = false := by
  have first := List.head?_dropWhile_not Text.isBlank s
  rw [h] at first
  exact Bool.eq_false_iff.mpr fun blank => by simp [blank] at first

theorem startRound_eq {name s : List Char} (attrs : List Attr) (h : At source pos s) :
    startRound t origin source start name attrs pos =
      startPart t origin source start name attrs (s.takeWhile Text.isBlank)
        (pos + Text.bytes (s.takeWhile Text.isBlank)) (s.dropWhile Text.isBlank) := by
  have split : At source pos (s.takeWhile Text.isBlank ++ s.dropWhile Text.isBlank) := by
    rwa [List.takeWhile_append_dropWhile]
  rw [startRound, blanksEnd_eq h, ok_bind, split.slice, ok_bind, split.skip.suffix, ok_bind]

theorem startRound_attr {name s rest : List Char} {c : Char} (attrs : List Attr)
    (h : At source pos s) (behind : s.dropWhile Text.isBlank = c :: rest) (notCloser : c ≠ '>')
    (notSelfCloser : ¬ (c = '/' ∧ rest.head? = some '>')) :
    startRound t origin source start name attrs pos =
      ((attrAt t (s.takeWhile Text.isBlank) c rest).mapError (told origin source)).map
        fun (attr, n) =>
          .go (pos + Text.bytes (s.takeWhile Text.isBlank) + Text.bytes (c :: rest.take n))
            (attrs ++ [placeAttr (.ofText source origin) pos attr]) := by
  have split : At source pos (s.takeWhile Text.isBlank ++ c :: rest) := by
    rwa [← behind, List.takeWhile_append_dropWhile]
  have at_ := split.skip
  have some : ¬ c :: rest = [] := List.cons_ne_nil c rest
  have noSelfCloser : ¬ ['/', '>'].isPrefixOf (c :: rest) = true := by
    rw [List.isPrefixOf_iff_prefix]
    rintro ⟨tail, same⟩
    obtain ⟨rfl, rfl⟩ := List.cons.inj same
    exact notSelfCloser ⟨rfl, rfl⟩
  have noCloser : ¬ ['>'].isPrefixOf (c :: rest) = true := by
    rw [List.isPrefixOf_iff_prefix]
    rintro ⟨tail, same⟩
    exact notCloser (List.cons.inj same).1.symm
  rw [startRound_eq attrs h, behind, startPart, if_neg some, if_neg noSelfCloser, if_neg noCloser]
  by_cases opens : t.opens (c :: rest) = true
  · rw [if_pos opens, templateEnd_eq origin at_ opens, attrAt, if_pos opens]
    cases found : t.scanAfter c rest with
    | none => rfl
    | some n =>
      have text : slice source (pos + Text.bytes (s.takeWhile Text.isBlank))
          (pos + Text.bytes (s.takeWhile Text.isBlank) + Text.bytes (c :: rest.take n)) =
          .ok (c :: rest.take n) := by
        have region : At source (pos + Text.bytes (s.takeWhile Text.isBlank))
            ((c :: rest.take n) ++ rest.drop n) := by
          rwa [List.cons_append, List.take_append_drop]
        exact region.slice
      dsimp only
      rw [ok_bind, text]
      rfl
  · have begins : Begins t c rest :=
      ⟨notBlank_of_dropWhile behind, notCloser, notSelfCloser, Bool.eq_false_iff.mpr opens⟩
    rw [if_neg opens, attrFrom_eq begins split]
    cases attrAt t (s.takeWhile Text.isBlank) c rest <;> rfl

theorem notSelfCloser_of {c : Char} {rest : List Char}
    (h : ∀ tail, c = '/' → rest = '>' :: tail → False) :
    ¬ (c = '/' ∧ rest.head? = some '>') := by
  rintro ⟨slash, bracket⟩
  obtain ⟨tail, closer⟩ := List.head?_eq_some_iff.mp bracket
  exact h tail slash closer

theorem loop_close {name s tail bracket : List Char} {selfClosing : Bool} (attrs : List Attr)
    (h : At source pos s) (behind : s.dropWhile Text.isBlank = bracket ++ tail)
    (size : Text.bytes bracket = bracket.length)
    (closes : ∀ leading stop, startPart t origin source start name attrs leading stop
      (bracket ++ tail) = .ok (.done (tagOf name attrs leading selfClosing, stop + bracket.length))) :
    loop (Text.bytes source + 1) (startRound t origin source start name)
        (fun _ _ => .error (.trap .badIndex)) attrs pos =
      .ok (tagOf name attrs (s.takeWhile Text.isBlank) selfClosing,
        pos + Text.bytes (s.take ((s.takeWhile Text.isBlank).length + bracket.length))) := by
  have done : startRound t origin source start name attrs pos =
      .ok (.done (tagOf name attrs (s.takeWhile Text.isBlank) selfClosing,
        pos + Text.bytes (s.takeWhile Text.isBlank) + bracket.length)) := by
    rw [startRound_eq attrs h, behind, closes]
  rw [loop_done (Nat.lt_succ_of_le h.le) done, take_behind_blanks behind, List.take_left,
    Text.bytes_append, size, Nat.add_assoc]

theorem loop_attr {name s rest : List Char} {c : Char} {attr : Attr} {n : Nat}
    (attrs : List Attr) (h : At source pos s) (behind : s.dropWhile Text.isBlank = c :: rest)
    (notCloser : c ≠ '>') (notSelfCloser : ¬ (c = '/' ∧ rest.head? = some '>'))
    (read : attrAt t (s.takeWhile Text.isBlank) c rest = .ok (attr, n)) :
    loop (Text.bytes source + 1) (startRound t origin source start name)
        (fun _ _ => .error (.trap .badIndex)) attrs pos =
      loop (Text.bytes source + 1) (startRound t origin source start name)
        (fun _ _ => .error (.trap .badIndex))
        (attrs ++ [placeAttr (.ofText source origin) pos attr])
        (pos + Text.bytes (s.takeWhile Text.isBlank) + Text.bytes (c :: rest.take n)) ∧
      At source (pos + Text.bytes (s.takeWhile Text.isBlank) + Text.bytes (c :: rest.take n))
        (rest.drop n) := by
  constructor
  · have go : startRound t origin source start name attrs pos =
        .ok (.go (pos + Text.bytes (s.takeWhile Text.isBlank) + Text.bytes (c :: rest.take n))
          (attrs ++ [placeAttr (.ofText source origin) pos attr])) := by
      rw [startRound_attr attrs h behind notCloser notSelfCloser, read]
      rfl
    have some : 0 < Text.bytes (c :: rest.take n) := Text.bytes_pos (List.cons_ne_nil _ _)
    exact loop_go (Nat.lt_succ_of_le h.le) go (by omega)
  · have at_ := h.span Text.isBlank
    rw [behind] at at_
    exact at_.drop (n + 1)

theorem loop_start {opening : List Char} (name : List Char) (attrs : List Attr) {s : List Char}
    (blame : At source start ('<' :: opening)) (h : At source pos s) :
    loop (Text.bytes source + 1) (startRound t origin source start name)
        (fun _ _ => .error (.trap .badIndex)) attrs pos =
      ((tagRest t ⟨.unclosedTag (String.ofList name), '<' :: opening⟩ s).mapError
        (told origin source)).map fun more =>
          (tagOf name (attrs ++ placeAttrs (.ofText source origin) pos more.attrs) more.tail
            more.selfClosing, pos + Text.bytes (s.take more.length)) := by
  have room : ∀ {pos : Nat} {s : List Char}, At source pos s → pos < Text.bytes source + 1 :=
    fun h => Nat.lt_succ_of_le h.le
  fun_induction tagRest t ⟨.unclosedTag (String.ofList name), '<' :: opening⟩ s
      generalizing pos attrs with
  | case1 s behind =>
    apply loop_stop (room h)
    rw [startRound_eq attrs h, behind, startPart, if_pos rfl]
    exact fail_eq _ blame
  | case2 s leading tail =>
    rename_i behind
    have whole : s.dropWhile Text.isBlank = ['/', '>'] ++ tail := behind
    rw [loop_close attrs h whole (by decide) fun _ _ => rfl]
    refine congrArg Except.ok (Prod.ext ?_ rfl)
    change _ = tagOf name (attrs ++ []) (s.takeWhile Text.isBlank) true
    rw [List.append_nil]
  | case3 s leading tail =>
    rename_i behind
    have whole : s.dropWhile Text.isBlank = ['>'] ++ tail := behind
    rw [loop_close attrs h whole (by decide) fun _ _ => rfl]
    refine congrArg Except.ok (Prod.ext ?_ rfl)
    change _ = tagOf name (attrs ++ []) (s.takeWhile Text.isBlank) false
    rw [List.append_nil]
  | case4 s leading c rest =>
    rename_i noSelfCloser noCloser behind halt read
    apply loop_stop (room h)
    rw [startRound_attr attrs h behind noCloser (notSelfCloser_of noSelfCloser)]
    change ((attrAt t leading c rest).mapError _).map _ = _
    rw [read]
    rfl
  | case5 s leading c rest =>
    rename_i noSelfCloser noCloser behind attr n read halt later ih
    obtain ⟨goes, at_⟩ := loop_attr attrs h behind noCloser (notSelfCloser_of noSelfCloser) read
    rw [goes, ih _ at_, later]
    rfl
  | case6 s leading c rest =>
    rename_i noSelfCloser noCloser behind attr n read more later ih
    obtain ⟨goes, at_⟩ := loop_attr attrs h behind noCloser (notSelfCloser_of noSelfCloser) read
    have text : Text.bytes (attr.render none).toList =
        Text.bytes (s.takeWhile Text.isBlank) + Text.bytes (c :: rest.take n) := by
      rw [attrAt_text read, Text.bytes_append]
    rw [goes, ih _ at_, later]
    refine congrArg Except.ok (Prod.ext ?_ ?_)
    · change tagOf name (attrs ++ [_] ++ placeAttrs _ _ more.attrs) _ _ =
        tagOf name (attrs ++ placeAttr _ pos attr :: placeAttrs _ (pos + _) more.attrs) _ _
      rw [text, List.append_assoc, Nat.add_assoc]
      rfl
    · have length : (s.takeWhile Text.isBlank).length + 1 + n + more.length =
          (s.takeWhile Text.isBlank).length + (n + more.length + 1) := by omega
      change pos + Text.bytes (s.takeWhile Text.isBlank) + Text.bytes (c :: rest.take n) +
          Text.bytes ((rest.drop n).take more.length) =
        pos + Text.bytes (s.take ((s.takeWhile Text.isBlank).length + 1 + n + more.length))
      rw [length, take_behind_blanks behind, List.take_succ_cons, List.take_add]
      simp only [Text.bytes_append, Text.bytes_cons]
      omega

theorem startTag_eq {rest : List Char} (h : At source pos ('<' :: rest)) :
    startTag t origin source pos =
      ((startTagAt t rest).mapError (told origin source)).map fun (tag, n) =>
        (placeTag (.ofText source origin) pos tag.tag,
          pos + Text.bytes ('<' :: rest.take n)) := by
  have one : '<'.utf8Size = 1 := by decide
  have name : At source (pos + 1)
      (rest.take (nameLength t rest) ++ rest.drop (nameLength t rest)) := by
    rw [List.take_append_drop, ← one]
    exact h.next
  have behind := name.skip
  rw [startTag, nameEnd_eq (by rw [← one]; exact h.next), ok_bind, name.slice, ok_bind,
    loop_start _ _ h behind, startTagAt]
  dsimp only
  cases tagRest t ⟨.unclosedTag (String.ofList (rest.take (nameLength t rest))), '<' :: rest⟩
    (rest.drop (nameLength t rest)) with
  | error halt => rfl
  | ok more =>
    refine congrArg Except.ok (Prod.ext ?_ ?_)
    · change tagOf _ ([] ++ placeAttrs _ _ more.attrs) _ _ = placeTag _ pos _
      rw [placeTag, String.toList_ofList]
      rfl
    · dsimp only
      rw [List.take_add, Text.bytes_cons, Text.bytes_append, one]
      omega

theorem token_eq (origin : Origin) {text more : List Char} (kind : TokenKind)
    (h : At source pos (text ++ more)) :
    token origin source kind pos (pos + Text.bytes text) =
      .ok (placeText (.ofText source origin) pos kind text) := by
  rw [token, h.slice, ok_bind, rangeAt_eq]
  rfl

theorem endTag_eq (t : Template.Scanner) (origin : Origin) {cursor : Nat} {rest blamed : List Char}
    (h : At source pos ('<' :: '/' :: rest)) (blame : At source cursor blamed) :
    endTag t origin source cursor pos =
      match endTagAt t ('/' :: rest) with
      | .error halt => .error (told origin source ⟨halt.cause, blamed⟩)
      | .ok (tag, _) => .ok (placeTagText (.ofText source origin) pos .tagEnd tag) := by
  have bracket : '<'.utf8Size = 1 := by decide
  have slash : '/'.utf8Size = 1 := by decide
  have inside : At source (pos + 2) rest := by
    have behind := h.next.next
    rwa [bracket, slash, Nat.add_assoc] at behind
  have name : At source (pos + 2)
      (rest.take (nameLength t rest) ++ rest.drop (nameLength t rest)) := by
    rwa [List.take_append_drop]
  rw [endTag, nameEnd_eq inside, ok_bind, findAfter_eq _ _ name.skip blame, endTagAt]
  simp only [List.drop_succ_cons, List.drop_zero]
  cases found : Text.endOf? ['>'] (rest.drop (nameLength t rest)) with
  | none => rfl
  | some m =>
    have text : At source pos (('<' :: '/' :: rest.take (nameLength t rest + m)) ++
        rest.drop (nameLength t rest + m)) := by
      rwa [List.cons_append, List.cons_append, List.take_append_drop]
    have stop : pos + 2 + Text.bytes (rest.take (nameLength t rest)) +
        Text.bytes ((rest.drop (nameLength t rest)).take m) =
          pos + Text.bytes ('<' :: '/' :: rest.take (nameLength t rest + m)) := by
      rw [List.take_add, Text.bytes_cons, Text.bytes_cons, Text.bytes_append, bracket, slash]
      omega
    have length : nameLength t rest + 1 + m = nameLength t rest + m + 1 := by omega
    dsimp only
    rw [ok_bind, name.slice, ok_bind, stop, token_eq origin _ text, ok_bind, length,
      List.take_succ_cons]
    rfl

end StartTag

end Mosaic.Bytewise.Markup
