import Mosaic.Proofs.Template

/-! How far a delimited region extends, and what that depends on. A region that ends behind closed
quotes only ends there in every longer text. One with a stray quote in it ends where it does only
because nothing closes that quote: a quote that follows much later takes the end away. -/
namespace Mosaic.Template

/-- A text between two quotes. A backslash hides the character behind it. -/
inductive Quoted (quote : Char) : List Char → Prop
  | nil : Quoted quote []
  | plain {c : Char} {text : List Char} :
    c ≠ '\\' → c ≠ quote → Quoted quote text → Quoted quote (c :: text)
  | hidden (c : Char) {text : List Char} : Quoted quote text → Quoted quote ('\\' :: c :: text)

/-- In front of `behind` stands a text in which all quotes are closed, and in which no right
delimiter begins outside of quotes. -/
inductive Passes (right behind : List Char) : List Char → Prop
  | nil : Passes right behind []
  | plain {c : Char} {text : List Char} : ¬ (c = '"' ∨ c = '\'') →
    ¬ right <+: c :: (text ++ behind) → Passes right behind text → Passes right behind (c :: text)
  | string {quote : Char} {inner text : List Char} : quote = '"' ∨ quote = '\'' →
    ¬ right <+: quote :: (inner ++ quote :: (text ++ behind)) → Quoted quote inner →
      Passes right behind text → Passes right behind (quote :: (inner ++ quote :: text))

/-- A text that a right delimiter outside of quotes ends, in front of which all quotes are
closed. -/
def Settled (right body : List Char) : Prop :=
  ∃ front behind, body = front ++ behind ∧ Passes right behind front ∧ right <+: behind

variable {left right body behind front : List Char}

theorem delimitedFrom_quoted {quote : Char} {inner : List Char} (h : Quoted quote inner)
    (passed : Nat) (rest : List Char) :
    delimitedFrom right body (.inside quote) passed (inner ++ rest) =
      delimitedFrom right body (.inside quote) (passed + inner.length) rest := by
  induction h generalizing passed with
  | nil => rfl
  | plain visible other _ ih =>
    rw [List.cons_append, delimitedFrom, if_neg visible, if_neg other, ih, List.length_cons,
      Nat.add_right_comm, Nat.add_assoc]
  | hidden c _ ih =>
    rw [List.cons_append, List.cons_append, delimitedFrom, if_pos rfl, delimitedFrom, ih,
      List.length_cons, List.length_cons]
    congr 1
    omega

theorem delimitedFrom_passes (body : List Char) (h : Passes right behind front) (passed : Nat) :
    delimitedFrom right body .outside passed (front ++ behind) =
      delimitedFrom right body .outside (passed + front.length) behind := by
  induction h generalizing passed with
  | nil => rfl
  | plain other closed _ ih =>
    rw [List.cons_append, delimitedFrom, if_neg (by simpa using closed), if_neg other, ih,
      List.length_cons, Nat.add_right_comm, Nat.add_assoc]
  | @string quote inner text isQuote closed quoted _ ih =>
    have visible : quote ≠ '\\' := by
      rintro rfl
      exact absurd isQuote (by decide)
    rw [List.cons_append, List.append_assoc, List.cons_append, delimitedFrom,
      if_neg (by simpa using closed), if_pos isQuote, delimitedFrom_quoted quoted, delimitedFrom,
      if_neg visible, if_pos rfl, ih]
    simp only [List.length_cons, List.length_append]
    congr 1
    omega

/-- A text behind a quote that the text does not close. -/
def Unclosed (quote : Char) (tail : List Char) : Prop :=
  Quoted quote tail ∨ ∃ inner, tail = inner ++ ['\\'] ∧ Quoted quote inner

/-- Behind a quote either the quote is closed, or all of the text is quoted. -/
theorem closed_or_unclosed (quote : Char) : ∀ tail : List Char,
    (∃ inner rest, tail = inner ++ quote :: rest ∧ Quoted quote inner) ∨ Unclosed quote tail
  | [] => .inr (.inl .nil)
  | c :: rest => by
    by_cases escape : c = '\\'
    · subst escape
      cases rest with
      | nil => exact .inr (.inr ⟨[], rfl, .nil⟩)
      | cons d rest =>
        rcases closed_or_unclosed quote rest with
          ⟨inner, later, rfl, quoted⟩ | quoted | ⟨inner, rfl, quoted⟩
        · exact .inl ⟨'\\' :: d :: inner, later, rfl, .hidden d quoted⟩
        · exact .inr (.inl (.hidden d quoted))
        · exact .inr (.inr ⟨'\\' :: d :: inner, rfl, .hidden d quoted⟩)
    · by_cases same : c = quote
      · subst same
        exact .inl ⟨[], rest, rfl, .nil⟩
      · rcases closed_or_unclosed quote rest with
          ⟨inner, later, rfl, quoted⟩ | quoted | ⟨inner, rfl, quoted⟩
        · exact .inl ⟨c :: inner, later, rfl, .plain escape same quoted⟩
        · exact .inr (.inl (.plain escape same quoted))
        · exact .inr (.inr ⟨c :: inner, rfl, .plain escape same quoted⟩)

theorem Quoted.append {quote : Char} {inner more : List Char} (h : Quoted quote inner)
    (later : Quoted quote more) : Quoted quote (inner ++ more) := by
  induction h with
  | nil => exact later
  | plain visible other _ ih => exact .plain visible other ih
  | hidden c _ ih => exact .hidden c ih

/-- A quote that is not closed could be closed behind one more character at most. -/
theorem Unclosed.exists_quoted {quote : Char} {tail : List Char} (h : Unclosed quote tail) :
    ∃ filler, Quoted quote (tail ++ filler) := by
  rcases h with quoted | ⟨inner, rfl, quoted⟩
  · exact ⟨[], by rwa [List.append_nil]⟩
  · refine ⟨[quote], ?_⟩
    rw [List.append_assoc]
    exact quoted.append (.hidden quote .nil)

/-- How a text reads outside of quotes: it is settled, it has no right delimiter, or it has a stray
quote. -/
inductive Reads (right : List Char) : List Char → Prop
  | ends {front behind : List Char} : Passes right behind front → right <+: behind →
    Reads right (front ++ behind)
  | endless {text : List Char} : Passes right [] text → Reads right text
  | stray {quote : Char} {front tail : List Char} : Passes right (quote :: tail) front →
    quote = '"' ∨ quote = '\'' → ¬ right <+: quote :: tail → Unclosed quote tail →
    Reads right (front ++ quote :: tail)

theorem Reads.plain {c : Char} {text : List Char} (other : ¬ (c = '"' ∨ c = '\''))
    (closed : ¬ right <+: c :: text) (h : Reads right text) : Reads right (c :: text) := by
  cases h with
  | ends passes closes => exact .ends (.plain other closed passes) closes
  | endless passes => exact .endless (.plain other (by rwa [List.append_nil]) passes)
  | stray passes isQuote begins unclosed =>
    exact .stray (.plain other closed passes) isQuote begins unclosed

theorem Reads.string {quote : Char} {inner text : List Char} (isQuote : quote = '"' ∨ quote = '\'')
    (closed : ¬ right <+: quote :: (inner ++ quote :: text)) (quoted : Quoted quote inner)
    (h : Reads right text) : Reads right (quote :: (inner ++ quote :: text)) := by
  cases h with
  | @ends front behind passes closes =>
    have ends := Reads.ends (.string isQuote closed quoted passes) closes
    rwa [List.cons_append, List.append_assoc] at ends
  | endless passes =>
    exact .endless (.string isQuote (by rwa [List.append_nil]) quoted passes)
  | stray passes isStray begins unclosed =>
    have stray := Reads.stray (.string isQuote closed quoted passes) isStray begins unclosed
    rwa [List.cons_append, List.append_assoc] at stray

theorem reads (right : List Char) (text : List Char) : Reads right text := by
  induction size : text.length using Nat.strongRecOn generalizing text with
  | ind size ih =>
    subst size
    by_cases closes : right <+: text
    · exact Reads.ends (Passes.nil : Passes right text []) closes
    · cases text with
      | nil => exact .endless .nil
      | cons c rest =>
        by_cases isQuote : c = '"' ∨ c = '\''
        · rcases closed_or_unclosed c rest with ⟨inner, later, rfl, quoted⟩ | unclosed
          · refine .string isQuote closes quoted (ih later.length ?_ later rfl)
            simp only [List.length_cons, List.length_append]
            omega
          · exact Reads.stray (Passes.nil : Passes right (c :: rest) []) isQuote closes unclosed
        · exact .plain isQuote closes (ih rest.length (Nat.lt_succ_self _) rest rfl)

theorem length_lt_of_grown {text more : List Char} (short : ¬ right <+: text)
    (h : right <+: text ++ more) : text.length < right.length := by
  refine Nat.lt_of_not_le fun fits => short ?_
  exact List.prefix_of_prefix_length_le h (List.prefix_append text more) fits

/-- A text that passes does so in a longer text too, unless a right delimiter begins in it there
that reaches behind the end of the shorter text. -/
theorem Passes.grown (more : List Char) (h : Passes right behind front) :
    Passes right (behind ++ more) front ∨ ∃ first second, front = first ++ second ∧
      Passes right (second ++ (behind ++ more)) first ∧ right <+: second ++ (behind ++ more) ∧
      (second ++ behind).length < right.length := by
  induction h with
  | nil => exact .inl .nil
  | @plain c text other closed _ ih =>
    by_cases closes : right <+: c :: (text ++ (behind ++ more))
    · have ends : right <+: (c :: (text ++ behind)) ++ more := by
        rwa [List.cons_append, List.append_assoc]
      exact .inr ⟨[], c :: text, rfl, .nil, closes, length_lt_of_grown closed ends⟩
    · rcases ih with passes | ⟨first, second, rfl, passes, ends, long⟩
      · exact .inl (.plain other closes passes)
      · rw [List.append_assoc] at closes
        exact .inr ⟨c :: first, second, rfl, .plain other closes passes, ends, long⟩
  | @string quote inner text isQuote closed quoted _ ih =>
    by_cases closes : right <+: quote :: (inner ++ quote :: (text ++ (behind ++ more)))
    · have ends : right <+: (quote :: (inner ++ quote :: (text ++ behind))) ++ more := by
        rwa [List.cons_append, List.append_assoc, List.cons_append, List.append_assoc]
      refine .inr ⟨[], quote :: (inner ++ quote :: text), rfl, .nil, ?_, ?_⟩
      · rwa [List.cons_append, List.append_assoc, List.cons_append]
      · rw [List.cons_append, List.append_assoc, List.cons_append]
        exact length_lt_of_grown closed ends
    · rcases ih with passes | ⟨first, second, rfl, passes, ends, long⟩
      · exact .inl (.string isQuote closes quoted passes)
      · rw [List.append_assoc] at closes
        refine .inr ⟨quote :: (inner ++ quote :: first), second, ?_,
          .string isQuote closes quoted passes, ends, long⟩
        rw [List.cons_append, List.append_assoc, List.cons_append]

theorem delimitedFrom_ends (rightSome : right ≠ []) (passes : Passes right behind front)
    (closes : right <+: behind) :
    delimitedFrom right body .outside 0 (front ++ behind) = some (front.length + right.length) := by
  rw [delimitedFrom_passes body passes]
  cases behind with
  | nil => exact absurd (List.prefix_nil.mp closes) rightSome
  | cons c rest =>
    rw [delimitedFrom, if_pos (List.isPrefixOf_iff_prefix.mpr closes), Nat.zero_add]

/-- What ends outside of quotes ends there in every longer text. -/
theorem delimitedFrom_of_settled {n : Nat} (rightSome : right ≠ []) (settled : Settled right body)
    (h : delimitedFrom right body .outside 0 body = some n) (more : List Char) :
    delimitedFrom right (body ++ more) .outside 0 (body ++ more) = some n := by
  obtain ⟨front, behind, rfl, passes, closes⟩ := settled
  rw [delimitedFrom_ends rightSome passes closes] at h
  rcases passes.grown more with still | ⟨first, second, -, -, -, long⟩
  · rw [List.append_assoc]
    rw [← h]
    exact delimitedFrom_ends rightSome still (closes.trans (List.prefix_append behind more))
  · have fits := closes.length_le
    rw [List.length_append] at long
    omega

/-- A delimiter that is longer than the rest of a text ends it behind the text. -/
theorem length_lt_of_ends {rest more : List Char} {m : Nat} (rightSome : right ≠ [])
    (passes : Passes right (rest ++ more) front) (closes : right <+: rest ++ more)
    (long : rest.length < right.length)
    (h : delimitedFrom right body .outside 0 (front ++ rest ++ more) = some m) :
    (front ++ rest).length < m := by
  rw [List.append_assoc, delimitedFrom_ends rightSome passes closes] at h
  cases h
  rw [List.length_append]
  exact Nat.add_lt_add_left long _

/-- What does not end outside of quotes does not end in some longer text, or ends behind the
shorter text. -/
theorem delimitedFrom_of_not_settled {n : Nat} (rightSome : right ≠ [])
    (unsettled : ¬ Settled right body) (h : delimitedFrom right body .outside 0 body = some n) :
    ∃ more, ∀ m, delimitedFrom right (body ++ more) .outside 0 (body ++ more) = some m →
      body.length < m := by
  cases reads right body with
  | @ends front behind passes closes => exact absurd ⟨front, behind, rfl, passes, closes⟩ unsettled
  | endless passes =>
    have last := delimitedFrom_passes body passes 0
    rw [List.append_nil, h] at last
    cases last
  | @stray quote front tail passes isQuote begins unclosed =>
    obtain ⟨filler, quoted⟩ := unclosed.exists_quoted
    refine ⟨filler ++ [quote], fun m found => ?_⟩
    rcases passes.grown (filler ++ [quote]) with still | ⟨first, second, rfl, early, ends, long⟩
    · by_cases closes : right <+: (quote :: tail) ++ (filler ++ [quote])
      · exact length_lt_of_ends rightSome still closes (length_lt_of_grown begins closes) found
      · -- the stray quote is closed now, and nothing stands behind it
        have whole : (quote :: tail) ++ (filler ++ [quote]) =
            quote :: ((tail ++ filler) ++ quote :: []) := by
          rw [List.cons_append, List.append_assoc]
        have string : Passes right [] (quote :: ((tail ++ filler) ++ quote :: [])) :=
          .string isQuote (whole ▸ closes) quoted .nil
        rw [List.append_assoc, delimitedFrom_passes _ still, whole, ← List.append_nil (_ :: _),
          delimitedFrom_passes _ string, delimitedFrom] at found
        cases found
    · rw [List.append_assoc first] at found ⊢
      refine length_lt_of_ends rightSome ?_ ?_ long found
      · rwa [List.append_assoc]
      · rwa [List.append_assoc]

theorem delimitedFrom_le {n : Nat} (rightSome : right ≠ [])
    (h : delimitedFrom right body .outside 0 body = some n) : n ≤ body.length := by
  obtain ⟨m, -, rfl, closes⟩ := endsAfter_delimitedFrom (List.nil_append body).symm rfl h
  have fits := (List.isPrefixOf_iff_prefix.mp closes).length_le
  have pos := List.length_pos_iff.mpr rightSome
  rw [List.length_drop] at fits
  omega

namespace Adapter

theorem scan_delimited (left right body : List Char) :
    delimited.scan left right (left ++ body) =
      (delimitedFrom right body .outside 0 body).map (· + left.length) := by
  rw [scan, List.drop_left]

theorem reach_delimited {left right source : String} {body : List Char}
    (begins : source.toList = left.toList ++ body) :
    delimited.reach left right source = (delimitedFrom right.toList body .outside 0 body).map
      fun n => Text.bytes (left.toList ++ body.take n) := by
  rw [reach, begins, scan_delimited, Option.map_map]
  congr 1
  funext n
  rw [Function.comp_apply, Nat.add_comm, List.take_length_add_append]

/-- Where a region ends does not depend on what follows it if and only if it ends outside of quotes
and all quotes in it are closed. Else some text that follows takes the end away, or moves it behind
all that stood there before. -/
theorem reach_append_iff (left right source : String) (body : List Char) {n : Nat}
    (rightSome : right ≠ "") (begins : source.toList = left.toList ++ body)
    (h : delimited.reach left right source = some n) :
    ((∀ more, delimited.reach left right (source ++ more) = some n) ↔
      Settled right.toList body) ∧
    (¬ Settled right.toList body → ∃ more, ∀ m,
      delimited.reach left right (source ++ more) = some m → Text.bytes source.toList < m) := by
  have ends : right.toList ≠ [] := fun none => rightSome (String.toList_inj.mp none)
  rw [reach_delimited begins] at h
  obtain ⟨size, found, rfl⟩ := Option.map_eq_some_iff.mp h
  have fits := delimitedFrom_le ends found
  have longer (more : List Char) : (source ++ String.ofList more).toList =
      left.toList ++ (body ++ more) := by
    rw [String.toList_append, String.toList_ofList, begins, List.append_assoc]
  have moves : ¬ Settled right.toList body → ∃ more, ∀ m,
      delimited.reach left right (source ++ more) = some m → Text.bytes source.toList < m := by
    intro unsettled
    obtain ⟨more, behind⟩ := delimitedFrom_of_not_settled ends unsettled found
    refine ⟨String.ofList more, fun m reached => ?_⟩
    rw [reach_delimited (longer more)] at reached
    obtain ⟨later, again, rfl⟩ := Option.map_eq_some_iff.mp reached
    have some := behind later again
    have within := delimitedFrom_le ends again
    have extra : more.take (later - body.length) ≠ [] := by
      rw [← List.length_pos_iff, List.length_take]
      rw [List.length_append] at within
      omega
    have pos := Text.bytes_pos extra
    rw [begins, List.take_append, List.take_of_length_le (Nat.le_of_lt some), Text.bytes_append,
      Text.bytes_append, Text.bytes_append]
    omega
  refine ⟨⟨fun same => ?_, fun settled more => ?_⟩, moves⟩
  · refine Classical.byContradiction fun unsettled => ?_
    obtain ⟨more, behind⟩ := moves unsettled
    have past := behind _ (same more)
    have within := Text.bytes_take_le body fits
    rw [List.take_length] at within
    rw [begins, Text.bytes_append, Text.bytes_append] at past
    omega
  · have still := delimitedFrom_of_settled ends settled found more.toList
    have grown : (source ++ more).toList = left.toList ++ (body ++ more.toList) := by
      rw [String.toList_append, begins, List.append_assoc]
    rw [reach_delimited grown, still, Option.map_some, List.take_append_of_le_length fits]

/-- A right delimiter between quotes, and a stray apostrophe. -/
theorem reach_append_iff_quoted :
    (∀ more, delimited.reach "\x7b%" "%\x7d" ("\x7b%a'%\x7d'%\x7d" ++ more) = some 9) ∧
      ∃ more, ∀ m,
        delimited.reach "\x7b%" "%\x7d" ("\x7b%* it's *%\x7d" ++ more) = some m → 12 < m := by
  constructor
  · have quoted : Quoted '\'' ['%', '\x7d'] :=
      .plain (by decide) (by decide) (.plain (by decide) (by decide) .nil)
    have passes : Passes ['%', '\x7d'] ['%', '\x7d'] ['a', '\'', '%', '\x7d', '\''] :=
      .plain (by decide) (by decide) (.string (.inr rfl) (by decide) quoted .nil)
    obtain ⟨same, -⟩ := reach_append_iff "\x7b%" "%\x7d" "\x7b%a'%\x7d'%\x7d"
      ['a', '\'', '%', '\x7d', '\'', '%', '\x7d'] (n := 9) (by decide) (by decide) (by decide)
    exact same.mpr ⟨_, _, rfl, passes, List.prefix_rfl⟩
  · obtain ⟨same, moves⟩ := reach_append_iff "\x7b%" "%\x7d" "\x7b%* it's *%\x7d"
      "* it's *%\x7d".toList (n := 12) (by decide) (by decide) (by decide)
    refine moves fun settled => ?_
    have still := same.mpr settled " it's"
    revert still
    decide

/-- A region with a stray apostrophe ends, but not in front of a text with an apostrophe. -/
theorem not_reach_of_apostrophe :
    delimited.reach "\x7b%" "%\x7d" "\x7b%* it's *%\x7d" = some 12 ∧
      delimited.reach "\x7b%" "%\x7d" ("\x7b%* it's *%\x7d" ++ " it's") = none := by
  decide

end Adapter

end Mosaic.Template
