import Mosaic.Proofs.Bytewise.Style.Lexeme

/-! A style sheet read by byte intervals. What a run of text is called depends on where it stands
and on the text that its interval cuts out; the intervals that are handed out follow one another,
and each one is cut out of the sheet as a token. -/
namespace Mosaic.Bytewise.Style

open Mosaic.Style Outcome

/-- A piece by its byte interval. -/
abbrev Interval := TokenKind × Span

/-- A reading so far, with the run that is collected and the trivia behind it by their
intervals. -/
structure Sorting where
  place : Place
  blocks : List Block
  run : Option Span
  trivia : List Interval

/-- The sorting before the first lexeme. -/
def Sorting.initial : Sorting := ⟨.heading, [], none, []⟩

/-- Whether a left brace comes before every semicolon and right brace. -/
def opensRuleAt : List Cut → Bool
  | [] => false
  | ⟨mark, _, _⟩ :: rest =>
    match mark with
    | .leftBrace => true
    | .rightBrace | .semicolon => false
    | _ => opensRuleAt rest

section Readers

variable (source : List Char)

/-- The kind of the run between two bytes. -/
def kindAt (place : Place) (span : Span) : Checked TokenKind := do
  match place with
  | .heading =>
    let text ← slice source span.start span.stop
    return if text.head? = some '@' then .atRule else .selector
  | .property => return .property
  | .value => return .value

namespace Sorting

variable (b : Sorting)

def held : Checked (List Interval) := do
  match b.run with
  | some span => return (← kindAt source b.place span, span) :: b.trivia
  | none => return b.trivia

def released : Sorting := { b with run := none, trivia := [] }

def opening : Checked Block := do
  match b.place, b.run with
  | .heading, some span => return .ofHeading (← slice source span.start span.stop)
  | _, _ => return .declarations

def extend (span : Span) (nests : Bool) : List Interval × Sorting :=
  match b.run with
  | some run => ([], { b with run := some ⟨run.start, span.stop⟩, trivia := [] })
  | none =>
    let place := if b.place = .property ∧ nests then .heading else b.place
    (b.trivia, { b with place, run := some span, trivia := [] })

/-- Take a lexeme in: the pieces that are complete by then, and the sorting after it. -/
def step (cut : Cut) (nests : Bool) : Checked (List Interval × Sorting) := do
  let span : Span := ⟨cut.start, cut.stop⟩
  match cut.mark with
  | .blank => return ([], { b with trivia := b.trivia ++ [(.styleBlank, span)] })
  | .comment => return ([], { b with trivia := b.trivia ++ [(.styleComment, span)] })
  | .template => return ((← b.held source) ++ [(.template, span)], b.released)
  | .semicolon =>
    let place := if b.place = .value then .property else b.place
    return ((← b.held source) ++ [(.semicolon, span)], { b.released with place })
  | .leftBrace =>
    let block ← b.opening source
    return ((← b.held source) ++ [(.leftBrace, span)],
      { b.released with place := .ofBlock (some block), blocks := block :: b.blocks })
  | .rightBrace =>
    return ((← b.held source) ++ [(.rightBrace, span)],
      { b.released with place := .ofBlock b.blocks.tail.head?, blocks := b.blocks.tail })
  | .colon =>
    if b.place = .property then
      return ((← b.held source) ++ [(.colon, span)], { b.released with place := .value })
    else return b.extend span nests
  | .run => return b.extend span nests

end Sorting

/-- The pieces that the lexemes make up after a sorting so far. -/
def sortFrom (b : Sorting) : List Cut → Checked (List Interval)
  | [] => b.held source
  | cut :: rest => do
    let (found, next) ← b.step source cut (opensRuleAt (cut :: rest))
    return found ++ (← sortFrom next rest)

/-- The tokens that intervals cut out. -/
def tokensAt (origin : Origin) : List Interval → Checked (List Token)
  | [] => .ok []
  | (kind, span) :: rest => do
    let text ← slice source span.start span.stop
    let range ← rangeAt (.ofText source origin) span.start span.stop
    return .plain kind (String.ofList text) range :: (← tokensAt origin rest)

end Readers

/-- The tokens of a style sheet that starts at `origin`. -/
def tokenize (t : Template.Scanner) (origin : Origin) (source : String) :
    Checked (List Token) := do
  let cuts ← lex t origin source.toList
  let found ← sortFrom source.toList .initial cuts
  tokensAt source.toList origin found

/-- The intervals of pieces, the first of which stands at byte `pos`. -/
def spansFrom (pos : Nat) : List Piece → List Interval
  | [] => []
  | ⟨kind, text⟩ :: rest =>
    (kind, ⟨pos, pos + Text.bytes text⟩) :: spansFrom (pos + Text.bytes text) rest

/-- A sorting that holds the intervals of what a reading holds back from byte `start` on, where
`rest` is still to be read. -/
structure Follows (source : List Char) (start : Nat) (rest : List Char) (r : Reading)
    (b : Sorting) : Prop where
  place : b.place = r.place
  blocks : b.blocks = r.blocks
  run : b.run = r.run.map fun run => ⟨start, start + Text.bytes run⟩
  trivia : b.trivia = spansFrom (start + Text.bytes (r.run.getD [])) r.trivia
  text : At source start (r.text ++ rest)

theorem spansFrom_append (pos : Nat) (first found : List Piece) :
    spansFrom pos (first ++ found) =
      spansFrom pos first ++ spansFrom (pos + Text.bytes (first.flatMap Piece.text)) found := by
  induction first generalizing pos with
  | nil => rfl
  | cons piece first ih =>
    rw [List.cons_append, spansFrom, ih, List.flatMap_cons, Text.bytes_append, Nat.add_assoc]
    rfl

theorem text_of_run (r : Reading) :
    r.text = r.run.getD [] ++ r.trivia.flatMap Piece.text := by
  rw [Reading.text, Reading.held]
  cases r.run <;> rfl

theorem text_of_fresh {r : Reading} {text : List Char} (run : r.run = some text)
    (trivia : r.trivia = []) : r.text = text := by
  rw [text_of_run, run, trivia]
  exact List.append_nil text

section Classes

variable {source rest : List Char} {start : Nat} {r : Reading} {b : Sorting}

theorem Follows.initial (source : List Char) : Follows source 0 source .initial .initial :=
  ⟨rfl, rfl, rfl, rfl, At.start source⟩

theorem Follows.slice_run (h : Follows source start rest r b) {run : List Char}
    (held : r.run = some run) : slice source start (start + Text.bytes run) = .ok run := by
  have text := h.text
  rw [text_of_run, held, Option.getD_some, List.append_assoc] at text
  exact text.slice

theorem Follows.held (h : Follows source start rest r b) :
    b.held source = .ok (spansFrom start r.held) := by
  rw [Sorting.held, h.run, h.trivia, Reading.held]
  cases held : r.run with
  | none => rfl
  | some run =>
    have cut := h.slice_run held
    have kind : kindAt source r.place ⟨start, start + Text.bytes run⟩ =
        .ok (runKind r.place run) := by
      cases r.place with
      | heading =>
        change (slice source start (start + Text.bytes run) >>= fun _ => _) = _
        rw [cut]
        rfl
      | property => rfl
      | value => rfl
    change (kindAt source b.place ⟨start, start + Text.bytes run⟩ >>= fun _ => _) = _
    rw [h.place, kind]
    rfl

theorem Follows.opening (h : Follows source start rest r b) :
    b.opening source = .ok r.opening := by
  rw [Sorting.opening, Reading.opening, h.place, h.run]
  cases held : r.run with
  | none => cases r.place <;> rfl
  | some run =>
    have cut := h.slice_run held
    cases r.place with
    | heading =>
      change (slice source start (start + Text.bytes run) >>= fun _ => _) = _
      rw [cut]
      rfl
    | property => rfl
    | value => rfl

theorem Follows.release {text : List Char} (h : Follows source start (text ++ rest) r b)
    (place : Place) (blocks : List Block) (kind : TokenKind) :
    Follows source
      (start + Text.bytes ((r.held ++ [(⟨kind, text⟩ : Piece)]).flatMap Piece.text)) rest
      { r.released with place, blocks } { b.released with place, blocks } := by
  have behind := h.text.skip.skip
  refine ⟨rfl, rfl, rfl, rfl, ?_⟩
  rw [List.flatMap_append, Text.bytes_append, ← Nat.add_assoc, List.flatMap_cons,
    List.flatMap_nil, List.append_nil]
  exact behind

theorem Follows.extend {text : List Char} (h : Follows source start (text ++ rest) r b)
    (nests : Bool) :
    (b.extend ⟨start + Text.bytes r.text, start + Text.bytes r.text + Text.bytes text⟩ nests).1 =
        spansFrom start (r.extend text nests).1 ∧
      Follows source (start + Text.bytes ((r.extend text nests).1.flatMap Piece.text)) rest
        (r.extend text nests).2
        (b.extend ⟨start + Text.bytes r.text, start + Text.bytes r.text + Text.bytes text⟩
          nests).2 := by
  have behind := h.text.skip
  have whole := text_of_run r
  unfold Sorting.extend Reading.extend
  rw [h.run, h.place]
  cases held : r.run with
  | none =>
    rw [held] at whole
    have trivia : b.trivia = spansFrom start r.trivia := by
      rw [h.trivia, held]
      rfl
    refine ⟨trivia, ?_⟩
    have next : start + Text.bytes (r.trivia.flatMap Piece.text) =
        start + Text.bytes r.text := by
      rw [whole]
      rfl
    refine ⟨rfl, h.blocks, ?_, rfl, ?_⟩
    · exact congrArg (fun pos => some (Span.mk pos (pos + Text.bytes text))) next.symm
    · dsimp only
      rw [next, text_of_fresh (r := ⟨_, _, some text, []⟩) rfl rfl]
      exact behind
  | some run =>
    rw [held] at whole
    refine ⟨rfl, rfl, h.blocks, ?_, rfl, ?_⟩
    · change some (Span.mk start (start + Text.bytes r.text + Text.bytes text)) =
        some ⟨start, start + Text.bytes (run ++ r.trivia.flatMap Piece.text ++ text)⟩
      rw [whole, Nat.add_assoc, ← Text.bytes_append]
      rfl
    · dsimp only
      rw [text_of_fresh rfl rfl, List.append_assoc]
      have text := h.text
      rw [whole] at text
      exact text

theorem Follows.trail {text : List Char} (h : Follows source start (text ++ rest) r b)
    (kind : TokenKind) :
    Follows source start rest { r with trivia := r.trivia ++ [⟨kind, text⟩] }
      { b with
        trivia := b.trivia ++ [(kind, ⟨start + Text.bytes r.text,
          start + Text.bytes r.text + Text.bytes text⟩)] } := by
  have grown : Reading.text { r with trivia := r.trivia ++ [⟨kind, text⟩] } = r.text ++ text := by
    rw [text_of_run, text_of_run, List.flatMap_append, List.append_assoc, List.flatMap_cons,
      List.flatMap_nil, List.append_nil]
  refine ⟨h.place, h.blocks, h.run, ?_, ?_⟩
  · have place : start + Text.bytes r.text = start + Text.bytes (r.run.getD []) +
        Text.bytes (r.trivia.flatMap Piece.text) := by
      rw [text_of_run, Text.bytes_append, Nat.add_assoc]
    dsimp only
    rw [h.trivia, spansFrom_append, place]
    rfl
  · rw [grown, List.append_assoc]
    exact h.text

/-- Whether a run nests a rule is only asked where a run goes on. -/
def Mark.extends : Mark → Bool
  | .colon | .run => true
  | _ => false

/-- One lexeme taken in by its interval, and by its text. -/
theorem Follows.step (lexeme : Lexeme) {nests nestsAt : Bool}
    (h : Follows source start (lexeme.text ++ rest) r b)
    (same : Mark.extends lexeme.mark = true → nestsAt = nests) :
    ∃ next, b.step source ⟨lexeme.mark, start + Text.bytes r.text,
        start + Text.bytes r.text + Text.bytes lexeme.text⟩ nestsAt =
          .ok (spansFrom start (r.step lexeme nests).1, next) ∧
      Follows source (start + Text.bytes ((r.step lexeme nests).1.flatMap Piece.text)) rest
        (r.step lexeme nests).2 next := by
  obtain ⟨mark, text⟩ := lexeme
  obtain ⟨place, blocks, run, trivia⟩ := b
  obtain rfl : place = r.place := h.place
  obtain rfl : blocks = r.blocks := h.blocks
  have handed : ∀ kind, spansFrom start r.held ++ [(kind, ⟨start + Text.bytes r.text,
      start + Text.bytes r.text + Text.bytes text⟩)] =
        spansFrom start (r.held ++ [(⟨kind, text⟩ : Piece)]) :=
    fun kind => (spansFrom_append start r.held [⟨kind, text⟩]).symm
  cases mark with
  | blank => exact ⟨_, rfl, h.trail .styleBlank⟩
  | comment => exact ⟨_, rfl, h.trail .styleComment⟩
  | template =>
    refine ⟨_, ?_, h.release r.place r.blocks .template⟩
    change (Sorting.held source _ >>= fun _ => _) = _
    rw [h.held]
    exact congrArg Except.ok (Prod.ext (handed .template) rfl)
  | semicolon =>
    refine ⟨_, ?_, h.release (if r.place = .value then .property else r.place) r.blocks .semicolon⟩
    change (Sorting.held source _ >>= fun _ => _) = _
    rw [h.held]
    exact congrArg Except.ok (Prod.ext (handed .semicolon) rfl)
  | leftBrace =>
    refine ⟨_, ?_, h.release (.ofBlock (some r.opening)) (r.opening :: r.blocks) .leftBrace⟩
    change (Sorting.opening source _ >>= fun _ => Sorting.held source _ >>= fun _ => _) = _
    rw [h.opening, ok_bind, h.held]
    exact congrArg Except.ok (Prod.ext (handed .leftBrace) rfl)
  | rightBrace =>
    refine ⟨_, ?_, h.release (.ofBlock r.blocks.tail.head?) r.blocks.tail .rightBrace⟩
    change (Sorting.held source _ >>= fun _ => _) = _
    rw [h.held]
    exact congrArg Except.ok (Prod.ext (handed .rightBrace) rfl)
  | colon =>
    unfold Sorting.step Reading.step
    dsimp only
    by_cases property : r.place = .property
    · rw [if_pos property, if_pos property]
      refine ⟨_, ?_, h.release .value r.blocks .colon⟩
      rw [h.held]
      exact congrArg Except.ok (Prod.ext (handed .colon) rfl)
    · obtain ⟨found, next⟩ := h.extend nests
      rw [if_neg property, if_neg property]
      refine ⟨_, ?_, next⟩
      rw [same rfl]
      exact congrArg Except.ok (Prod.ext found rfl)
  | run =>
    obtain ⟨found, next⟩ := h.extend nests
    refine ⟨_, ?_, next⟩
    rw [same rfl]
    exact congrArg Except.ok (Prod.ext found rfl)

theorem opensRuleAt_eq (pos : Nat) (lexemes : List Lexeme) :
    opensRuleAt (cutsFrom pos lexemes) = opensRule lexemes := by
  induction lexemes generalizing pos with
  | nil => rfl
  | cons lexeme lexemes ih =>
    obtain ⟨mark, text⟩ := lexeme
    cases mark with
    | leftBrace | rightBrace | semicolon => rfl
    | blank | comment | colon | run | template => exact ih _

/-- The pieces that lexemes make up are the same by intervals as by texts. -/
theorem sortFrom_eq {lexemes : List Lexeme}
    (h : Follows source start (lexemes.flatMap Lexeme.text) r b) :
    sortFrom source b (cutsFrom (start + Text.bytes r.text) lexemes) =
      .ok (spansFrom start (piecesFrom r lexemes)) := by
  induction lexemes generalizing start r b with
  | nil => exact h.held
  | cons lexeme lexemes ih =>
    obtain ⟨mark, text⟩ := lexeme
    rw [List.flatMap_cons] at h
    have same : Mark.extends mark = true →
        opensRuleAt (cutsFrom (start + Text.bytes r.text) (⟨mark, text⟩ :: lexemes)) =
          opensRule lexemes := by
      intro extending
      rw [opensRuleAt_eq]
      cases mark with
      | colon | run => rfl
      | blank | comment | leftBrace | rightBrace | semicolon | template => cases extending
    obtain ⟨next, step, follows⟩ := h.step ⟨mark, text⟩ same
    have later := ih follows
    have behind : start + Text.bytes r.text + Text.bytes text =
        start + Text.bytes ((r.step ⟨mark, text⟩ (opensRule lexemes)).1.flatMap Piece.text) +
          Text.bytes (r.step ⟨mark, text⟩ (opensRule lexemes)).2.text := by
      have text := congrArg Text.bytes (r.step_text ⟨mark, text⟩ (opensRule lexemes))
      rw [Text.bytes_append, Text.bytes_append] at text
      dsimp only at text
      omega
    dsimp only [cutsFrom] at step
    change (b.step source _ _ >>= fun _ => _) = _
    rw [step, ok_bind]
    dsimp only
    rw [behind, later, piecesFrom, spansFrom_append]
    rfl

theorem tokensAt_eq (origin : Origin) {found : List Piece} {pos : Nat} {rest : List Char}
    (h : At source pos (found.flatMap Piece.text ++ rest)) :
    tokensAt source origin (spansFrom pos found) =
      .ok (Mosaic.Style.place (.ofText source origin) pos found) := by
  induction found generalizing pos with
  | nil => rfl
  | cons piece found ih =>
    obtain ⟨kind, text⟩ := piece
    rw [List.flatMap_cons, List.append_assoc] at h
    change (slice source pos (pos + Text.bytes text) >>= fun _ => _) = _
    rw [h.slice, ok_bind, rangeAt_eq, ok_bind, ih h.skip]
    rfl

end Classes

/-- A style sheet is read by bytes as it is read by characters: nothing is ever trapped. -/
theorem tokenize_eq (t : Template.Scanner) (origin : Origin) (source : String) :
    tokenize t origin source = (Mosaic.Style.tokenize t origin source).mapError .failure := by
  rw [tokenize, lex_eq, Mosaic.Style.tokenize, Mosaic.Style.read]
  cases hlex : lexemes t source.toList with
  | mk found cause =>
    cases cause with
    | some cause =>
      change Except.error (told origin source.toList ⟨cause, 0 + _⟩) = _
      rw [Nat.zero_add]
      rfl
    | none =>
      have whole := lexemes_text hlex
      have follows := Follows.initial source.toList
      have sorted : sortFrom source.toList .initial (cutsFrom 0 found) =
          .ok (spansFrom 0 (pieces found)) := by
        rw [← whole] at follows ⊢
        exact sortFrom_eq follows
      have pieced : (pieces found).flatMap Piece.text ++ [] = source.toList := by
        rw [List.append_nil, pieces, piecesFrom_text, whole]
        rfl
      have start : At source.toList 0 ((pieces found).flatMap Piece.text ++ []) := by
        rw [pieced]
        exact At.start source.toList
      change (sortFrom source.toList .initial ([] ++ cutsFrom 0 found) >>= fun _ => _) = _
      rw [List.nil_append, sorted, ok_bind, tokensAt_eq origin start]
      rfl

end Mosaic.Bytewise.Style
