import Mosaic.Proofs.Style.Run

/-! What may stand where in a style sheet. The pieces of a sheet are read one after the other; what
was read fixes the open blocks and the part of a declaration or heading that has been reached, and
with them the pieces that can come next. A reading hands out no other pieces. -/
namespace Mosaic

/-- Whether tokens of this kind end a heading or a declaration. -/
def TokenKind.cuts : TokenKind → Bool
  | .leftBrace | .rightBrace | .semicolon => true
  | _ => false

/-- Whether tokens of this kind can stand anywhere in a heading or a declaration. -/
def TokenKind.isLoose : TokenKind → Bool
  | .template | .styleBlank | .styleComment => true
  | _ => false

namespace Style

/-- A left brace comes before every semicolon and right brace. -/
def leadsToBlock : List Piece → Bool
  | [] => false
  | piece :: rest =>
    match piece.kind with
    | .leftBrace => true
    | .rightBrace | .semicolon => false
    | _ => leadsToBlock rest

/-- The open blocks behind pieces of a sheet, from the innermost one on, and the block that a left
brace opens there. -/
structure Nest where
  blocks : List Block
  next : Block

def Nest.outside : Nest := ⟨[], .declarations⟩

/-- A block is named by the heading right in front of it, and a right brace outside of all blocks
closes nothing. -/
def Nest.after (nest : Nest) (piece : Piece) : Nest :=
  match piece.kind with
  | .leftBrace => ⟨nest.next :: nest.blocks, .declarations⟩
  | .rightBrace => ⟨nest.blocks.tail, .declarations⟩
  | .styleBlank | .styleComment => nest
  | .selector | .atRule => { nest with next := .ofHeading piece.text }
  | _ => { nest with next := .declarations }

/-- The innermost open block holds declarations. -/
def Nest.Inside (nest : Nest) : Prop := nest.blocks.head? = some .declarations

/-- How far a heading or a declaration has been read. -/
inductive Part where
  /-- Nothing but template regions, spaces and comments. -/
  | lead
  | heading
  | names
  | values
deriving DecidableEq

def Part.after (part : Part) : TokenKind → Part
  | .leftBrace | .rightBrace | .semicolon => .lead
  | .selector | .atRule => .heading
  | .property => .names
  | .colon | .value => .values
  | _ => part

/-- Whether a run can stand behind a token; `free` says whether one could before it. -/
def freeAfter (free : Bool) : TokenKind → Bool
  | .selector | .atRule | .property | .value => false
  | .styleBlank | .styleComment => free
  | _ => true

/-- What pieces that were read say of those that follow. -/
structure Stand where
  nest : Nest
  part : Part
  /-- Whether a run can stand next. -/
  free : Bool

namespace Stand

/-- At the beginning of a block, or behind a semicolon in it. -/
def fresh (blocks : List Block) : Stand := ⟨⟨blocks, .declarations⟩, .lead, true⟩

def after (s : Stand) (piece : Piece) : Stand :=
  ⟨s.nest.after piece, s.part.after piece.kind, freeAfter s.free piece.kind⟩

/-- The pieces that can stand next; `opens` says whether a left brace comes before every semicolon
and right brace. -/
inductive Admits (s : Stand) (opens : Bool) : Piece → Prop
  | cut {piece : Piece} : piece.kind.cuts = true → Admits s opens piece
  | loose {piece : Piece} : piece.kind.isLoose = true → Admits s opens piece
  | heading {text : List Char} : s.free = true → Firm text → s.part = .lead ∨ s.part = .heading →
    (s.nest.Inside → opens = true ∧ (s.part = .lead → text.head? ≠ some ':')) →
      Admits s opens ⟨runKind .heading text, text⟩
  | name {text : List Char} : s.free = true → Firm text → s.part = .lead ∨ s.part = .names →
    s.nest.Inside → opens = false → Admits s opens ⟨.property, text⟩
  | colon {text : List Char} : s.part = .lead ∨ s.part = .names → s.nest.Inside →
    Admits s opens ⟨.colon, text⟩
  | value {text : List Char} : s.free = true → Firm text → s.part = .values → s.nest.Inside →
    Admits s opens ⟨.value, text⟩

end Stand

/-- Each piece can stand where it stands. -/
inductive Laid : Stand → List Piece → Prop
  | nil {s : Stand} : Laid s []
  | cons {s : Stand} {piece : Piece} {rest : List Piece} :
    s.Admits (leadsToBlock rest) piece → Laid (s.after piece) rest → Laid s (piece :: rest)

theorem laid_cons {s : Stand} {piece : Piece} {rest : List Piece} :
    Laid s (piece :: rest) ↔ s.Admits (leadsToBlock rest) piece ∧ Laid (s.after piece) rest := by
  constructor
  · rintro (_ | ⟨admits, later⟩)
    exact ⟨admits, later⟩
  · rintro ⟨admits, later⟩
    exact .cons admits later

theorem runKind_heading (text : List Char) :
    runKind .heading text = .selector ∨ runKind .heading text = .atRule := by
  by_cases marked : text.head? = some '@' <;> simp [runKind, marked]

/-- A left brace behind a heading opens the block that the heading names. -/
theorem Nest.after_heading (nest : Nest) (text : List Char) :
    nest.after ⟨runKind .heading text, text⟩ = { nest with next := .ofHeading text } := by
  rcases runKind_heading text with kind | kind <;> rw [Nest.after, kind]

theorem Stand.part_after_heading (s : Stand) (text : List Char) :
    (s.after ⟨runKind .heading text, text⟩).part = .heading := by
  rcases runKind_heading text with kind | kind <;> rw [kind] <;> rfl

theorem leadsToBlock_run (place : Place) (text : List Char) (rest : List Piece) :
    leadsToBlock (⟨runKind place text, text⟩ :: rest) = leadsToBlock rest := by
  cases place with
  | heading => rcases runKind_heading text with kind | kind <;> simp only [leadsToBlock, kind]
  | property | value => rfl

theorem leadsToBlock_trivia {trivia : List Piece}
    (blank : ∀ piece ∈ trivia, piece.kind.isTrivia = true) (rest : List Piece) :
    leadsToBlock (trivia ++ rest) = leadsToBlock rest := by
  induction trivia with
  | nil => rfl
  | cons piece more ih =>
    obtain ⟨self, others⟩ := List.forall_mem_cons.mp blank
    rw [← ih others]
    rcases piece with ⟨kind, text⟩
    cases kind <;> first | rfl | cases self

theorem Stand.after_trivia (s : Stand) {piece : Piece} (blank : piece.kind.isTrivia = true) :
    s.after piece = s := by
  rcases piece with ⟨kind, text⟩
  cases kind <;> first | rfl | cases blank

theorem laid_trivia {s : Stand} {trivia rest : List Piece}
    (blank : ∀ piece ∈ trivia, piece.kind.isTrivia = true) (h : Laid s rest) :
    Laid s (trivia ++ rest) := by
  induction trivia with
  | nil => exact h
  | cons piece more ih =>
    obtain ⟨self, others⟩ := List.forall_mem_cons.mp blank
    refine .cons (.loose ?_) ?_
    · rcases piece with ⟨kind, text⟩
      cases kind <;> first | rfl | cases self
    · rw [s.after_trivia self]
      exact ih others

namespace Reading

/-- What holds of the place of a reading where pieces stand; the run that is held back is not among
them. -/
def Placed (r : Reading) (s : Stand) (opens : Bool) : Prop :=
  match r.place with
  | .heading => (s.part = .lead ∨ s.part = .heading) ∧
    (s.nest.Inside → opens = true ∧
      (s.part = .lead → ∃ run, r.run = some run ∧ run.head? ≠ some ':'))
  | .property => (s.part = .lead ∨ s.part = .names) ∧ s.nest.Inside ∧
    (s.part = .names ∨ r.run ≠ none → opens = false)
  | .value => s.part = .values ∧ s.nest.Inside

/-- A reading that has handed out the pieces that lead to `s`. -/
structure At (r : Reading) (s : Stand) (opens : Bool) : Prop where
  blocks : s.nest.blocks = r.blocks
  next : s.nest.next = .declarations
  free : s.free = true
  trivia : ∀ piece ∈ r.trivia, piece.kind.isTrivia = true
  run : ∀ run, r.run = some run → Firm run
  placed : r.Placed s opens

/-- Where the reading stands once it has handed out its run. -/
def ahead (r : Reading) (s : Stand) : Stand :=
  match r.run with
  | some run => s.after ⟨runKind r.place run, run⟩
  | none => s

variable {r : Reading} {s : Stand} {opens : Bool}

theorem At.fresh (blocks : List Block) (opens : Bool) :
    At ⟨.ofBlock blocks.head?, blocks, none, []⟩ (.fresh blocks) opens := by
  refine ⟨rfl, rfl, rfl, fun _ mem => (nomatch mem), fun _ held => (nomatch held), ?_⟩
  rcases blocks with _ | ⟨_ | _, outer⟩ <;>
    simp [Placed, Place.ofBlock, Stand.fresh, Nest.Inside]

theorem At.leadsToBlock_held (h : r.At s opens) (rest : List Piece) :
    leadsToBlock (r.held ++ rest) = leadsToBlock rest := by
  unfold held
  cases r.run with
  | none => exact leadsToBlock_trivia h.trivia rest
  | some run => rw [List.cons_append, leadsToBlock_run, leadsToBlock_trivia h.trivia]

/-- The run that is held back can stand where the reading is. -/
theorem At.admits_run (h : r.At s opens) {run : List Char} (held : r.run = some run) :
    s.Admits opens ⟨runKind r.place run, run⟩ := by
  have firm := h.run run held
  have placed := h.placed
  unfold Placed at placed
  cases place : r.place with
  | heading =>
    rw [place] at placed
    obtain ⟨part, nested⟩ := placed
    refine .heading h.free firm part fun inside => ⟨(nested inside).1, fun lead => ?_⟩
    obtain ⟨_, same, plain⟩ := (nested inside).2 lead
    rw [held] at same
    cases same
    exact plain
  | property =>
    rw [place] at placed
    obtain ⟨part, inside, ends⟩ := placed
    exact .name h.free firm part inside (ends (.inr (by rw [held]; exact Option.some_ne_none _)))
  | value =>
    rw [place] at placed
    exact .value h.free firm placed.1 placed.2

theorem At.laid_held (h : r.At s opens) {rest : List Piece} (same : leadsToBlock rest = opens)
    (later : Laid (r.ahead s) rest) : Laid s (r.held ++ rest) := by
  unfold held
  unfold ahead at later
  cases held : r.run with
  | none =>
    rw [held] at later
    exact laid_trivia h.trivia later
  | some run =>
    rw [held] at later
    have opens' : leadsToBlock (r.trivia ++ rest) = opens := by
      rw [leadsToBlock_trivia h.trivia, same]
    exact .cons (opens' ▸ h.admits_run held) (laid_trivia h.trivia later)

/-- A piece that everything held back goes before. -/
theorem At.laid_released (h : r.At s opens) {piece : Piece} {rest : List Piece}
    (same : leadsToBlock (piece :: rest) = opens)
    (admits : (r.ahead s).Admits (leadsToBlock rest) piece)
    (later : Laid ((r.ahead s).after piece) rest) : Laid s (r.held ++ [piece] ++ rest) := by
  rw [List.append_assoc, List.singleton_append]
  exact h.laid_held same (.cons admits later)

theorem ahead_nest_blocks (r : Reading) (s : Stand) : (r.ahead s).nest.blocks = s.nest.blocks := by
  unfold ahead
  cases r.run with
  | none => rfl
  | some run =>
    cases r.place with
    | heading =>
      have named := congrArg Nest.blocks (s.nest.after_heading run)
      exact named
    | property | value => rfl

/-- The next left brace opens the block that the run held back names. -/
theorem At.ahead_nest_next (h : r.At s opens) : (r.ahead s).nest.next = r.opening := by
  have next := h.next
  rcases r with ⟨place, blocks, run, trivia⟩
  cases run with
  | none => cases place <;> exact next
  | some run =>
    cases place with
    | heading =>
      have named := congrArg Nest.next (s.nest.after_heading run)
      exact named
    | property | value => rfl

/-- Behind the run that was held back, a heading is still a heading, a name still a name. -/
theorem At.placed_ahead (h : r.At s opens) : r.released.Placed (r.ahead s) opens := by
  have inside : (r.ahead s).nest.Inside ↔ s.nest.Inside := by
    rw [Nest.Inside, ahead_nest_blocks, Nest.Inside]
  have placed := h.placed
  rcases r with ⟨place, blocks, run, trivia⟩
  cases run with
  | none => exact placed
  | some run =>
    cases place with
    | heading =>
      have part : (ahead ⟨.heading, blocks, some run, trivia⟩ s).part = .heading :=
        s.part_after_heading run
      refine ⟨.inr part, fun nested => ⟨(placed.2 (inside.mp nested)).1, fun lead => ?_⟩⟩
      rw [part] at lead
      cases lead
    | property => exact ⟨.inr rfl, placed.2.1, fun _ => placed.2.2 (.inr (Option.some_ne_none _))⟩
    | value => exact ⟨rfl, placed.2⟩

theorem At.blank (h : r.At s opens) {piece : Piece} (blank : piece.kind.isTrivia = true) :
    At { r with trivia := r.trivia ++ [piece] } s opens :=
  { h with trivia := List.forall_mem_append.mpr ⟨h.trivia, List.forall_mem_singleton.mpr blank⟩ }

theorem At.template (h : r.At s opens) (text : List Char) :
    r.released.At ((r.ahead s).after ⟨.template, text⟩) opens :=
  ⟨(ahead_nest_blocks r s).trans h.blocks, rfl, rfl, fun _ mem => (nomatch mem),
    fun _ held => (nomatch held), h.placed_ahead⟩

theorem At.colon (h : r.At s opens) (place : r.place = .property) (text : List Char) :
    (r.ahead s).Admits opens ⟨.colon, text⟩ ∧
      At { r.released with place := .value } ((r.ahead s).after ⟨.colon, text⟩) opens := by
  have placed := h.placed_ahead
  unfold Placed at placed
  rw [show r.released.place = .property from place] at placed
  refine ⟨.colon placed.1 placed.2.1, ?_⟩
  exact ⟨(ahead_nest_blocks r s).trans h.blocks, rfl, rfl, fun _ mem => (nomatch mem),
    fun _ held => (nomatch held), rfl, placed.2.1⟩

/-- A semicolon is where a block begins anew. -/
theorem At.semicolon (h : r.At s false) :
    At { r.released with place := if r.place = .value then .property else r.place }
      (.fresh r.blocks) opens := by
  have again : (if r.place = .value then .property else r.place) = .ofBlock r.blocks.head? := by
    have placed := h.placed
    unfold Placed at placed
    rw [Nest.Inside, h.blocks] at placed
    cases place : r.place with
    | heading =>
      rw [place] at placed
      rcases held : r.blocks.head? with _ | _ | _
      · rfl
      · rfl
      · cases (placed.2 held).1
    | property =>
      rw [place] at placed
      rw [placed.2.1]
      rfl
    | value =>
      rw [place] at placed
      rw [placed.2]
      rfl
  rw [again]
  exact .fresh r.blocks opens

/-- A part of a run that opens a rule in a declaration block does not begin with a colon. -/
theorem At.extend (h : r.At s opens) {text : List Char} (firm : Firm text)
    (plain : r.place = .property → text.head? ≠ some ':') :
    (r.extend text opens).2.At s opens ∧
      ∀ more, Laid s more → Laid s ((r.extend text opens).1 ++ more) := by
  have placed := h.placed
  rcases r with ⟨place, blocks, run, trivia⟩
  cases run with
  | some run =>
    have front := h.run run rfl
    refine ⟨⟨h.blocks, h.next, h.free, fun _ mem => (nomatch mem), ?_, ?_⟩, fun _ later => later⟩
    · rintro _ ⟨⟩
      exact front.append _ firm
    · cases place with
      | heading =>
        refine ⟨placed.1, fun inside => ⟨(placed.2 inside).1, fun lead => ⟨_, rfl, ?_⟩⟩⟩
        obtain ⟨c, first, -⟩ := front.first
        obtain ⟨_, same, plain⟩ := (placed.2 inside).2 lead
        cases same
        rwa [List.append_assoc, List.head?_append, first, Option.some_or, ← first]
      | property => exact ⟨placed.1, placed.2.1, fun _ => placed.2.2 (.inr (Option.some_ne_none _))⟩
      | value => exact placed
  | none =>
    refine ⟨⟨h.blocks, h.next, h.free, fun _ mem => (nomatch mem), ?_, ?_⟩,
      fun _ later => laid_trivia h.trivia later⟩
    · rintro _ ⟨⟩
      exact firm
    · cases place with
      | heading =>
        refine ⟨placed.1, fun inside => ⟨(placed.2 inside).1, fun lead => ?_⟩⟩
        obtain ⟨_, held, -⟩ := (placed.2 inside).2 lead
        cases held
      | property =>
        cases opens with
        | false => exact ⟨placed.1, placed.2.1, fun _ => rfl⟩
        | true =>
          -- a name has been read only if no left brace ends the stretch
          have lead : s.part = .lead := placed.1.resolve_right fun names =>
            nomatch placed.2.2 (.inl names)
          exact ⟨.inl lead, fun _ => ⟨rfl, fun _ => ⟨text, rfl, plain rfl⟩⟩⟩
      | value => exact placed

theorem At.leadsToBlock_step (h : r.At s opens) (lexeme : Lexeme) (rest : List Lexeme)
    {more : List Piece} (same : leadsToBlock more = opensRule rest) :
    leadsToBlock ((r.step lexeme (opensRule rest)).1 ++ more) = opensRule (lexeme :: rest) := by
  have held (kind : TokenKind) : leadsToBlock (r.held ++ [⟨kind, lexeme.text⟩] ++ more) =
      leadsToBlock (⟨kind, lexeme.text⟩ :: more) := by
    rw [List.append_assoc, List.singleton_append, h.leadsToBlock_held]
  have extended : leadsToBlock ((r.extend lexeme.text (opensRule rest)).1 ++ more) =
      opensRule rest := by
    unfold Reading.extend
    cases r.run with
    | some run => exact same
    | none => rw [leadsToBlock_trivia h.trivia, same]
  rcases lexeme with ⟨mark, text⟩
  cases mark with
  | blank | comment => exact same
  | template => exact (held _).trans same
  | leftBrace | rightBrace | semicolon => exact held _
  | run => exact extended
  | colon =>
    simp only [Reading.step]
    split
    · exact (held _).trans same
    · exact extended

/-- What a step hands out can stand where the reading is, and leads to where the next one is. -/
theorem At.step {lexeme : Lexeme} {rest : List Lexeme} (h : r.At s (opensRule (lexeme :: rest)))
    (formed : lexeme.Formed) :
    ∃ s', (r.step lexeme (opensRule rest)).2.At s' (opensRule rest) ∧
      ∀ more, leadsToBlock more = opensRule rest → Laid s' more →
        Laid s ((r.step lexeme (opensRule rest)).1 ++ more) := by
  rcases lexeme with ⟨mark, text⟩
  cases mark with
  | blank => exact ⟨s, h.blank rfl, fun _ _ later => later⟩
  | comment => exact ⟨s, h.blank rfl, fun _ _ later => later⟩
  | template => exact ⟨_, h.template text, fun _ same => h.laid_released same (.loose rfl)⟩
  | leftBrace =>
    have next := At.fresh (r.opening :: r.blocks) (opensRule rest)
    refine ⟨.fresh (r.opening :: r.blocks), next, fun more _ later => ?_⟩
    have turn : (r.ahead s).after ⟨.leftBrace, text⟩ = .fresh (r.opening :: r.blocks) := by
      rw [← h.ahead_nest_next, ← h.blocks, ← ahead_nest_blocks r]
      rfl
    exact h.laid_released rfl (.cut rfl) (turn ▸ later)
  | rightBrace =>
    refine ⟨.fresh r.blocks.tail, .fresh r.blocks.tail _, fun more _ later => ?_⟩
    have turn : (r.ahead s).after ⟨.rightBrace, text⟩ = .fresh r.blocks.tail := by
      rw [← h.blocks, ← ahead_nest_blocks r]
      rfl
    exact h.laid_released rfl (.cut rfl) (turn ▸ later)
  | semicolon =>
    refine ⟨.fresh r.blocks, h.semicolon, fun more _ later => ?_⟩
    have turn : (r.ahead s).after ⟨.semicolon, text⟩ = .fresh r.blocks := by
      rw [← h.blocks, ← ahead_nest_blocks r]
      rfl
    exact h.laid_released rfl (.cut rfl) (turn ▸ later)
  | run =>
    obtain ⟨next, hands⟩ := h.extend (formed.firm (.inl rfl)) fun _ => formed.plain rfl
    exact ⟨s, next, fun more _ => hands more⟩
  | colon =>
    simp only [Reading.step]
    split
    · next place =>
      obtain ⟨admits, next⟩ := h.colon place text
      exact ⟨_, next, fun _ same => h.laid_released same (same ▸ admits)⟩
    · next place =>
      obtain ⟨next, hands⟩ := h.extend (formed.firm (.inr rfl)) (absurd · place)
      exact ⟨s, next, fun more _ => hands more⟩

end Reading

/-- What a reading hands out can stand where the reading is. -/
theorem piecesFrom_laid {r : Reading} {s : Stand} {lexemes : List Lexeme}
    (h : r.At s (opensRule lexemes)) (formed : ∀ lexeme ∈ lexemes, lexeme.Formed) :
    leadsToBlock (piecesFrom r lexemes) = opensRule lexemes ∧ Laid s (piecesFrom r lexemes) := by
  induction lexemes generalizing r s with
  | nil =>
    have ends := h.leadsToBlock_held []
    have laid : Laid s (r.held ++ []) := h.laid_held rfl .nil
    rw [List.append_nil] at ends laid
    exact ⟨ends, laid⟩
  | cons lexeme rest ih =>
    obtain ⟨self, others⟩ := List.forall_mem_cons.mp formed
    obtain ⟨s', next, hands⟩ := h.step self
    obtain ⟨same, laid⟩ := ih next others
    exact ⟨h.leadsToBlock_step lexeme rest same, hands _ same laid⟩

theorem laid_of_read {t : Template.Scanner} {source : List Char} {found : List Piece}
    (h : read t source = .ok found) : Laid (.fresh []) found := by
  obtain ⟨lexed, hlex, rfl⟩ := read_eq_ok h
  exact (piecesFrom_laid (.fresh [] _) (lexemes_formed hlex)).2

end Style

end Mosaic
