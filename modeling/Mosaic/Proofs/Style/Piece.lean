import Mosaic.Proofs.Token
import Mosaic.Style.Tokenize

/-! The pieces of a style sheet keep every character: put one behind the other they are the sheet.
What a reading holds back is handed out later, in the order in which it was read. -/
namespace Mosaic.Style

theorem plainLexemes_text {s : List Char} {found : List Lexeme}
    (h : plainLexemes s = (found, none)) : found.flatMap Lexeme.text = s := by
  fun_induction plainLexemes s generalizing found with
  | case1 => cases h; rfl
  | case2 => cases h
  | case3 c rest mark n hmark more cause hmore ih =>
    cases h
    rw [List.flatMap_cons, ih hmore, List.cons_append, List.take_append_drop]

theorem lexemes_text {t : Template.Scanner} {s : List Char} {found : List Lexeme}
    (h : lexemes t s = (found, none)) : found.flatMap Lexeme.text = s := by
  fun_induction lexemes t s generalizing found with
  | case1 => cases h; rfl
  | case2 => cases h
  | case3 c rest hopens n hscan more cause hmore ih =>
    cases h
    rw [List.flatMap_cons, ih hmore, List.cons_append, List.take_append_drop]
  | case4 => cases h
  | case5 c rest hopens n plain hplain more cause hmore =>
    rename_i ih
    cases h
    rw [List.flatMap_append, plainLexemes_text hplain, ih hmore, List.cons_append,
      List.take_append_drop]

/-- The text that a reading holds back. -/
def Reading.text (r : Reading) : List Char := r.held.flatMap Piece.text

theorem Reading.extend_text (r : Reading) (text : List Char) (nests : Bool) :
    (r.extend text nests).1.flatMap Piece.text ++ (r.extend text nests).2.text =
      r.text ++ text := by
  rcases r with ⟨place, blocks, run, trivia⟩
  cases run with
  | none =>
    simp only [extend, Reading.text, held, List.flatMap_cons, List.flatMap_nil, List.append_nil]
  | some run =>
    simp only [extend, Reading.text, held, List.flatMap_cons, List.flatMap_nil, List.append_nil,
      List.nil_append]

/-- A step hands out or holds back what was held back before and the lexeme that it takes in. -/
theorem Reading.step_text (r : Reading) (lexeme : Lexeme) (nests : Bool) :
    (r.step lexeme nests).1.flatMap Piece.text ++ (r.step lexeme nests).2.text =
      r.text ++ lexeme.text := by
  rcases lexeme with ⟨mark, text⟩
  cases mark with
  | run => exact r.extend_text text nests
  | colon =>
    simp only [step]
    split
    · simp [Reading.text, held, released]
    · exact r.extend_text text nests
  | blank | comment =>
    rcases r with ⟨place, blocks, run, trivia⟩
    cases run <;> simp [step, Reading.text, held]
  | leftBrace | rightBrace | semicolon | template => simp [step, Reading.text, held, released]

theorem piecesFrom_text (r : Reading) (lexemes : List Lexeme) :
    (piecesFrom r lexemes).flatMap Piece.text = r.text ++ lexemes.flatMap Lexeme.text := by
  induction lexemes generalizing r with
  | nil => simp only [piecesFrom, Reading.text, List.flatMap_nil, List.append_nil]
  | cons lexeme rest ih =>
    rw [piecesFrom, List.flatMap_append, ih, ← List.append_assoc, Reading.step_text,
      List.append_assoc, List.flatMap_cons]

theorem read_eq_ok {t : Template.Scanner} {s : List Char} {found : List Piece}
    (h : read t s = .ok found) :
    ∃ lexed, lexemes t s = (lexed, none) ∧ found = pieces lexed := by
  unfold read at h
  split at h
  · next lexed hlex =>
    cases h
    exact ⟨lexed, hlex, rfl⟩
  · cases h

theorem read_text {t : Template.Scanner} {s : List Char} {found : List Piece}
    (h : read t s = .ok found) : found.flatMap Piece.text = s := by
  obtain ⟨lexed, hlex, rfl⟩ := read_eq_ok h
  rw [pieces, piecesFrom_text, lexemes_text hlex]
  rfl

/-- The character that a mark stands for, if there is only one. -/
def Mark.sign? : Mark → Option Char
  | .leftBrace => some '\x7b'
  | .rightBrace => some '\x7d'
  | .colon => some ':'
  | .semicolon => some ';'
  | _ => none

/-- The character that tokens of a kind are, if there is only one. -/
def signOf? : TokenKind → Option Char
  | .leftBrace => some '\x7b'
  | .rightBrace => some '\x7d'
  | .colon => some ':'
  | .semicolon => some ';'
  | _ => none

/-- A lexeme has a text, and one that stands for a sign is that sign. -/
def Lexeme.Spelled (lexeme : Lexeme) : Prop :=
  lexeme.text ≠ [] ∧ ∀ c, lexeme.mark.sign? = some c → lexeme.text = [c]

/-- A piece has a text, one that stands for a sign is that sign, and none is made of parts. -/
structure Piece.Spelled (piece : Piece) : Prop where
  nonempty : piece.text ≠ []
  sign : ∀ c, signOf? piece.kind = some c → piece.text = [c]
  whole : piece.kind.isBlock = false

theorem Piece.spelled_of_no_sign {kind : TokenKind} {text : List Char} (nonempty : text ≠ [])
    (free : signOf? kind = none) (whole : kind.isBlock = false) : Spelled ⟨kind, text⟩ :=
  ⟨nonempty, fun _ sign => (nomatch free.symm.trans sign), whole⟩

theorem slashMark_sign {rest : List Char} {mark : Mark} {n : Nat}
    (h : slashMark rest = .ok (mark, n)) : mark.sign? = none := by
  unfold slashMark at h
  grind [Mark.sign?]

theorem markAt_spelled {c : Char} {rest : List Char} {mark : Mark} {n : Nat}
    (h : markAt c rest = .ok (mark, n)) : Lexeme.Spelled ⟨mark, c :: rest.take n⟩ := by
  refine ⟨List.cons_ne_nil _ _, fun d hd => ?_⟩
  have slash : ∀ found, slashMark rest = .ok found → found.1.sign? = none :=
    fun found hfound => slashMark_sign hfound
  unfold markAt at h
  grind [Mark.sign?]

/-- What holds of every lexeme that begins somewhere, and of every template region, holds of what is
read. -/
theorem forall_mem_plainLexemes {P : Lexeme → Prop} {s : List Char} {found : List Lexeme}
    {cause : Option Cause}
    (each : ∀ c rest mark n, markAt c rest = .ok (mark, n) → P ⟨mark, c :: rest.take n⟩)
    (h : plainLexemes s = (found, cause)) : ∀ lexeme ∈ found, P lexeme := by
  fun_induction plainLexemes s generalizing found cause with
  | case1 => cases h; exact fun _ mem => (nomatch mem)
  | case2 => cases h; exact fun _ mem => (nomatch mem)
  | case3 c rest mark n hmark more _ hmore ih =>
    cases h
    exact List.forall_mem_cons.mpr ⟨each c rest mark n hmark, ih hmore⟩

theorem forall_mem_lexemes {P : Lexeme → Prop} {t : Template.Scanner} {s : List Char}
    {found : List Lexeme} {cause : Option Cause}
    (each : ∀ c rest mark n, markAt c rest = .ok (mark, n) → P ⟨mark, c :: rest.take n⟩)
    (region : ∀ c rest n, t.opens (c :: rest) = true → t.scanAfter c rest = some n →
      P ⟨.template, c :: rest.take n⟩)
    (h : lexemes t s = (found, cause)) : ∀ lexeme ∈ found, P lexeme := by
  fun_induction lexemes t s generalizing found cause with
  | case1 => cases h; exact fun _ mem => (nomatch mem)
  | case2 => cases h; exact fun _ mem => (nomatch mem)
  | case3 c rest hopens n hscan more _ hmore ih =>
    cases h
    exact List.forall_mem_cons.mpr ⟨region c rest n hopens hscan, ih hmore⟩
  | case4 c rest hopens n plain cause =>
    rename_i hplain
    cases h
    exact forall_mem_plainLexemes each hplain
  | case5 c rest hopens n plain hplain more _ hmore =>
    rename_i ih
    cases h
    exact List.forall_mem_append.mpr ⟨forall_mem_plainLexemes each hplain, ih hmore⟩

theorem lexemes_spelled {t : Template.Scanner} {s : List Char} {found : List Lexeme}
    {cause : Option Cause} (h : lexemes t s = (found, cause)) :
    ∀ lexeme ∈ found, lexeme.Spelled :=
  forall_mem_lexemes (fun _ _ _ _ => markAt_spelled)
    (fun _ _ _ _ _ => ⟨List.cons_ne_nil _ _, fun _ sign => (nomatch sign)⟩) h

/-- A reading holds back no empty run and no trivia that is not spelled right. -/
def Reading.Spelled (r : Reading) : Prop :=
  (∀ run, r.run = some run → run ≠ []) ∧ ∀ piece ∈ r.trivia, piece.Spelled

theorem spelled_runKind (place : Place) {run : List Char} (nonempty : run ≠ []) :
    Piece.Spelled ⟨runKind place run, run⟩ := by
  cases place with
  | heading =>
    simp only [runKind]
    split <;> exact Piece.spelled_of_no_sign nonempty rfl rfl
  | property => exact Piece.spelled_of_no_sign nonempty rfl rfl
  | value => exact Piece.spelled_of_no_sign nonempty rfl rfl

theorem Reading.Spelled.held {r : Reading} (h : r.Spelled) : ∀ piece ∈ r.held, piece.Spelled := by
  rcases r with ⟨place, blocks, run, trivia⟩
  cases run with
  | none => exact h.2
  | some run => exact List.forall_mem_cons.mpr ⟨spelled_runKind place (h.1 run rfl), h.2⟩

theorem Reading.spelled_released (r : Reading) : r.released.Spelled :=
  ⟨fun _ h => (nomatch h), fun _ mem => (nomatch mem)⟩

theorem Reading.Spelled.extend {r : Reading} (h : r.Spelled) {text : List Char} (some : text ≠ [])
    (nests : Bool) :
    (∀ piece ∈ (r.extend text nests).1, piece.Spelled) ∧ (r.extend text nests).2.Spelled := by
  rcases r with ⟨place, blocks, run, trivia⟩
  cases run with
  | none =>
    refine ⟨h.2, fun run hrun => ?_, fun _ mem => (nomatch mem)⟩
    cases hrun
    exact some
  | some run =>
    refine ⟨fun _ mem => (nomatch mem), fun longer hrun => ?_, fun _ mem => (nomatch mem)⟩
    cases hrun
    exact List.append_ne_nil_of_right_ne_nil _ some

theorem Reading.Spelled.step {r : Reading} (h : r.Spelled) {lexeme : Lexeme}
    (spelled : lexeme.Spelled) (nests : Bool) :
    (∀ piece ∈ (r.step lexeme nests).1, piece.Spelled) ∧ (r.step lexeme nests).2.Spelled := by
  rcases lexeme with ⟨mark, text⟩
  have handed : ∀ kind, Piece.Spelled ⟨kind, text⟩ →
      ∀ piece ∈ r.held ++ [⟨kind, text⟩], piece.Spelled := fun kind own =>
    List.forall_mem_append.mpr ⟨h.held, List.forall_mem_singleton.mpr own⟩
  have keep : ∀ kind, Piece.Spelled ⟨kind, text⟩ →
      ∀ piece ∈ r.trivia ++ [⟨kind, text⟩], piece.Spelled := fun kind own =>
    List.forall_mem_append.mpr ⟨h.2, List.forall_mem_singleton.mpr own⟩
  have free : ∀ kind, signOf? kind = none → kind.isBlock = false → Piece.Spelled ⟨kind, text⟩ :=
    fun _ => Piece.spelled_of_no_sign spelled.1
  cases mark with
  | blank => exact ⟨fun _ mem => (nomatch mem), h.1, keep _ (free _ rfl rfl)⟩
  | comment => exact ⟨fun _ mem => (nomatch mem), h.1, keep _ (free _ rfl rfl)⟩
  | template => exact ⟨handed _ (free _ rfl rfl), r.spelled_released⟩
  | semicolon => exact ⟨handed _ ⟨spelled.1, spelled.2, rfl⟩, r.spelled_released⟩
  | leftBrace => exact ⟨handed _ ⟨spelled.1, spelled.2, rfl⟩, r.spelled_released⟩
  | rightBrace => exact ⟨handed _ ⟨spelled.1, spelled.2, rfl⟩, r.spelled_released⟩
  | run => exact h.extend spelled.1 nests
  | colon =>
    simp only [Reading.step]
    split
    · exact ⟨handed _ ⟨spelled.1, spelled.2, rfl⟩, r.spelled_released⟩
    · exact h.extend spelled.1 nests

theorem piecesFrom_spelled {r : Reading} (h : r.Spelled) {lexemes : List Lexeme}
    (spelled : ∀ lexeme ∈ lexemes, lexeme.Spelled) :
    ∀ piece ∈ piecesFrom r lexemes, piece.Spelled := by
  induction lexemes generalizing r with
  | nil => exact h.held
  | cons lexeme rest ih =>
    obtain ⟨self, others⟩ := List.forall_mem_cons.mp spelled
    obtain ⟨found, next⟩ := h.step self (opensRule rest)
    exact List.forall_mem_append.mpr ⟨found, ih next others⟩

theorem read_spelled {t : Template.Scanner} {s : List Char} {found : List Piece}
    (h : read t s = .ok found) : ∀ piece ∈ found, piece.Spelled := by
  obtain ⟨lexed, hlex, rfl⟩ := read_eq_ok h
  exact piecesFrom_spelled Reading.initial.spelled_released (lexemes_spelled hlex)

theorem toList_concat (tokens : List Token) :
    (Token.concat tokens).toList = tokens.flatMap fun token => token.value.toList := by
  rw [Token.concat, String.toList_join, List.flatMap_map]

theorem concat_place (locator : Locator) (offset : Nat) (found : List Piece) :
    (Token.concat (place locator offset found)).toList = found.flatMap Piece.text := by
  rw [toList_concat]
  induction found generalizing offset with
  | nil => rfl
  | cons piece rest ih =>
    rw [place, List.flatMap_cons, List.flatMap_cons, ih]
    exact congrArg (· ++ rest.flatMap Piece.text) String.toList_ofList

theorem tokenize_eq_ok {t : Template.Scanner} {origin : Origin} {source : String}
    {tokens : List Token} (h : tokenize t origin source = .ok tokens) :
    ∃ found, read t source.toList = .ok found ∧
      tokens = place (.ofText source.toList origin) 0 found := by
  unfold tokenize at h
  simp only at h
  split at h
  · next found hread =>
    cases h
    exact ⟨found, hread, rfl⟩
  · cases h

/-- A style sheet is written back as it was read. -/
theorem stringify_of_tokenize {t : Template.Scanner} {origin : Origin} {source : String}
    {tokens : List Token} (h : tokenize t origin source = .ok tokens) :
    stringify tokens = source := by
  obtain ⟨found, hread, rfl⟩ := tokenize_eq_ok h
  rw [← String.toList_inj, stringify, concat_place, read_text hread]

end Mosaic.Style
