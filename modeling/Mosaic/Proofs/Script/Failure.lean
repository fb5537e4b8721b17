import Mosaic.Proofs.Failure
import Mosaic.Proofs.Script.Brackets

/-! Where a script cannot be read on. A lexeme that does not end and a bracket that closes nothing
are to blame where they stand, and a bracket that is never closed where it was opened. -/
namespace Mosaic.Script

variable {t : Template.Scanner}

theorem Faulty.names {due : Bool} {s : List Char} {cause : Cause} (h : Faulty due s cause) :
    cause.Names t .script s := by
  cases h with
  | @comment rest _ => exact .comment (by decide) (List.prefix_append ['/', '*'] rest)
  | @string quote rest sign _ => exact .string (isQuote_iff.mpr sign) (prefix_cons quote rest)
  | @regex rest _ _ _ => exact .regex (prefix_cons '/' rest)
  | @input c rest _ _ _ => exact .input (prefix_cons c rest)

theorem points_of_bracket {found before after : List Lexeme} {lexeme : Lexeme} {c : Char}
    {cause : Cause} {behind : List Char} (parts : found = before ++ lexeme :: after)
    (text : lexeme.text = [c]) (names : ∀ rest, [c] <+: rest → cause.Names t .script rest) :
    Fault.Points t .script (found.flatMap Lexeme.text ++ behind)
      ⟨cause, Text.bytes (before.flatMap Lexeme.text)⟩ := by
  refine ⟨before.flatMap Lexeme.text, [c] ++ (after.flatMap Lexeme.text ++ behind), ?_, rfl,
    names _ (List.prefix_append [c] _)⟩
  simp only [parts, List.flatMap_append, List.flatMap_cons, List.append_assoc, text]

/-- What is to blame stands behind the lexemes in front of it. -/
theorem Blames.points {found before : List Lexeme} {ending : Option Cause} {cause : Cause}
    {behind : List Char} (h : Blames found ending before cause)
    (known : ∀ lexeme ∈ found, lexeme.Bracketed)
    (stops : ∀ fault, ending = some fault → fault.Names t .script behind) :
    Fault.Points t .script (found.flatMap Lexeme.text ++ behind)
      ⟨cause, Text.bytes (before.flatMap Lexeme.text)⟩ := by
  have inside : ∀ {front back : List Lexeme} {lexeme : Lexeme}, found = front ++ lexeme :: back →
      lexeme.Bracketed := by
    rintro front back lexeme rfl
    exact known lexeme (List.mem_append_right front List.mem_cons_self)
  cases h with
  | lexical viable => exact ⟨_, behind, rfl, rfl, stops cause rfl⟩
  | unexpected parts =>
    have own := inside parts
    exact points_of_bracket parts (own.text_of_closer rfl) fun _ => .unexpected (own.isCloser rfl)
  | mismatched parts =>
    have own := inside parts
    exact points_of_bracket parts (own.text_of_closer rfl) fun _ => .mismatched (own.isCloser rfl)
  | unclosed viable parts =>
    have own := inside parts
    exact points_of_bracket parts (own.text_of_opener rfl) fun _ => .opener (own.isOpener rfl)

theorem read_points {source : List Char} {fault : Fault} (h : read source = .error fault) :
    fault.Points t .script source := by
  obtain ⟨rest, split, -, faulty⟩ := @exists_of_lexemes true source _ _ rfl
  have stops : ∀ cause, (lexemes true source).2 = some cause → cause.Names t .script rest := by
    intro cause ending
    obtain ⟨due, fault⟩ := faulty cause ending
    exact fault.names
  obtain ⟨before, cause, blames, rfl⟩ := read_blames h
  have points := blames.points (bracketed_of_lexemes rfl) stops
  rwa [← split] at points

theorem parse_points {source : String} {error : BackendError} (h : parse source = .error error) :
    error.Points t source.toList := by
  cases stopped : read source.toList with
  | ok tree =>
    rw [parse, stopped] at h
    cases h
  | error fault =>
    rw [parse, stopped] at h
    cases h
    have located : BackendError.Points t ([] ++ source.toList ++ [])
        (fault.locate .script (.ofText source.toList (.behind []))) :=
      (read_points stopped).locate
    rwa [List.nil_append, List.append_nil] at located

end Mosaic.Script
