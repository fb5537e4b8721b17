import Mosaic.Markup.Tag
import Mosaic.Proofs.Location
import Mosaic.Script.Lexeme

/-! Failures that point at what they are about. A cause names a text: a delimiter, a bracket, a
quote, the name of a tag. A failure points at it if that text stands where the failure is. -/
namespace Mosaic

/-- A text begins with what a cause names. -/
inductive Cause.Names (t : Template.Scanner) : Grammar → Cause → List Char → Prop
  | template {grammar : Grammar} {rest : List Char} : t.active = true → t.left <+: rest →
    Names t grammar .unclosedTemplate rest
  | markupComment {rest : List Char} : ['<', '!', '-', '-'] <+: rest →
    Names t .markup .unclosedComment rest
  | comment {grammar : Grammar} {rest : List Char} : grammar ≠ .markup → ['/', '*'] <+: rest →
    Names t grammar .unclosedComment rest
  | declaration {mark : Char} {rest : List Char} : mark = '!' ∨ mark = '?' →
    ['<', mark] <+: rest → Names t .markup .unclosedDeclaration rest
  | endTag {rest : List Char} : ['<', '/'] <+: rest → Names t .markup .unclosedEndTag rest
  | tag {name rest : List Char} : '<' :: name <+: rest →
    Names t .markup (.unclosedTag (String.ofList name)) rest
  | value {quote : Char} {rest : List Char} : Markup.isQuote quote = true → [quote] <+: rest →
    Names t .markup .unclosedValue rest
  | string {quote : Char} {rest : List Char} : Script.isQuote quote = true → [quote] <+: rest →
    Names t .script .unterminatedString rest
  | regex {rest : List Char} : ['/'] <+: rest → Names t .script .unterminatedRegex rest
  | input {c : Char} {rest : List Char} : [c] <+: rest → Names t .script (.unexpectedInput c) rest
  | unexpected {closer : Char} {rest : List Char} : Script.isCloser closer = true →
    [closer] <+: rest → Names t .script (.unexpectedCloser closer) rest
  | mismatched {opener closer : Char} {rest : List Char} : Script.isCloser closer = true →
    [closer] <+: rest → Names t .script (.mismatchedCloser opener closer) rest
  | opener {opener : Char} {rest : List Char} : Script.isOpener opener = true →
    [opener] <+: rest → Names t .script (.unclosedOpener opener) rest

variable {t : Template.Scanner}

theorem prefix_cons (c : Char) (rest : List Char) : [c] <+: c :: rest := List.prefix_append [c] rest

theorem Cause.Names.append {grammar : Grammar} {cause : Cause} {rest : List Char}
    (h : cause.Names t grammar rest) (more : List Char) : cause.Names t grammar (rest ++ more) := by
  have longer : ∀ {word : List Char}, word <+: rest → word <+: rest ++ more :=
    fun begins => begins.trans (List.prefix_append rest more)
  cases h with
  | template active begins => exact .template active (longer begins)
  | markupComment begins => exact .markupComment (longer begins)
  | comment other begins => exact .comment other (longer begins)
  | declaration mark begins => exact .declaration mark (longer begins)
  | endTag begins => exact .endTag (longer begins)
  | tag begins => exact .tag (longer begins)
  | value quote begins => exact .value quote (longer begins)
  | string quote begins => exact .string quote (longer begins)
  | regex begins => exact .regex (longer begins)
  | input begins => exact .input (longer begins)
  | unexpected closer begins => exact .unexpected closer (longer begins)
  | mismatched closer begins => exact .mismatched closer (longer begins)
  | opener opener begins => exact .opener opener (longer begins)

theorem Cause.names_of_opens {grammar : Grammar} {rest : List Char} (h : t.opens rest = true) :
    Cause.unclosedTemplate.Names t grammar rest := by
  rw [Template.Scanner.opens, Bool.and_eq_true] at h
  exact .template h.1 (List.isPrefixOf_iff_prefix.mp h.2)

/-- The offset of a fault is where the text stands that its cause names. -/
def Fault.Points (t : Template.Scanner) (grammar : Grammar) (source : List Char) (fault : Fault) :
    Prop :=
  ∃ before rest, source = before ++ rest ∧ fault.offset = Text.bytes before ∧
    fault.cause.Names t grammar rest

/-- The position of a failure is where the text stands, in the document, that its cause names. -/
def BackendError.Points (t : Template.Scanner) (document : List Char) (error : BackendError) :
    Prop :=
  ∃ before rest, document = before ++ rest ∧ error.position = some (.behind before) ∧
    error.cause.Names t error.grammar rest

theorem Fault.Points.locate {grammar : Grammar} {front source after : List Char} {fault : Fault}
    (h : fault.Points t grammar source) :
    (fault.locate grammar (.ofText source (.behind front))).Points t (front ++ source ++ after) := by
  obtain ⟨before, rest, rfl, offset, names⟩ := h
  have place := position_behind (List.not_mem_nil (a := '\n')) front before rest
  rw [Text.bytes_nil, Nat.zero_add] at place
  refine ⟨front ++ before, rest ++ after, ?_, ?_, names.append after⟩
  · simp only [List.append_assoc]
  · rw [Fault.locate, offset]
    exact congrArg some place

end Mosaic
