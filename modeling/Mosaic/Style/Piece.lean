import Mosaic.Style.Lexeme
import Mosaic.Text.Blank
import Mosaic.Token.Kind

/-! The pieces of a style sheet. What a run of text is depends on where it stands: a selector or
an at-rule before a block, a property in a declaration block, a value behind a colon there. -/
namespace Mosaic.Style

structure Piece where
  kind : TokenKind
  text : List Char
deriving DecidableEq

/-- Where a run of text stands. -/
inductive Place where
  | heading
  | property
  | value
deriving DecidableEq

inductive Block where
  | rules
  | declarations
deriving DecidableEq

/-- The place at the beginning of a block, or outside of all blocks. -/
def Place.ofBlock : Option Block → Place
  | some .declarations => .property
  | some .rules => .heading
  | none => .heading

/-- The at-rules whose blocks hold rules. -/
def nestingRules : List String :=
  ["@media", "@supports", "@document", "@layer", "@container", "@scope", "@starting-style"]

/-- The name of the at-rule that a heading begins with, in lower case. -/
def ruleName (heading : List Char) : String :=
  String.ofList (Text.lower (heading.takeWhile fun c => !(Text.isBlank c || c == '(')))

def Block.ofHeading (heading : List Char) : Block :=
  if heading.head? = some '@' ∧ ruleName heading ∈ nestingRules then .rules else .declarations

def runKind (place : Place) (run : List Char) : TokenKind :=
  match place with
  | .heading => if run.head? = some '@' then .atRule else .selector
  | .property => .property
  | .value => .value

/-- A run that begins in a declaration block is a selector if a left brace comes before every
semicolon and right brace. -/
def opensRule : List Lexeme → Bool
  | [] => false
  | ⟨mark, _⟩ :: rest =>
    match mark with
    | .leftBrace => true
    | .rightBrace | .semicolon => false
    | _ => opensRule rest

/-- The reading so far: the place, the open blocks from the innermost one on, the run that is
being collected, and the blanks and comments since the last lexeme of weight. -/
structure Reading where
  place : Place
  blocks : List Block
  run : Option (List Char)
  trivia : List Piece

def Reading.initial : Reading := ⟨.heading, [], none, []⟩

namespace Reading

/-- The pieces that are held back. -/
def held (r : Reading) : List Piece :=
  match r.run with
  | some run => ⟨runKind r.place run, run⟩ :: r.trivia
  | none => r.trivia

/-- The reading with nothing held back. -/
def released (r : Reading) : Reading := { r with run := none, trivia := [] }

def opening (r : Reading) : Block :=
  match r.place, r.run with
  | .heading, some heading => .ofHeading heading
  | _, _ => .declarations

/-- Take a part of a run in; the blanks and comments inside a run belong to it. -/
def extend (r : Reading) (text : List Char) (nests : Bool) : List Piece × Reading :=
  match r.run with
  | some run =>
    ([], { r with run := some (run ++ r.trivia.flatMap (·.text) ++ text), trivia := [] })
  | none =>
    let place := if r.place = .property ∧ nests then .heading else r.place
    (r.trivia, { r with place, run := some text, trivia := [] })

/-- Take a lexeme in: the pieces that are complete by then, and the reading after it. Whether a
run nests a rule is known from the lexemes that follow. -/
def step (r : Reading) (lexeme : Lexeme) (nests : Bool) : List Piece × Reading :=
  match lexeme.mark with
  | .blank => ([], { r with trivia := r.trivia ++ [⟨.styleBlank, lexeme.text⟩] })
  | .comment => ([], { r with trivia := r.trivia ++ [⟨.styleComment, lexeme.text⟩] })
  | .template => (r.held ++ [⟨.template, lexeme.text⟩], r.released)
  | .semicolon =>
    (r.held ++ [⟨.semicolon, lexeme.text⟩],
      { r.released with place := if r.place = .value then .property else r.place })
  | .leftBrace =>
    (r.held ++ [⟨.leftBrace, lexeme.text⟩],
      { r.released with place := .ofBlock (some r.opening), blocks := r.opening :: r.blocks })
  | .rightBrace =>
    (r.held ++ [⟨.rightBrace, lexeme.text⟩],
      { r.released with place := .ofBlock r.blocks.tail.head?, blocks := r.blocks.tail })
  | .colon =>
    if r.place = .property then
      (r.held ++ [⟨.colon, lexeme.text⟩], { r.released with place := .value })
    else r.extend lexeme.text nests
  | .run => r.extend lexeme.text nests

end Reading

/-- The pieces that the lexemes make up after a reading so far. -/
def piecesFrom (r : Reading) : List Lexeme → List Piece
  | [] => r.held
  | lexeme :: rest =>
    let (found, next) := r.step lexeme (opensRule rest)
    found ++ piecesFrom next rest

def pieces (lexemes : List Lexeme) : List Piece := piecesFrom .initial lexemes

end Mosaic.Style
