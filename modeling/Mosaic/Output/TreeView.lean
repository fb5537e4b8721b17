import Mosaic.Dispatch
import Mosaic.Text.Escape

/-! The tree view: one line for each token, slot and script tree, indented by lines that join the
nodes of a level. -/
namespace Mosaic.TreeView

/-- A node to be drawn. -/
inductive Node where
  | mk (icon : Char) (label : String) (children : List Node)

/-- The first `limit` characters of a text, and dots for the others. -/
def truncate (limit : Nat) (s : List Char) : List Char :=
  if s.length > limit then s.take limit ++ ['.', '.', '.'] else s

def icon : TokenKind → Char
  | .tagStart | .tagEnd => '◇'
  | .styleBlock | .scriptBlock => '▣'
  | .text => '◦'
  | .comment | .styleComment => '✎'
  | .declaration => '!'
  | .template => '⟦'
  | _ => '·'

def scriptNode (tree : Script.Tree) : Node :=
  .mk 'ƒ' ("script tree (" ++ toString tree.count ++ " nodes)") []

/-- The kind of a token, where it starts, and the beginning of its text. -/
def tokenLabel (kind : TokenKind) (value : String) (range : Range) : String :=
  kind.name ++ " " ++ range.start.text ++ " " ++
    String.ofList (truncate 30 (Text.escape value.toList))

/-- A slot with some tokens. -/
def countLabel (slot : Slot) (count : Nat) : String :=
  slot.name ++ " (" ++ toString count ++ " tokens)"

mutual

def tokenNode : Token → Node
  | ⟨kind, value, range, _, ext⟩ => .mk (icon kind) (tokenLabel kind value range) (slotNodes ext)

def slotNodes : Extensions → List Node
  | ⟨start, content, finish, type, tokens, styleTokens, ast⟩ =>
    slotNode .start start ++ slotNode .content content ++ slotNode .finish finish ++
      slotNode .type type ++ slotNode .tokens tokens ++ slotNode .styleTokens styleTokens ++
      slotNode .ast ast

def slotNode (slot : Slot) : Option Payload → List Node
  | some payload => [payloadNode slot payload]
  | none => []

def payloadNode (slot : Slot) : Payload → Node
  | .token token => .mk '↳' slot.name [tokenNode token]
  | .markup tokens => .mk '↳' (countLabel slot tokens.length) (tokenNodes tokens)
  | .style tokens => .mk '↳' (countLabel slot tokens.length) (tokenNodes tokens)
  | .script tree => .mk '↳' slot.name [scriptNode tree]
  | .text text => .mk '↳' (slot.name ++ " = " ++ text) []

def tokenNodes : List Token → List Node
  | [] => []
  | token :: rest => tokenNode token :: tokenNodes rest

end

mutual

def nodeLines (indent : String) (isLast : Bool) : Node → List String
  | .mk icon label children =>
    (indent ++ (if isLast then "└─" else "├─") ++ " " ++ icon.toString ++ " " ++ label) ::
      levelLines (indent ++ (if isLast then "  " else "│ ")) children

/-- The lines of the nodes of a level. -/
def levelLines (indent : String) : List Node → List String
  | [] => []
  | node :: rest => nodeLines indent rest.isEmpty node ++ levelLines indent rest

end

def nodes : Ast → List Node
  | .markup tokens => tokenNodes tokens
  | .style tokens => tokenNodes tokens
  | .script tree => [scriptNode tree]

/-- The lines of a tree, the grammar first. -/
def lines (ast : Ast) : List String := ("⧉ " ++ ast.grammar.name) :: levelLines "" (nodes ast)

def render (ast : Ast) : String := String.join ((lines ast).map (· ++ "\n"))

end Mosaic.TreeView
