import Mosaic.Dispatch
import Mosaic.Json.Value

/-! Trees as JSON values. -/
namespace Mosaic

def Position.json (p : Position) : Json :=
  .object [("line", .number p.line), ("column", .number p.column)]

def Span.json (s : Span) : Json := .object [("start", .number s.start), ("end", .number s.stop)]

def Range.json (r : Range) : Json :=
  .object [("span", r.span.json), ("start", r.start.json), ("end", r.stop.json)]

/-- An attribute as an object, with a member for everything it may have. -/
def Attr.json (attr : Attr) : Json :=
  .object [
    ("leading", .text attr.leading),
    ("name", .text attr.name),
    ("name_lower", .text attr.nameLower),
    ("assign", .text attr.assign),
    ("quote", .option (fun quote => .text quote.toString) attr.quote),
    ("value", .option .text attr.value),
    ("value_range", .option Range.json attr.valueRange),
    ("is_tpl", .bool attr.isTemplate)]

def Tag.json (tag : Tag) : Json :=
  .object [
    ("name", .text tag.name),
    ("name_lower", .text tag.nameLower),
    ("attrs", .list (tag.attrs.map Attr.json)),
    ("tail", .text tag.tail),
    ("self_closing", .bool tag.selfClosing)]

namespace Script

def LeafKind.name : LeafKind → String
  | .whitespace => "whitespace"
  | .comment => "comment"
  | .ident => "ident"
  | .number => "number"
  | .str => "str"
  | .template => "template"
  | .regex => "regex"
  | .punct => "punct"

mutual

def Node.json : Node → Json
  | .leaf kind text =>
    .object [("type", .text "leaf"), ("kind", .text kind.name), ("text", .text text)]
  | .group opener body closer =>
    .object [
      ("type", .text "group"),
      ("open", .text opener.toString),
      ("body", .list (Node.jsonAll body)),
      ("close", .text closer.toString)]

def Node.jsonAll : List Node → List Json
  | [] => []
  | node :: rest => node.json :: Node.jsonAll rest

end

def Tree.json (tree : Tree) : Json := .object [("body", .list (Node.jsonAll tree.body))]

end Script

/-- A payload of a grammar. -/
def taggedJson (grammar : String) (value : Json) : Json :=
  .object [("grammar", .text grammar), ("value", value)]

mutual

/-- A token as an object. What a token does not have is left out. -/
def Token.json : Token → Json
  | ⟨kind, value, range, detail, ext⟩ =>
    let parts := match detail with
      | some tag => [("detail", tag.json)]
      | none => []
    let slots := match ext.members with
      | [] => []
      | members => [("ext", .object members)]
    .object ([("kind", .text kind.name), ("value", .text value), ("range", range.json)] ++
      parts ++ slots)

/-- The filled slots as members of an object. -/
def Extensions.members : Extensions → List (String × Json)
  | ⟨start, content, finish, type, tokens, styleTokens, ast⟩ =>
    slotMember .start start ++ slotMember .content content ++ slotMember .finish finish ++
      slotMember .type type ++ slotMember .tokens tokens ++
      slotMember .styleTokens styleTokens ++ slotMember .ast ast

/-- A slot as a member, if it is filled. -/
def slotMember (slot : Slot) : Option Payload → List (String × Json)
  | some payload => [(slot.name, payload.json)]
  | none => []

def Payload.json : Payload → Json
  | .token token => taggedJson "token" token.json
  | .markup tokens => taggedJson "markup" (.list (Token.jsonAll tokens))
  | .style tokens => taggedJson "style" (.list (Token.jsonAll tokens))
  | .script tree => taggedJson "script" tree.json
  | .text text => taggedJson "text" (.text text)

def Token.jsonAll : List Token → List Json
  | [] => []
  | token :: rest => token.json :: Token.jsonAll rest

end

def Ast.json (ast : Ast) : Json :=
  let tree := match ast with
    | .markup tokens => .list (Token.jsonAll tokens)
    | .style tokens => .list (Token.jsonAll tokens)
    | .script tree => tree.json
  .object [("grammar", .text ast.grammar.name), ("tree", tree)]

end Mosaic
