/-! The kinds of tokens of markup and style, and the slots in which a token keeps what belongs
to it. -/
namespace Mosaic

inductive TokenKind where
  | tagStart
  | tagEnd
  | text
  | comment
  | declaration
  | styleBlock
  | scriptBlock
  | selector
  | atRule
  | leftBrace
  | rightBrace
  | property
  | colon
  | value
  | semicolon
  | styleComment
  | styleBlank
  | template
deriving DecidableEq, Inhabited

namespace TokenKind

def name : TokenKind → String
  | .tagStart => "html-tag-start"
  | .tagEnd => "html-tag-end"
  | .text => "html-text"
  | .comment => "html-comment"
  | .declaration => "html-doctype"
  | .styleBlock => "html-tag-style"
  | .scriptBlock => "html-tag-script"
  | .selector => "css-selector"
  | .atRule => "css-at-rule"
  | .leftBrace => "css-left-brace"
  | .rightBrace => "css-right-brace"
  | .property => "css-property"
  | .colon => "css-colon"
  | .value => "css-value"
  | .semicolon => "css-semicolon"
  | .styleComment => "css-comment"
  | .styleBlank => "css-whitespace"
  | .template => "tpl"

def all : List TokenKind :=
  [.tagStart, .tagEnd, .text, .comment, .declaration, .styleBlock, .scriptBlock, .selector,
    .atRule, .leftBrace, .rightBrace, .property, .colon, .value, .semicolon, .styleComment,
    .styleBlank, .template]

def ofName? (name : String) : Option TokenKind := all.find? (·.name == name)

theorem ofName?_name (kind : TokenKind) : ofName? kind.name = some kind := by
  cases kind <;> decide

/-- Whether tokens of this kind only lay a style sheet out. -/
def isTrivia : TokenKind → Bool
  | .styleBlank | .styleComment => true
  | _ => false

end TokenKind

/-- The places where a token keeps what belongs to it. -/
inductive Slot where
  /-- The start tag of a block. -/
  | start
  /-- The body of a block. -/
  | content
  /-- The end tag of a block. -/
  | finish
  /-- The declared type of a script. -/
  | type
  /-- The tokens read from a body. -/
  | tokens
  /-- The declarations read from an inline style. -/
  | styleTokens
  /-- The tree of a script body. -/
  | ast
deriving DecidableEq, Inhabited

namespace Slot

def name : Slot → String
  | .start => "start"
  | .content => "content"
  | .finish => "end"
  | .type => "type"
  | .tokens => "tokens"
  | .styleTokens => "styleTokens"
  | .ast => "ast"

def all : List Slot := [.start, .content, .finish, .type, .tokens, .styleTokens, .ast]

def ofName? (name : String) : Option Slot := all.find? (·.name == name)

theorem mem_all (slot : Slot) : slot ∈ all := by
  cases slot <;> decide

theorem ofName?_name (slot : Slot) : ofName? slot.name = some slot := by
  cases slot <;> decide

end Slot

end Mosaic
