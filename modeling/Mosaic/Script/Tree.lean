/-! Script trees: lexical leaves and the bracket groups they stand in. A tree knows nothing of
what a script means, but it holds all of its text. -/
namespace Mosaic.Script

inductive LeafKind where
  | whitespace
  | comment
  | ident
  | number
  | str
  | template
  | regex
  | punct
deriving DecidableEq, Inhabited

/-- A leaf with its text, or a group with its two brackets. -/
inductive Node where
  | leaf (kind : LeafKind) (text : String)
  | group (opener : Char) (body : List Node) (closer : Char)

structure Tree where
  body : List Node

instance : Inhabited Tree := ⟨⟨[]⟩⟩

mutual

/-- The number of leaves and groups in a node, itself included. -/
def Node.count : Node → Nat
  | .leaf _ _ => 1
  | .group _ body _ => 1 + Node.countAll body

def Node.countAll : List Node → Nat
  | [] => 0
  | node :: rest => node.count + Node.countAll rest

end

mutual

def Node.chars : Node → List Char
  | .leaf _ text => text.toList
  | .group opener body closer => opener :: (Node.charsAll body ++ [closer])

def Node.charsAll : List Node → List Char
  | [] => []
  | node :: rest => node.chars ++ Node.charsAll rest

end

def Tree.count (tree : Tree) : Nat := Node.countAll tree.body

/-- The script that a tree was read from. -/
def Tree.source (tree : Tree) : String := String.ofList (Node.charsAll tree.body)

end Mosaic.Script
