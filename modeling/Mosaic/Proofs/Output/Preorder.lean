import Mathlib.Data.List.Forall2
import Mosaic.Output.TreeView
import Mosaic.Proofs.Token

/-! The nodes of a tree in the order in which they are drawn: every token, every filled slot and
every script tree, each in front of what hangs in it. The tree view has a line for each of them. -/
namespace Mosaic.TreeView

/-- What is drawn as a node. -/
inductive Item where
  | ofToken (token : Token)
  | ofSlot (slot : Slot) (payload : Payload)
  | ofScript (tree : Script.Tree)

/-- The sign in front of a label. -/
def Item.icon : Item → Char
  | .ofToken token => TreeView.icon token.kind
  | .ofSlot _ _ => '↳'
  | .ofScript _ => 'ƒ'

/-- What a line says of its node. -/
def Item.label : Item → String
  | .ofToken token => tokenLabel token.kind token.value token.range
  | .ofSlot slot (.token _) => slot.name
  | .ofSlot slot (.markup tokens) => countLabel slot tokens.length
  | .ofSlot slot (.style tokens) => countLabel slot tokens.length
  | .ofSlot slot (.script _) => slot.name
  | .ofSlot slot (.text text) => slot.name ++ " = " ++ text
  | .ofScript tree => "script tree (" ++ toString tree.count ++ " nodes)"

mutual

/-- A token and what hangs in it, each with its depth. -/
def tokenItems (depth : Nat) : Token → List (Nat × Item)
  | ⟨kind, value, range, detail, ext⟩ =>
    (depth, .ofToken ⟨kind, value, range, detail, ext⟩) :: slotsItems (depth + 1) ext

/-- The filled slots and what hangs in them. -/
def slotsItems (depth : Nat) : Extensions → List (Nat × Item)
  | ⟨start, content, finish, type, tokens, styleTokens, ast⟩ =>
    slotItems depth .start start ++ slotItems depth .content content ++
      slotItems depth .finish finish ++ slotItems depth .type type ++
      slotItems depth .tokens tokens ++ slotItems depth .styleTokens styleTokens ++
      slotItems depth .ast ast

/-- A slot and what hangs in it, if it is filled. -/
def slotItems (depth : Nat) (slot : Slot) : Option Payload → List (Nat × Item)
  | some payload => (depth, .ofSlot slot payload) :: payloadItems (depth + 1) payload
  | none => []

/-- What a payload is made of. -/
def payloadItems (depth : Nat) : Payload → List (Nat × Item)
  | .token token => tokenItems depth token
  | .markup tokens => tokensItems depth tokens
  | .style tokens => tokensItems depth tokens
  | .script tree => [(depth, .ofScript tree)]
  | .text _ => []

/-- Tokens and what hangs in them. -/
def tokensItems (depth : Nat) : List Token → List (Nat × Item)
  | [] => []
  | token :: rest => tokenItems depth token ++ tokensItems depth rest

end

/-- Every token, filled slot and script tree of a tree, at every depth, in preorder. -/
def items : Ast → List (Nat × Item)
  | .markup tokens => tokensItems 0 tokens
  | .style tokens => tokensItems 0 tokens
  | .script tree => [(0, .ofScript tree)]

section Members

variable {depth : Nat} {entry : Nat × Item}

theorem mem_tokensItems {tokens : List Token} :
    entry ∈ tokensItems depth tokens ↔ ∃ token ∈ tokens, entry ∈ tokenItems depth token := by
  induction tokens with
  | nil => simp only [tokensItems, List.not_mem_nil, false_and, exists_false]
  | cons token rest ih => simp only [tokensItems, List.mem_append, ih, List.exists_mem_cons_iff]

theorem mem_payloadItems {payload : Payload} :
    entry ∈ payloadItems depth payload ↔
      (∃ token ∈ payload.tokens, entry ∈ tokenItems depth token) ∨
        ∃ tree, payload = .script tree ∧ entry = (depth, .ofScript tree) := by
  cases payload <;> simp [payloadItems, Payload.tokens, mem_tokensItems]

theorem mem_slotItems {slot : Slot} {held : Option Payload} :
    entry ∈ slotItems depth slot held ↔ ∃ payload, held = some payload ∧
      (entry = (depth, .ofSlot slot payload) ∨ entry ∈ payloadItems (depth + 1) payload) := by
  cases held <;> simp [slotItems]

theorem mem_slotsItems {ext : Extensions} :
    entry ∈ slotsItems depth ext ↔ ∃ slot, entry ∈ slotItems depth slot (ext.get? slot) := by
  rcases ext with ⟨start, content, finish, type, tokens, styleTokens, ast⟩
  simp only [slotsItems, List.mem_append]
  constructor
  · rintro ((((((mem | mem) | mem) | mem) | mem) | mem) | mem)
    · exact ⟨.start, mem⟩
    · exact ⟨.content, mem⟩
    · exact ⟨.finish, mem⟩
    · exact ⟨.type, mem⟩
    · exact ⟨.tokens, mem⟩
    · exact ⟨.styleTokens, mem⟩
    · exact ⟨.ast, mem⟩
  · rintro ⟨slot, mem⟩
    cases slot <;> simp only [Extensions.get?] at mem <;> simp only [mem, true_or, or_true]

theorem mem_tokenItems {token : Token} :
    entry ∈ tokenItems depth token ↔ entry = (depth, .ofToken token) ∨
      ∃ slot payload, token.ext.get? slot = some payload ∧
        (entry = (depth + 1, .ofSlot slot payload) ∨
          entry ∈ payloadItems (depth + 2) payload) := by
  rcases token with ⟨kind, value, range, detail, ext⟩
  simp only [tokenItems, List.mem_cons, mem_slotsItems, mem_slotItems]

/-- What a token in a tree holds is drawn with the tree. -/
theorem exists_mem_of_within {top owner : Token} {slot : Slot} {payload : Payload}
    (within : Within top owner) (held : owner.ext.get? slot = some payload) :
    ∃ level, (level, .ofSlot slot payload) ∈ tokenItems depth top := by
  induction within generalizing depth with
  | self token => exact ⟨depth + 1, mem_tokenItems.mpr (.inr ⟨slot, payload, held, .inl rfl⟩)⟩
  | @child top child owner place around filled part within ih =>
    obtain ⟨level, mem⟩ := @ih (depth + 2) held
    have inside := mem_payloadItems.mpr (.inl ⟨child, part, mem⟩)
    exact ⟨level, mem_tokenItems.mpr (.inr ⟨place, around, filled, .inr inside⟩)⟩

/-- A slot that is drawn with a tree is held by a token in it. -/
theorem exists_within_of_mem {top : Token} {level : Nat} {slot : Slot} {payload : Payload}
    (mem : (level, .ofSlot slot payload) ∈ tokenItems depth top) :
    ∃ owner, Within top owner ∧ owner.ext.get? slot = some payload := by
  induction top using Token.induct generalizing depth with
  | step top ih =>
    rcases mem_tokenItems.mp mem with same | ⟨place, around, filled, same | mem⟩
    · cases same
    · cases same
      exact ⟨top, .self top, filled⟩
    · rcases mem_payloadItems.mp mem with ⟨child, part, mem⟩ | ⟨tree, -, same⟩
      · obtain ⟨owner, within, held⟩ := ih place around filled child part mem
        exact ⟨owner, .child filled part within, held⟩
      · cases same

/-- The slots that are drawn are those that the tokens of the tree hold. -/
theorem mem_items_slot {ast : Ast} {slot : Slot} {payload : Payload} :
    (∃ level, (level, .ofSlot slot payload) ∈ items ast) ↔
      ∃ top ∈ ast.tokens, ∃ owner, Within top owner ∧ owner.ext.get? slot = some payload := by
  have ofTokens : ∀ tokens : List Token,
      (∃ level, (level, .ofSlot slot payload) ∈ tokensItems 0 tokens) ↔
        ∃ top ∈ tokens, ∃ owner, Within top owner ∧ owner.ext.get? slot = some payload := by
    intro tokens
    simp only [mem_tokensItems]
    constructor
    · rintro ⟨level, top, here, mem⟩
      exact ⟨top, here, exists_within_of_mem mem⟩
    · rintro ⟨top, here, owner, within, held⟩
      obtain ⟨level, mem⟩ := exists_mem_of_within within held
      exact ⟨level, top, here, mem⟩
  cases ast with
  | markup tokens => exact ofTokens tokens
  | style tokens => exact ofTokens tokens
  | script tree =>
    constructor
    · rintro ⟨level, mem⟩
      cases List.mem_singleton.mp mem
    · rintro ⟨top, here, -⟩
      cases here

end Members

/-! ### The lines of the nodes -/

/-- Some items are the nodes of a level in preorder, with the signs and the labels of those. -/
inductive Shows : Nat → List (Nat × Item) → List Node → Prop
  | nil (depth : Nat) : Shows depth [] []
  | cons {depth : Nat} {item : Item} {below rest : List (Nat × Item)}
    {children nodes : List Node} :
    Shows (depth + 1) below children → Shows depth rest nodes →
    Shows depth ((depth, item) :: below ++ rest) (.mk item.icon item.label children :: nodes)

namespace Shows

variable {depth : Nat} {front back : List (Nat × Item)} {before behind : List Node}

theorem append (h : Shows depth front before) (more : Shows depth back behind) :
    Shows depth (front ++ back) (before ++ behind) := by
  induction h with
  | nil depth => exact more
  | cons inner outer _ ih =>
    rw [List.append_assoc]
    exact .cons inner (ih more)

theorem single (item : Item) {below : List (Nat × Item)} {children : List Node}
    (h : Shows (depth + 1) below children) :
    Shows depth ((depth, item) :: below) [.mk item.icon item.label children] := by
  have alone : Shows depth ((depth, item) :: below ++ []) _ := .cons h (.nil depth)
  rwa [List.append_nil] at alone

theorem tokens {tokens : List Token}
    (h : ∀ token ∈ tokens, Shows depth (tokenItems depth token) [tokenNode token]) :
    Shows depth (tokensItems depth tokens) (tokenNodes tokens) := by
  induction tokens with
  | nil => exact .nil depth
  | cons token rest ih =>
    obtain ⟨first, others⟩ := List.forall_mem_cons.mp h
    exact first.append (ih others)

theorem slot (slot : Slot) {held : Option Payload}
    (h : ∀ payload, held = some payload → ∀ child ∈ payload.tokens, ∀ depth,
      Shows depth (tokenItems depth child) [tokenNode child]) :
    Shows depth (slotItems depth slot held) (slotNode slot held) := by
  cases held with
  | none => exact .nil depth
  | some payload =>
    have inside := h payload rfl
    cases payload with
    | token token => exact .single (.ofSlot slot _) (inside token List.mem_cons_self _)
    | markup read => exact .single (.ofSlot slot _) (.tokens fun token mem => inside token mem _)
    | style read => exact .single (.ofSlot slot _) (.tokens fun token mem => inside token mem _)
    | script tree => exact .single (.ofSlot slot _) (.single (.ofScript tree) (.nil _))
    | text text => exact .single (.ofSlot slot _) (.nil _)

theorem slots {ext : Extensions}
    (h : ∀ slot payload, ext.get? slot = some payload → ∀ child ∈ payload.tokens, ∀ depth,
      Shows depth (tokenItems depth child) [tokenNode child]) :
    Shows depth (slotsItems depth ext) (slotNodes ext) := by
  rcases ext with ⟨start, content, finish, type, tokens, styleTokens, ast⟩
  have part : ∀ slot, Shows depth (slotItems depth slot (Extensions.get? _ slot))
      (slotNode slot (Extensions.get? _ slot)) := fun slot => .slot slot (h slot)
  exact part .start |>.append (part .content) |>.append (part .finish) |>.append (part .type)
    |>.append (part .tokens) |>.append (part .styleTokens) |>.append (part .ast)

theorem token (token : Token) (depth : Nat) :
    Shows depth (tokenItems depth token) [tokenNode token] := by
  induction token using Token.induct generalizing depth with
  | step token ih =>
    have inside : Shows (depth + 1) (slotsItems (depth + 1) token.ext) (slotNodes token.ext) :=
      .slots ih
    rcases token with ⟨kind, value, range, detail, ext⟩
    exact .single (.ofToken _) inside

end Shows

theorem shows_items (ast : Ast) : Shows 0 (items ast) (nodes ast) := by
  cases ast with
  | markup tokens => exact .tokens fun token _ => .token token 0
  | style tokens => exact .tokens fun token _ => .token token 0
  | script tree => exact .single (.ofScript tree) (.nil 1)

/-- An indentation: for every level the rail of a level that goes on, or blanks. -/
inductive Rails : Nat → String → Prop
  | top : Rails 0 ""
  | rail {depth : Nat} {indent : String} : Rails depth indent → Rails (depth + 1) (indent ++ "│ ")
  | blank {depth : Nat} {indent : String} : Rails depth indent → Rails (depth + 1) (indent ++ "  ")

/-- A line that stands for a node: behind the rails of its depth it is joined to its level, and
there are its sign and its label. -/
def Draws (entry : Nat × Item) (line : String) : Prop :=
  ∃ indent joint, Rails entry.1 indent ∧ (joint = "├─" ∨ joint = "└─") ∧
    line = indent ++ joint ++ " " ++ entry.2.icon.toString ++ " " ++ entry.2.label

theorem Shows.draws {depth : Nat} {found : List (Nat × Item)} {nodes : List Node} {indent : String}
    (h : Shows depth found nodes) (rails : Rails depth indent) :
    List.Forall₂ Draws found (levelLines indent nodes) := by
  induction h generalizing indent with
  | nil depth => exact .nil
  | @cons depth item below rest children nodes inner outer deeper ih =>
    have joined : ∀ isLast : Bool, List.Forall₂ Draws ((depth, item) :: below)
        (nodeLines indent isLast (.mk item.icon item.label children)) := by
      intro isLast
      refine .cons ⟨indent, _, rails, ?_, rfl⟩ (deeper ?_)
      · cases isLast
        · exact .inl rfl
        · exact .inr rfl
      · cases isLast
        · exact .rail rails
        · exact .blank rails
    exact List.rel_append (joined nodes.isEmpty) (ih rails)

theorem draws_lines (ast : Ast) : List.Forall₂ Draws (items ast) (levelLines "" (nodes ast)) :=
  (shows_items ast).draws .top

end Mosaic.TreeView
