import Mosaic.Proofs.Embedding.Inline
import Mosaic.Proofs.Embedding.Parts
import Mosaic.Proofs.Token

/-! The trees of the tokens of markup, part by part. Below a start tag there are the tokens of its
inline style, below a body the tokens that it was read as; only markup in a body has trees of its
own. -/
namespace Mosaic

open Outcome Mosaic.Embedding

/-- A token without slots that is no block. -/
structure Token.Leaf (token : Token) : Prop where
  empty : token.ext = .empty
  whole : token.kind.isBlock = false

theorem Token.Leaf.not_filled {token : Token} (h : token.Leaf) (slot : Slot) :
    token.ext.get? slot = none := by
  rw [h.empty, Extensions.get?_empty]

theorem Style.leaf_of_place {locator : Locator} {offset : Nat} {found : List Style.Piece}
    {top owner : Token} (spelled : ∀ piece ∈ found, piece.Spelled)
    (mem : top ∈ Style.place locator offset found) (within : Within top owner) : owner.Leaf := by
  have leaf : top.Leaf := by
    induction found generalizing offset with
    | nil => cases mem
    | cons piece rest ih =>
      obtain ⟨first, others⟩ := List.forall_mem_cons.mp spelled
      rcases List.mem_cons.mp mem with rfl | mem
      · exact ⟨rfl, first.whole⟩
      · exact ih others mem
  rw [within.eq_of_empty leaf.empty]
  exact leaf

namespace Embedding

variable {adapters : Template.Adapters} {config : Config} {locator : Locator} {offset : Nat}
  {owner : Token}

theorem within_start {tag : Markup.TagText} {type : Option String} {first : Token}
    (h : readStart (.withAdapters adapters) config (startToken locator offset tag type) =
      .ok first)
    (within : Within first owner) : owner = first ∨ owner.Leaf := by
  cases within with
  | self => exact .inl rfl
  | @child _ child _ slot payload held mem within =>
    rcases readStart_eq_ok h with rfl | ⟨region, kept, inline, read, rfl⟩
    · cases slot <;> try cases held
      obtain ⟨text, -, rfl⟩ := Option.map_eq_some_iff.mp held
      cases mem
    · obtain ⟨-, -, -, -, -, nonempty, -⟩ := inlineStyle?_attr inline
      obtain ⟨found, spelled, -, rfl⟩ := kept_eq_place nonempty read
      cases slot <;> try cases held
      · obtain ⟨text, -, rfl⟩ := Option.map_eq_some_iff.mp held
        cases mem
      · exact .inr (Style.leaf_of_place spelled mem within)

theorem within_body {nested : NestedReader} {text : List Char} {element : Markup.Element}
    {start body : Token}
    (h : readBody (.withAdapters adapters) nested config element start
      (Markup.placeText locator offset .text text) = .ok body)
    (within : Within body owner) :
    owner = body ∨ owner.Leaf ∨ ∃ templates origin text tokens,
      config.scripts = some templates ∧
      nested ⟨templates.template, some templates⟩ origin text = .ok tokens ∧
      body.ext.tokens = some (.markup tokens) ∧ ∃ top ∈ tokens, Within top owner := by
  cases within with
  | self => exact .inl rfl
  | @child _ child _ slot payload held mem within =>
    right
    cases element with
    | style =>
      obtain ⟨tokens, read, made⟩ := bind_eq_ok.mp h
      obtain ⟨found, cut, rfl⟩ := Style.tokenize_eq_ok read
      cases made
      cases slot <;> cases held
      exact .inl (Style.leaf_of_place (Style.read_spelled cut) mem within)
    | script =>
      rcases readBody_script h with ⟨rfl, -⟩ | ⟨type, templates, tokens, -, settings, -, read, rfl⟩
      · cases slot <;> cases held
      · cases slot <;> cases held
        exact .inr ⟨templates, _, _, tokens, settings, read, rfl, child, mem, within⟩

theorem within_block {element : Markup.Element} {value : String} {range : Range}
    {first body : Token} {finish : Option Token}
    (within : Within (blockToken element value range first body finish) owner) :
    owner = blockToken element value range first body finish ∨ Within first owner ∨
      Within body owner ∨ ∃ part ∈ finish, Within part owner := by
  cases within with
  | self => exact .inl rfl
  | @child _ child _ slot payload held mem within =>
    right
    cases slot <;> try cases held
    · exact .inl (List.mem_singleton.mp mem ▸ within)
    · exact .inr (.inl (List.mem_singleton.mp mem ▸ within))
    · obtain ⟨part, last, rfl⟩ := Option.map_eq_some_iff.mp held
      exact .inr (.inr ⟨part, last, List.mem_singleton.mp mem ▸ within⟩)

end Embedding

end Mosaic
