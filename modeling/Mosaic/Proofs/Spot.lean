import Mosaic.Proofs.Embedding.Tree

/-! Spots: the places in the tree of a token where what was read from a nested text hangs. A start
tag has one for its inline style; a block has one for the inline style of its start part and one
for its body; and if the body was read as markup, the tokens of that markup have spots again. -/
namespace Mosaic

open Outcome Mosaic.Embedding

/-- Where something hangs in the tree of a token: at the token itself, or in the tree of one of the
tokens that the markup in its body was read as. -/
inductive Spot where
  | here (kind : RegionKind)
  | inside (index : Nat) (spot : Spot)

namespace Spot

/-- The start tag of a token: the token itself or the start part of a block. -/
def startTag? (owner : Token) : Option Token :=
  if owner.kind = .tagStart then some owner else owner.ext.token? .start

/-- What was read from a nested text of a token. -/
def held? (kind : RegionKind) (owner : Token) : Option Payload :=
  match kind with
  | .inlineStyle => (startTag? owner).bind (·.ext.styleTokens)
  | .styleBlock | .templateScript => (owner.ext.token? .content).bind (·.ext.tokens)

/-- Where a nested text of a token stands. -/
def heldRange? (kind : RegionKind) (owner : Token) : Option Range :=
  match kind with
  | .inlineStyle =>
    (((startTag? owner).bind (·.detail)).bind (·.attr? "style")).bind (·.valueRange)
  | .styleBlock | .templateScript => (owner.ext.token? .content).map (·.range)

/-- The markup that the body of a token was read as. -/
def markup (owner : Token) : List Token :=
  match held? .templateScript owner with
  | some (.markup tokens) => tokens
  | _ => []

/-- What hangs at a spot. -/
def payload? : Spot → Token → Option Payload
  | .here kind, owner => held? kind owner
  | .inside index spot, owner => (markup owner)[index]?.bind spot.payload?

/-- The place of the text that was read as what hangs at a spot. -/
def range? : Spot → Token → Option Range
  | .here kind, owner => heldRange? kind owner
  | .inside index spot, owner => (markup owner)[index]?.bind spot.range?

/-- The tree with something else at a spot. -/
def put (new : Payload) : Spot → Token → Token
  | .here kind, owner => attach kind owner new
  | .inside index spot, owner =>
    attach .templateScript owner (.markup ((markup owner).modify index (spot.put new)))

end Spot

/-- Every nested text that was read in the tree of a token hangs at a spot. -/
def Reaches (top : Token) : Prop :=
  ∀ owner, Within top owner → ∀ slot payload, owner.ext.get? slot = some payload →
    slot = .tokens ∨ slot = .styleTokens → ∃ spot : Spot, spot.payload? top = some payload

namespace Spot

section Block

variable {element : Markup.Element} {value : String} {range : Range} {first body : Token}
  {finish : Option Token} {new : Payload}

theorem held?_block_inlineStyle :
    held? .inlineStyle (blockToken element value range first body finish) =
      first.ext.styleTokens := by
  cases element <;> rfl

theorem heldRange?_block_inlineStyle :
    heldRange? .inlineStyle (blockToken element value range first body finish) =
      (first.detail.bind (·.attr? "style")).bind (·.valueRange) := by
  cases element <;> rfl

theorem attach_block_inlineStyle :
    attach .inlineStyle (blockToken element value range first body finish) new =
      blockToken element value range (first.attach .styleTokens new) body finish := by
  cases element <;> rfl

theorem held?_block_body {kind : RegionKind} (h : kind ≠ .inlineStyle) :
    held? kind (blockToken element value range first body finish) = body.ext.tokens := by
  cases kind with
  | inlineStyle => exact absurd rfl h
  | styleBlock => rfl
  | templateScript => rfl

theorem heldRange?_block_body {kind : RegionKind} (h : kind ≠ .inlineStyle) :
    heldRange? kind (blockToken element value range first body finish) =
      some body.range := by
  cases kind with
  | inlineStyle => exact absurd rfl h
  | styleBlock => rfl
  | templateScript => rfl

theorem attach_block_body {kind : RegionKind} (h : kind ≠ .inlineStyle) :
    attach kind (blockToken element value range first body finish) new =
      blockToken element value range first (body.attach .tokens new) finish := by
  cases kind with
  | inlineStyle => exact absurd rfl h
  | styleBlock => rfl
  | templateScript => rfl

theorem markup_block {tokens : List Token} (h : body.ext.tokens = some (.markup tokens)) :
    markup (blockToken element value range first body finish) = tokens := by
  unfold markup
  rw [held?_block_body (by decide), h]

theorem markup_block_cons {token : Token} {rest : List Token}
    (h : markup (blockToken element value range first body finish) = token :: rest) :
    body.ext.tokens = some (.markup (token :: rest)) := by
  unfold markup at h
  rw [held?_block_body (by decide)] at h
  split at h
  · next held =>
    rw [← h]
    exact held
  · cases h

end Block

theorem within_markup {owner inner : Token} (mem : inner ∈ markup owner) :
    Within owner inner := by
  unfold markup at mem
  split at mem
  · next tokens held =>
    obtain ⟨body, part, read⟩ := Option.bind_eq_some_iff.mp held
    have first : owner.ext.get? .content = some (.token body) := by
      unfold Extensions.token? at part
      split at part
      · next slot =>
        cases part
        exact slot
      · cases part
    exact .child first List.mem_cons_self
      (.child (show body.ext.get? .tokens = some (.markup tokens) from read) mem (.self inner))
  · cases mem

theorem payload?_empty {kind : TokenKind} {value : String} {range : Range} {detail : Option Tag}
    (spot : Spot) : spot.payload? ⟨kind, value, range, detail, .empty⟩ = none := by
  cases spot with
  | here place =>
    cases place with
    | inlineStyle => cases kind <;> rfl
    | styleBlock => rfl
    | templateScript => rfl
  | inside index spot => rfl

variable {adapters : Template.Adapters} {config : Config}

theorem filled_of_readStart {locator : Locator} {offset : Nat} {tag : Markup.TagText}
    {type : Option String} {first owner : Token}
    (h : readStart (.withAdapters adapters) config (startToken locator offset tag type) =
      .ok first)
    (within : Within first owner) {slot : Slot} {payload : Payload}
    (filled : owner.ext.get? slot = some payload)
    (nested : slot = .tokens ∨ slot = .styleTokens) : first.ext.styleTokens = some payload := by
  rcases within_start h within with rfl | leaf
  · rcases readStart_eq_ok h with rfl | ⟨region, kept, -, -, rfl⟩
    · rcases nested with rfl | rfl <;> cases filled
    · rcases nested with rfl | rfl <;> cases filled
      rfl
  · exact nomatch (leaf.not_filled slot).symm.trans filled

/-- What was read in the tree of a body hangs at the body, or in the markup that the body was read
as. -/
theorem filled_of_readBody {nested : NestedReader} {locator : Locator} {offset : Nat}
    {text : List Char} {element : Markup.Element} {start body owner : Token}
    (h : readBody (.withAdapters adapters) nested config element start
      (Markup.placeText locator offset .text text) = .ok body)
    (within : Within body owner) {slot : Slot} {payload : Payload}
    (filled : owner.ext.get? slot = some payload)
    (known : slot = .tokens ∨ slot = .styleTokens) :
    body.ext.tokens = some payload ∨ ∃ settings origin text tokens,
      nested settings origin text = .ok tokens ∧ body.ext.tokens = some (.markup tokens) ∧
        ∃ top ∈ tokens, Within top owner := by
  rcases within_body h within with rfl | leaf | ⟨templates, origin, text, tokens, -, further⟩
  · left
    rcases readBody_eq_ok h with rfl | ⟨tokens, -, rfl⟩ | ⟨settings, tokens, -, rfl⟩
    · rcases known with rfl | rfl <;> cases filled
    · rcases known with rfl | rfl <;> cases filled
      rfl
    · rcases known with rfl | rfl <;> cases filled
      rfl
  · exact nomatch (leaf.not_filled slot).symm.trans filled
  · exact .inr ⟨_, origin, text, tokens, further⟩

/-- What is known of the markup read by a nested reader. -/
def ReachReader (nested : NestedReader) : Prop :=
  ∀ config origin text tokens, nested config origin text = .ok tokens →
    ∀ top ∈ tokens, Reaches top

theorem reaches_embedToken {nested : NestedReader} (inner : ReachReader nested)
    {locator : Locator} {offset : Nat} {piece : Markup.Piece} {token : Token}
    (h : embedToken (.withAdapters adapters) nested config (piece.token locator offset) =
      .ok token) : Reaches token := by
  intro owner within slot payload filled known
  cases embedded_of_embedToken h with
  | plain | endTag =>
    rw [within.eq_of_empty rfl] at filled
    exact nomatch (Extensions.get?_empty slot).symm.trans filled
  | startTag inline =>
    refine ⟨.here .inlineStyle, ?_⟩
    simp only [payload?, held?, startTag?, readStart_kind inline, startToken]
    exact filled_of_readStart inline within filled known
  | block _ hfirst hbody =>
    rcases within_block within with rfl | within | within | ⟨part, last, within⟩
    · rcases known with rfl | rfl <;> cases filled
    · refine ⟨.here .inlineStyle, ?_⟩
      rw [payload?, held?_block_inlineStyle]
      exact filled_of_readStart hfirst within filled known
    · rcases filled_of_readBody hbody within filled known with
        direct | ⟨settings, origin, text, tokens, hnested, hmarkup, top, mem, within⟩
      · refine ⟨.here .styleBlock, ?_⟩
        rw [payload?, held?_block_body (by decide)]
        exact direct
      · obtain ⟨spot, hspot⟩ := inner _ _ _ _ hnested top mem owner within slot payload filled known
        obtain ⟨index, hindex⟩ := List.mem_iff_getElem?.mp mem
        refine ⟨.inside index spot, ?_⟩
        rw [payload?, markup_block hmarkup, hindex]
        exact hspot
    · obtain ⟨tag, -, rfl⟩ := Option.map_eq_some_iff.mp last
      rw [within.eq_of_empty rfl] at filled
      exact nomatch (Extensions.get?_empty slot).symm.trans filled

theorem reaches_readMarkup : ReachReader (readMarkup (.withAdapters adapters)) := by
  intro config origin text tokens h
  refine readMarkup_induct (motive := fun _ _ _ tokens => ∀ top ∈ tokens, Reaches top)
    (fun config origin source found tokens nested _ inner h top mem => ?_) h
  obtain ⟨piece, offset, -, htop⟩ := exists_of_mem_embedWith h mem
  exact reaches_embedToken (fun config origin text tokens h => (inner _ _ _ _ h).2) htop

end Spot

end Mosaic
