import Mosaic.Proofs.Embedding.Tree

/-! The texts in the trees of a document. The only text that hangs in a slot is the type that the
start tag of a script declares. -/
namespace Mosaic

open Outcome Mosaic.Embedding

/-- The only text in the slots of a token is the type that its tag declares. -/
def Token.HoldsType (token : Token) : Prop :=
  ∀ slot text, token.ext.get? slot = some (.text text) →
    slot = .type ∧ token.kind = .tagStart ∧ token.detail.bind Markup.declaredType? = some text

/-- No token in the trees of some tokens holds another text than its declared type. -/
def OnlyTypes (tokens : List Token) : Prop :=
  ∀ top ∈ tokens, ∀ owner, Within top owner → owner.HoldsType

theorem Token.holdsType_of_empty {token : Token} (h : token.ext = .empty) : token.HoldsType := by
  intro slot text held
  rw [h, Extensions.get?_empty] at held
  cases held

theorem Token.HoldsType.attach {token : Token} (h : token.HoldsType) (slot : Slot)
    (tokens : Payload) (notText : ∀ text, tokens ≠ .text text) :
    (token.attach slot tokens).HoldsType := by
  intro place text held
  rw [Token.attach, Extensions.get?_insert] at held
  split at held
  · exact absurd (Option.some.inj held) (notText text)
  · exact h place text held

section Types

variable {adapters : Template.Adapters} {config : Config} {locator : Locator} {offset : Nat}
  {owner : Token}

theorem declared_of_placeStart {element : Markup.Element} {tag : Markup.TagText}
    {type : Option String}
    (h : Markup.placeStart locator offset element tag = startToken locator offset tag type)
    {text : String} (declared : type = some text) : Markup.declaredType? tag.tag = some text := by
  cases element with
  | style =>
    have same : none = type := (congrArg (·.ext.text? .type) h).trans (type_startToken ..)
    exact nomatch same.trans declared
  | script =>
    rw [placeStart_script] at h
    have same := congrArg (·.ext.text? .type) h
    simp only [type_startToken] at same
    exact same.trans declared

theorem holdsType_of_readStart {tag : Markup.TagText} {type : Option String} {first : Token}
    (h : readStart (.withAdapters adapters) config (startToken locator offset tag type) =
      .ok first)
    (declared : ∀ {text}, type = some text → Markup.declaredType? tag.tag = some text)
    (within : Within first owner) : owner.HoldsType := by
  have start : (startToken locator offset tag type).HoldsType := by
    intro slot text held
    cases slot <;> try cases held
    obtain ⟨found, typed, same⟩ := Option.map_eq_some_iff.mp held
    cases same
    refine ⟨rfl, rfl, ?_⟩
    exact (Markup.declaredType?_placeTag locator offset tag.tag).trans (declared typed)
  rcases within_start h within with rfl | leaf
  · rcases readStart_eq_ok h with rfl | ⟨region, kept, -, -, rfl⟩
    · exact start
    · exact start.attach .styleTokens (.style kept) (fun _ => nofun)
  · exact Token.holdsType_of_empty leaf.empty

theorem holdsType_of_readBody {nested : NestedReader} {element : Markup.Element}
    {start body : Token} {text : List Char}
    (inner : ∀ settings origin text tokens, nested settings origin text = .ok tokens →
      OnlyTypes tokens)
    (h : readBody (.withAdapters adapters) nested config element start
      (Markup.placeText locator offset .text text) = .ok body)
    (within : Within body owner) : owner.HoldsType := by
  rcases within_body h within with rfl | leaf | ⟨_, _, _, _, -, read, -, top, mem, within⟩
  · have plain : (Markup.placeText locator offset .text text).HoldsType :=
      Token.holdsType_of_empty rfl
    rcases readBody_eq_ok h with rfl | ⟨tokens, -, rfl⟩ | ⟨_, tokens, -, rfl⟩
    · exact plain
    · exact plain.attach .tokens (.style tokens) (fun _ => nofun)
    · exact plain.attach .tokens (.markup tokens) (fun _ => nofun)
  · exact Token.holdsType_of_empty leaf.empty
  · exact inner _ _ _ _ read top mem owner within

theorem onlyTypes_of_readMarkup {origin : Origin} {source : String} {tokens : List Token}
    (h : readMarkup (.withAdapters adapters) config origin source = .ok tokens) :
    OnlyTypes tokens := by
  refine readMarkup_induct (motive := fun _ _ _ tokens => OnlyTypes tokens) ?_ h
  intro config origin source found tokens nested cut inner read top mem owner within
  obtain ⟨piece, offset, -, made⟩ := exists_of_mem_embedWith read mem
  cases embedded_of_embedToken made with
  | plain kind text =>
    rw [within.eq_of_empty rfl]
    exact Token.holdsType_of_empty rfl
  | endTag tag =>
    rw [within.eq_of_empty rfl]
    exact Token.holdsType_of_empty rfl
  | startTag inline => exact holdsType_of_readStart inline nofun within
  | block typed inline inside =>
    rcases within_block within with rfl | within | within | ⟨part, last, within⟩
    · intro slot text held
      cases slot <;> try cases held
      obtain ⟨_, -, same⟩ := Option.map_eq_some_iff.mp held
      cases same
    · exact holdsType_of_readStart inline (declared_of_placeStart typed) within
    · exact holdsType_of_readBody (fun _ _ _ _ read => (inner _ _ _ _ read).2) inside within
    · obtain ⟨tag, -, rfl⟩ := Option.map_eq_some_iff.mp last
      rw [within.eq_of_empty rfl]
      exact Token.holdsType_of_empty rfl

theorem onlyTypes_of_dispatch {grammar : Grammar} {origin : Origin} {source : String} {ast : Ast}
    (h : dispatch (.withAdapters adapters) config grammar origin source = .ok ast) :
    OnlyTypes ast.tokens := by
  cases grammar with
  | markup =>
    obtain ⟨tokens, read, rfl⟩ := map_eq_ok.mp h
    exact onlyTypes_of_readMarkup read
  | style =>
    obtain ⟨tokens, read, rfl⟩ := map_eq_ok.mp h
    obtain ⟨found, cut, rfl⟩ := Style.tokenize_eq_ok read
    intro top mem owner within
    have leaf := Style.leaf_of_place (Style.read_spelled cut) mem within
    exact Token.holdsType_of_empty leaf.empty
  | script =>
    obtain ⟨tree, -, rfl⟩ := map_eq_ok.mp h
    intro top mem
    cases mem

end Types

end Mosaic
