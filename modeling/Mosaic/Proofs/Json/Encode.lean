import Mosaic.Output.Formats
import Mosaic.Proofs.Json.Pretty
import Mosaic.Proofs.Token

/-! The JSON form of a tree says what the tree is. All that a token, an attribute or a node has is
in a member of its object; what may be missing is null or no member at all, and a payload and a
tree name their grammar. So different trees have different texts. -/
namespace Mosaic

/-! ### Values without tokens -/

theorem Json.option_inj {α : Type} {encode : α → Json} (apart : ∀ a b, encode a = encode b ↔ a = b)
    (present : ∀ a, encode a ≠ .null) {value other : Option α} :
    Json.option encode value = Json.option encode other ↔ value = other := by
  cases value <;> cases other <;> simp [Json.option, apart, present, (present _).symm]

@[simp] theorem Position.json_inj {p q : Position} : p.json = q.json ↔ p = q := by
  cases p
  cases q
  simp [Position.json]

@[simp] theorem Span.json_inj {s t : Span} : s.json = t.json ↔ s = t := by
  cases s
  cases t
  simp [Span.json]

@[simp] theorem Range.json_inj {range other : Range} : range.json = other.json ↔ range = other := by
  cases range
  cases other
  simp [Range.json]

@[simp] theorem Attr.json_inj {attr other : Attr} : attr.json = other.json ↔ attr = other := by
  have quotes : ∀ a b : Char, Json.text a.toString = .text b.toString ↔ a = b := fun a b =>
    (Json.text.injEq _ _).to_iff.trans String.singleton_inj
  have texts : ∀ a b, Json.text a = .text b ↔ a = b := fun _ _ => (Json.text.injEq _ _).to_iff
  cases attr
  cases other
  simp only [Attr.json, Json.object.injEq, List.cons.injEq, Prod.mk.injEq, Json.text.injEq,
    Json.bool.injEq, true_and, and_true, Attr.mk.injEq, Json.option_inj quotes nofun,
    Json.option_inj texts nofun, Json.option_inj (fun _ _ => Range.json_inj) nofun]

@[simp] theorem Tag.json_inj {tag other : Tag} : tag.json = other.json ↔ tag = other := by
  have attrs : ∀ a b : Attr, a.json = b.json → a = b := fun _ _ => Attr.json_inj.mp
  cases tag
  cases other
  simp [Tag.json, List.map_inj_right attrs]

namespace Script

theorem LeafKind.name_inj {kind other : LeafKind} : kind.name = other.name ↔ kind = other := by
  cases kind <;> cases other <;> decide

mutual

theorem Node.eq_of_json : ∀ {node other : Node}, node.json = other.json → node = other
  | .leaf kind text, .leaf otherKind otherText, same => by
    simpa [Node.json, LeafKind.name_inj] using same
  | .leaf _ _, .group _ _ _, same => by simp [Node.json] at same
  | .group _ _ _, .leaf _ _, same => by simp [Node.json] at same
  | .group opener body closer, .group otherOpener others otherCloser, same => by
    simp only [Node.json, Json.object.injEq, List.cons.injEq, Prod.mk.injEq, Json.text.injEq,
      Json.list.injEq, true_and, and_true] at same
    obtain ⟨openers, bodies, closers⟩ := same
    rw [String.singleton_inj.mp openers, Node.eq_of_jsonAll bodies, String.singleton_inj.mp closers]

theorem Node.eq_of_jsonAll : ∀ {nodes others : List Node},
    Node.jsonAll nodes = Node.jsonAll others → nodes = others
  | [], [], _ => rfl
  | [], _ :: _, same => by simp [Node.jsonAll] at same
  | _ :: _, [], same => by simp [Node.jsonAll] at same
  | node :: rest, other :: others, same => by
    simp only [Node.jsonAll, List.cons.injEq] at same
    rw [Node.eq_of_json same.1, Node.eq_of_jsonAll same.2]

end

theorem Node.jsonAll_inj {nodes others : List Node} :
    Node.jsonAll nodes = Node.jsonAll others ↔ nodes = others :=
  ⟨Node.eq_of_jsonAll, congrArg _⟩

@[simp] theorem Tree.json_inj {tree other : Tree} : tree.json = other.json ↔ tree = other := by
  cases tree
  cases other
  simp [Tree.json, Node.jsonAll_inj]

end Script

/-! ### Tokens -/

theorem TokenKind.name_inj {kind other : TokenKind} : kind.name = other.name ↔ kind = other :=
  ⟨fun same => Option.some.inj (by rw [← ofName?_name, same, ofName?_name]), fun same => same ▸ rfl⟩

theorem Slot.name_inj {slot other : Slot} : slot.name = other.name ↔ slot = other :=
  ⟨fun same => Option.some.inj (by rw [← ofName?_name, same, ofName?_name]), fun same => same ▸ rfl⟩

/-- No other token has the JSON form of this one. -/
def Token.Unique (token : Token) : Prop := ∀ other : Token, token.json = other.json → token = other

theorem Token.eq_of_jsonAll {tokens others : List Token} (each : ∀ token ∈ tokens, token.Unique)
    (same : Token.jsonAll tokens = Token.jsonAll others) : tokens = others := by
  induction tokens generalizing others with
  | nil =>
    cases others with
    | nil => rfl
    | cons other others => simp [Token.jsonAll] at same
  | cons token rest ih =>
    obtain ⟨first, later⟩ := List.forall_mem_cons.mp each
    cases others with
    | nil => simp [Token.jsonAll] at same
    | cons other others =>
      simp only [Token.jsonAll, List.cons.injEq] at same
      rw [first other same.1, ih later same.2]

theorem taggedJson_inj {grammar other : String} {value otherValue : Json} :
    taggedJson grammar value = taggedJson other otherValue ↔
      grammar = other ∧ value = otherValue := by
  simp [taggedJson]

theorem Payload.eq_of_json {payload other : Payload}
    (each : ∀ token ∈ payload.tokens, token.Unique) (same : payload.json = other.json) :
    payload = other := by
  cases payload with
  | token token =>
    cases other <;> simp only [Payload.json, taggedJson_inj, String.reduceEq, false_and] at same
    rw [each token List.mem_cons_self _ same.2]
  | markup tokens =>
    have every : ∀ token ∈ tokens, token.Unique := each
    cases other <;> simp only [Payload.json, taggedJson_inj, Json.list.injEq, String.reduceEq,
      false_and] at same
    rw [Token.eq_of_jsonAll every same.2]
  | style tokens =>
    have every : ∀ token ∈ tokens, token.Unique := each
    cases other <;> simp only [Payload.json, taggedJson_inj, Json.list.injEq, String.reduceEq,
      false_and] at same
    rw [Token.eq_of_jsonAll every same.2]
  | script tree =>
    cases other <;> simp only [Payload.json, taggedJson_inj, String.reduceEq, false_and] at same
    rw [Script.Tree.json_inj.mp same.2]
  | text text =>
    cases other <;> simp only [Payload.json, taggedJson_inj, Json.text.injEq, String.reduceEq,
      false_and] at same
    rw [same.2]

/-! ### Slots -/

theorem filter_slotMember (slot other : Slot) (payload : Option Payload) :
    (slotMember other payload).filter (·.1 == slot.name) =
      if other = slot then slotMember other payload else [] := by
  cases payload with
  | none => simp [slotMember]
  | some payload => simp [slotMember, List.filter_cons, Slot.name_inj]

/-- The members with the name of a slot are what hangs there. -/
theorem filter_members (ext : Extensions) (slot : Slot) :
    ext.members.filter (·.1 == slot.name) = slotMember slot (ext.get? slot) := by
  rcases ext with ⟨start, content, finish, type, tokens, styleTokens, ast⟩
  cases slot <;> simp [Extensions.members, filter_slotMember, Extensions.get?]

theorem Extensions.eq_of_get? {ext other : Extensions}
    (same : ∀ slot, ext.get? slot = other.get? slot) : ext = other := by
  cases ext
  cases other
  rw [Extensions.mk.injEq]
  exact ⟨same .start, same .content, same .finish, same .type, same .tokens, same .styleTokens,
    same .ast⟩

theorem eq_of_slotMember {slot : Slot} {payload other : Option Payload}
    (each : ∀ held, payload = some held → ∀ token ∈ held.tokens, token.Unique)
    (same : slotMember slot payload = slotMember slot other) : payload = other := by
  cases payload with
  | none =>
    cases other with
    | none => rfl
    | some other => cases same
  | some payload =>
    cases other with
    | none => cases same
    | some other =>
      simp only [slotMember, List.cons.injEq, Prod.mk.injEq, true_and, and_true] at same
      rw [Payload.eq_of_json (each payload rfl) same]

theorem Extensions.eq_of_members {ext other : Extensions}
    (each : ∀ slot held, ext.get? slot = some held → ∀ token ∈ held.tokens, token.Unique)
    (same : ext.members = other.members) : ext = other := by
  refine Extensions.eq_of_get? fun slot => ?_
  have member : slotMember slot (ext.get? slot) = slotMember slot (other.get? slot) := by
    rw [← filter_members, same, filter_members]
  exact eq_of_slotMember (each slot) member

/-! ### Trees -/

/-- What a token may lack is a member with a name of its own or no member, so that the object of
the token tells what it lacks. -/
theorem Token.parts_of_json {token other : Token} (same : token.json = other.json) :
    token.kind = other.kind ∧ token.value = other.value ∧ token.range = other.range ∧
      token.detail = other.detail ∧ token.ext.members = other.ext.members := by
  rcases token with ⟨kind, value, range, detail, ext⟩
  rcases other with ⟨otherKind, otherValue, otherRange, otherDetail, otherExt⟩
  -- a member is left out for no detail and for empty slots, so both tokens split on the two
  cases detail <;> cases otherDetail <;> cases slots : ext.members <;>
    cases otherSlots : otherExt.members <;>
    simp_all [Token.json, TokenKind.name_inj]

theorem Token.unique (token : Token) : token.Unique := by
  induction token using Token.induct with
  | step token ih =>
    intro other same
    obtain ⟨kind, value, range, detail, members⟩ := parts_of_json same
    have ext := Extensions.eq_of_members ih members
    cases token
    cases other
    rw [Token.mk.injEq]
    exact ⟨kind, value, range, detail, ext⟩

theorem Token.jsonAll_inj {tokens others : List Token} :
    Token.jsonAll tokens = Token.jsonAll others ↔ tokens = others :=
  ⟨Token.eq_of_jsonAll fun token _ => token.unique, congrArg _⟩

theorem Ast.json_inj {ast other : Ast} : ast.json = other.json ↔ ast = other := by
  cases ast <;> cases other <;>
    simp [Ast.json, Ast.grammar, Grammar.name, Token.jsonAll_inj, Script.Tree.json_inj]

/-- The JSON format loses nothing: it puts two trees out, and as the same text only if they are
the same tree. -/
theorem Format.serialize_json_inj {ast other : Ast} :
    (∃ text, json.serialize ast = .ok text ∧ json.serialize other = .ok text) ↔ ast = other := by
  constructor
  · rintro ⟨text, first, second⟩
    have same : ast.json.pretty = other.json.pretty :=
      Except.ok.inj (first.trans second.symm)
    exact Ast.json_inj.mp (Json.pretty_inj.mp same)
  · rintro rfl
    exact ⟨ast.json.pretty, rfl, rfl⟩

end Mosaic
