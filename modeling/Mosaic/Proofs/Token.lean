import Mosaic.Token.Basic

/-! Trees of tokens: which tokens hang in the slots of a token, and in the slots of those. -/
namespace Mosaic

def TokenKind.isBlock : TokenKind → Bool
  | .styleBlock | .scriptBlock => true
  | _ => false

/-- The tokens that a payload is made of. -/
def Payload.tokens : Payload → List Token
  | .token part => [part]
  | .markup read => read
  | .style read => read
  | .script _ => []
  | .text _ => []

/-- The tokens in the tree of a token. -/
inductive Within : Token → Token → Prop
  | self (token : Token) : Within token token
  | child {top child token : Token} {slot : Slot} {payload : Payload} :
    top.ext.get? slot = some payload → child ∈ payload.tokens → Within child token →
      Within top token

theorem Extensions.get?_empty (slot : Slot) : Extensions.empty.get? slot = none := by
  cases slot <;> rfl

theorem Extensions.sizeOf_get? {ext : Extensions} {slot : Slot} {payload : Payload}
    (held : ext.get? slot = some payload) : sizeOf payload < sizeOf ext := by
  rcases ext with ⟨start, content, finish, type, tokens, styleTokens, ast⟩
  cases slot <;> cases held <;> simp only [Extensions.mk.sizeOf_spec, Option.some.sizeOf_spec] <;>
    omega

theorem Payload.sizeOf_tokens {payload : Payload} {child : Token} (mem : child ∈ payload.tokens) :
    sizeOf child < sizeOf payload := by
  cases payload with
  | token part =>
    rw [List.mem_singleton.mp mem, Payload.token.sizeOf_spec]
    omega
  | markup read =>
    have := List.sizeOf_lt_of_mem (show child ∈ read from mem)
    rw [Payload.markup.sizeOf_spec]
    omega
  | style read =>
    have := List.sizeOf_lt_of_mem (show child ∈ read from mem)
    rw [Payload.style.sizeOf_spec]
    omega
  | script tree => cases mem
  | text text => cases mem

/-- To show something of every token, show it of a token whose slots hold tokens that have it
already. -/
theorem Token.induct {motive : Token → Prop}
    (step : ∀ token, (∀ slot payload, token.ext.get? slot = some payload →
      ∀ child ∈ payload.tokens, motive child) → motive token)
    (token : Token) : motive token := by
  induction size : sizeOf token using Nat.strongRecOn generalizing token with
  | ind n ih =>
    subst size
    refine step token fun slot payload held child mem => ih _ ?_ child rfl
    have inside : sizeOf token.ext < sizeOf token := by
      cases token
      simp only [Token.mk.sizeOf_spec]
      omega
    exact Nat.lt_trans (Nat.lt_trans (Payload.sizeOf_tokens mem) (Extensions.sizeOf_get? held))
      inside

/-- A token with nothing in its slots is alone in its tree. -/
theorem Within.eq_of_empty {top owner : Token} (within : Within top owner)
    (empty : top.ext = .empty) : owner = top := by
  cases within with
  | self => rfl
  | child held =>
    rw [empty, Extensions.get?_empty] at held
    cases held

/-- A token with no tokens in its slots is alone in its tree. -/
theorem Within.eq_of_childless {top owner : Token} (within : Within top owner)
    (childless : ∀ slot payload, top.ext.get? slot = some payload → payload.tokens = []) :
    owner = top := by
  cases within with
  | self => rfl
  | child held mem =>
    rw [childless _ _ held] at mem
    cases mem

end Mosaic
