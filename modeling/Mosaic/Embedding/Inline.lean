import Mosaic.Backends
import Mosaic.Embedding.Region

/-! Inline styles. The value of a style attribute is no style sheet, so it is read as the block of
a rule, and the tokens of that wrapper are taken off again. Where value and wrapper cannot be told
apart the value stays text. -/
namespace Mosaic.Embedding

/-- A value as the block of a rule. -/
def wrap (value : String) : String := "*\x7b" ++ value ++ "\x7d"

/-- Whether a left delimiter begins in the first two characters of a wrapped value and ends
behind them. -/
def crossesWrapper (left wrapped : List Char) : Bool :=
  (left.isPrefixOf wrapped && decide (2 < left.length)) ||
    (left.isPrefixOf (wrapped.drop 1) && decide (1 < left.length))

/-- The index of the last element that satisfies `p`. -/
def lastIndex? (p : Token → Bool) (tokens : List Token) : Option Nat :=
  (tokens.reverse.findIdx? p).map fun i => tokens.length - 1 - i

/-- Whether a token can stand before the brace of the wrapper. -/
def isWrapperHead (token : Token) : Bool :=
  token.kind.isTrivia || (token.kind == .selector && token.value == "*")

/-- The tokens from index `start` to before index `stop`. -/
def slice (tokens : List Token) (start stop : Nat) : List Token := (tokens.take stop).drop start

/-- Take the wrapper off by position: its first two tokens and its last one. -/
def trimByPosition (tokens : List Token) : List Token :=
  if 3 ≤ tokens.length then slice tokens 2 (tokens.length - 1) else []

/-- Take the wrapper off: what stands between the first left brace and the last right brace. -/
def trimWrapper (tokens : List Token) : List Token :=
  match tokens.findIdx? (·.kind == .leftBrace), lastIndex? (·.kind == .rightBrace) tokens with
  | some first, some last =>
    if first < last ∧ (tokens.take first).all isWrapperHead then slice tokens (first + 1) last
    else trimByPosition tokens
  | _, _ => trimByPosition tokens

/-- The declarations of an inline style, if they can be told apart from the wrapper and are
written back as the value. -/
def declarations? (b : Backends) (config : Config) (region : Region) :
    Except BackendError (Option (List Token)) :=
  let wrapped := wrap region.text
  if crossesWrapper config.template.left.toList wrapped.toList then .ok none
  else do
    let tokens ← b.style.tokenize config.template (region.origin.back 2) wrapped
    let kept := trimWrapper tokens
    let written ← b.style.stringify kept
    return if written = region.text then some kept else none

end Mosaic.Embedding
