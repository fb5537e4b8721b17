import Mosaic.Text.Measure

/-! Template regions: the text from a left delimiter to where its region ends. How far a region
extends is decided by an adapter. -/
namespace Mosaic.Template

/-- A way to find the end of a template region. -/
inductive Adapter where
  | delimited
  | nested
deriving DecidableEq, Inhabited

/-- Whether a scan stands outside of quotes, between quotes, or behind a backslash there. -/
inductive Quoting where
  | outside
  | inside (quote : Char)
  | escaped (quote : Char)
deriving DecidableEq

/-- The number of characters of `body` up to the end of the first right delimiter that stands
outside of quotes. A quote that never closes is no quote: then the first right delimiter of all
ends the region. -/
def delimitedFrom (right body : List Char) : Quoting → Nat → List Char → Option Nat
  | .outside, _, [] => none
  | .inside _, _, [] => Text.endOf? right body
  | .escaped _, _, [] => Text.endOf? right body
  | .outside, passed, c :: rest =>
    if right.isPrefixOf (c :: rest) then some (passed + right.length)
    else if c = '"' ∨ c = '\'' then delimitedFrom right body (.inside c) (passed + 1) rest
    else delimitedFrom right body .outside (passed + 1) rest
  | .inside quote, passed, c :: rest =>
    if c = '\\' then delimitedFrom right body (.escaped quote) (passed + 1) rest
    else if c = quote then delimitedFrom right body .outside (passed + 1) rest
    else delimitedFrom right body (.inside quote) (passed + 1) rest
  | .escaped quote, passed, _ :: rest =>
    delimitedFrom right body (.inside quote) (passed + 1) rest

/-- The number of characters up to the delimiter that closes the last open region, where `depth`
regions are open and the first `skip` characters belong to a delimiter already read. -/
def nestedFrom (left right : List Char) : (depth skip : Nat) → List Char → Option Nat
  | _, _, [] => none
  | depth, skip + 1, _ :: rest => (nestedFrom left right depth skip rest).map (· + 1)
  | depth, 0, c :: rest =>
    if left.isPrefixOf (c :: rest) then
      (nestedFrom left right (depth + 1) (left.length - 1) rest).map (· + 1)
    else if right.isPrefixOf (c :: rest) then
      if depth ≤ 1 ∨ right.isEmpty then some right.length
      else (nestedFrom left right (depth - 1) (right.length - 1) rest).map (· + 1)
    else (nestedFrom left right depth 0 rest).map (· + 1)

/-- The number of characters of the region at the front of `source`, which begins with `left`. -/
def Adapter.scan (adapter : Adapter) (left right source : List Char) : Option Nat :=
  match adapter with
  | .delimited =>
    let body := source.drop left.length
    (delimitedFrom right body .outside 0 body).map (· + left.length)
  | .nested => nestedFrom left right 0 0 source

/-- The number of bytes of the region at the front of `source`. -/
def Adapter.reach (adapter : Adapter) (left right source : String) : Option Nat :=
  (adapter.scan left.toList right.toList source.toList).map
    fun n => Text.bytes (source.toList.take n)

end Mosaic.Template
