import Mosaic.Template.Adapter

/-! Template settings and the scanner that a tokenizer run uses. The adapter in the settings comes
first, then the one registered for the engine, then the delimited one. An empty delimiter means
that the document has no templates. -/
namespace Mosaic

/-- The delimiters of an engine and, if one is chosen, the adapter that measures its regions. -/
structure Template where
  engine : String
  left : String
  right : String
  adapter : Option Template.Adapter
deriving DecidableEq

namespace Template

def standard : Template := ⟨"smarty", "\x7b%", "%\x7d", none⟩

instance : Inhabited Template := ⟨standard⟩

structure Adapters where
  entries : List (String × Adapter)
deriving DecidableEq, Inhabited

def Adapters.empty : Adapters := ⟨[]⟩

def Adapters.get? (adapters : Adapters) (engine : String) : Option Adapter :=
  adapters.entries.lookup engine

def Adapters.has (adapters : Adapters) (engine : String) : Bool := (adapters.get? engine).isSome

/-- Register an adapter; the last one registered for an engine counts. -/
def Adapters.register (adapters : Adapters) (engine : String) (adapter : Adapter) : Adapters :=
  ⟨(engine, adapter) :: adapters.entries.filter (·.1 != engine)⟩

/-- Delimiters bound to the adapter that measures their regions. -/
structure Scanner where
  left : List Char
  right : List Char
  adapter : Adapter
deriving DecidableEq

def Adapters.scanner (adapters : Adapters) (settings : Template) : Scanner where
  left := settings.left.toList
  right := settings.right.toList
  adapter := settings.adapter.getD ((adapters.get? settings.engine).getD .delimited)

namespace Scanner

/-- Whether the scanner knows templates at all. -/
def active (t : Scanner) : Bool := !t.left.isEmpty && !t.right.isEmpty

def opens (t : Scanner) (s : List Char) : Bool := t.active && t.left.isPrefixOf s

/-- The number of characters of the region that opens at the front of `s`. -/
def scan (t : Scanner) (s : List Char) : Option Nat := t.adapter.scan t.left t.right s

/-- The number of characters that belong, after its first one, to the region that opens with the
character `c`. -/
def scanAfter (t : Scanner) (c : Char) (rest : List Char) : Option Nat :=
  (t.scan (c :: rest)).map (· - 1)

/-- The number of characters before the next region that opens in `s`. -/
def nextOpen? (t : Scanner) (s : List Char) : Option Nat :=
  if t.active then Text.indexOf? t.left s else none

/-- The byte offset of the next region that opens in `source`. -/
def nextReach? (t : Scanner) (source : String) : Option Nat :=
  (t.nextOpen? source.toList).map fun n => Text.bytes (source.toList.take n)

/-- The byte length of the region at the front of `source`, if one opens there. -/
def reach? (t : Scanner) (source : String) : Option Nat :=
  if t.opens source.toList then
    (t.scan source.toList).map fun n => Text.bytes (source.toList.take n)
  else none

end Scanner

end Template

end Mosaic
