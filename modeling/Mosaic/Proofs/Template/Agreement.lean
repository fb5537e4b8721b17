import Mosaic.Proofs.Template

/-! Scanners that agree on a text. What a reader learns from a scanner is where regions open in the
text that it reads and how far those reach. Scanners that tell the same of this are one scanner to
the reader, and so are all scanners whose regions the text does not hold. -/
namespace Mosaic.Template

namespace Scanner

variable {t u : Scanner} {s rest : List Char}

/-- Two scanners see the same regions in a text: they open at the same places and reach as far. -/
structure Agree (t u : Scanner) (s : List Char) : Prop where
  opens {rest : List Char} : rest <:+ s → t.opens rest = u.opens rest
  scan {rest : List Char} : rest <:+ s → t.opens rest = true → t.scan rest = u.scan rest

/-- No region opens anywhere in a text. -/
def Silent (t : Scanner) (s : List Char) : Prop := ∀ rest, rest <:+ s → t.opens rest = false

namespace Agree

theorem of_suffix (h : Agree t u s) (part : rest <:+ s) : Agree t u rest :=
  ⟨fun inside => h.opens (inside.trans part), fun inside => h.scan (inside.trans part)⟩

theorem drop (h : Agree t u s) (n : Nat) : Agree t u (s.drop n) :=
  h.of_suffix (List.drop_suffix n s)

theorem tail {c : Char} (h : Agree t u (c :: rest)) : Agree t u rest :=
  h.of_suffix (List.suffix_cons c rest)

theorem opens_front (h : Agree t u s) : t.opens s = u.opens s := h.opens (List.suffix_refl s)

theorem scanAfter {c : Char} (h : Agree t u (c :: rest)) (opens : u.opens (c :: rest) = true) :
    t.scanAfter c rest = u.scanAfter c rest := by
  rw [← h.opens_front] at opens
  rw [Scanner.scanAfter, Scanner.scanAfter, h.scan (List.suffix_refl _) opens]

theorem nextOpen? (h : Agree t u s) : t.nextOpen? s = u.nextOpen? s := by
  induction s with
  | nil => rw [nextOpen?_nil, nextOpen?_nil]
  | cons c rest ih =>
    by_cases opens : t.opens (c :: rest) = true
    · rw [nextOpen?_of_opens opens, nextOpen?_of_opens (h.opens_front ▸ opens)]
    · rw [nextOpen?_cons opens, nextOpen?_cons (h.opens_front ▸ opens), ih h.tail]

end Agree

theorem Silent.agree (h : t.Silent s) (other : u.Silent s) : Agree t u s := by
  refine ⟨fun part => (h _ part).trans (other _ part).symm, fun part opens => ?_⟩
  rw [h _ part] at opens
  cases opens

/-- The scanner that knows no templates. -/
def off : Scanner := ⟨[], [], .delimited⟩

theorem not_opens_off (s : List Char) : ¬ off.opens s = true := Bool.false_ne_true

theorem Silent.agree_off (h : t.Silent s) : Agree t off s :=
  h.agree fun rest _ => Bool.eq_false_iff.mpr (not_opens_off rest)

theorem silent_of_inactive (h : t.active = false) (s : List Char) : t.Silent s := by
  intro rest _
  rw [Scanner.opens, h, Bool.false_and]

theorem silent_of_not_infix (h : ¬ t.left <:+: s) : t.Silent s := by
  intro rest part
  rw [Bool.eq_false_iff]
  intro opens
  rw [Scanner.opens, Bool.and_eq_true] at opens
  exact h ((List.isPrefixOf_iff_prefix.mp opens.2).isInfix.trans part.isInfix)

end Scanner

/-- A text makes no use of some settings: the left delimiter does not occur in it, or one of the
delimiters is empty and there are no templates at all. -/
def Unused (settings : Template) (source : String) : Prop :=
  ¬ settings.left.toList <:+: source.toList ∨ settings.left = "" ∨ settings.right = ""

theorem silent_of_unused {settings : Template} {source : String} (h : settings.Unused source)
    (adapters : Adapters) : (adapters.scanner settings).Silent source.toList := by
  rcases h with absent | left | right
  · exact Scanner.silent_of_not_infix absent
  · refine Scanner.silent_of_inactive ?_ _
    rw [Scanner.active, Adapters.scanner, left]
    rfl
  · refine Scanner.silent_of_inactive ?_ _
    rw [Scanner.active, Adapters.scanner, right]
    exact Bool.and_false _

end Mosaic.Template
