/-! Sets of characters, written as ascending intervals of code points. -/
namespace Mosaic.Text

/-- Whether `n` lies in one of the ascending closed intervals. -/
def inRanges : List (Nat × Nat) → Nat → Bool
  | [], _ => false
  | (low, high) :: rest, n =>
    if n < low then false else if n ≤ high then true else inRanges rest n

end Mosaic.Text
