/-!
# Stable sorting

Insertion sort by a test that tells whether one item may stand before another.  Items
that may precede each other keep their order.
-/

namespace Statechart

variable {α : Type}

/-- Put an item before the first one that it may precede. -/
def insertBefore (precedes : α → α → Bool) (item : α) : List α → List α
  | [] => [item]
  | first :: rest =>
      if precedes item first then item :: first :: rest
      else first :: insertBefore precedes item rest

/-- Sort a list; items that may precede each other keep their order. -/
def sortStably (precedes : α → α → Bool) (items : List α) : List α :=
  items.foldr (insertBefore precedes) []

end Statechart
