/-!
# Finite tables

A table is a list of pairs in strictly increasing key order.  The order is part of
the answer wherever a table is printed or walked, so it is kept by every operation:
`Table.insert` puts a key where it belongs and replaces an earlier value, `Table.get?`
reads one value, and `Table.erase` drops one key.
-/

namespace Statechart

/-- Pairs in strictly increasing key order. -/
abbrev Table (κ ν : Type) := List (κ × ν)

namespace Table

variable {κ ν : Type}

section Ordered

variable [LT κ] [DecidableLT κ] [DecidableEq κ]

/-- Give `key` the value `value`, whatever it held before. -/
def insert (key : κ) (value : ν) : Table κ ν → Table κ ν
  | [] => [(key, value)]
  | (first, held) :: rest =>
      if key < first then (key, value) :: (first, held) :: rest
      else if key = first then (key, value) :: rest
      else (first, held) :: insert key value rest

/-- The table of a list of pairs; of two pairs with one key the later counts. -/
def ofList (pairs : List (κ × ν)) : Table κ ν :=
  pairs.foldl (fun table pair => table.insert pair.1 pair.2) []

end Ordered

section Lookup

variable [DecidableEq κ]

def get? (table : Table κ ν) (key : κ) : Option ν :=
  (table.find? fun pair => pair.1 = key).map Prod.snd

def erase (table : Table κ ν) (key : κ) : Table κ ν :=
  table.filter fun pair => pair.1 ≠ key

/-- Change the value held by `key`, if there is one. -/
def modify (table : Table κ ν) (key : κ) (change : ν → ν) : Table κ ν :=
  table.map fun pair => if pair.1 = key then (pair.1, change pair.2) else pair

end Lookup

/-- The keys, in increasing order. -/
def keys (table : Table κ ν) : List κ := table.map Prod.fst

/-- The values, in the order of their keys. -/
def values (table : Table κ ν) : List ν := table.map Prod.snd

/-- Every key is smaller than all keys after it. -/
def Sorted [LT κ] (table : Table κ ν) : Prop := table.keys.Pairwise (· < ·)

end Table

end Statechart
