/-!
# Dotted text

State references, event types and paths into a state value are all read as segments
separated by points.  `Text.segments` cuts a text at every point, and `Text.dotted`
joins segments again; cutting a joined list of point-free segments gives it back.
-/

namespace Statechart.Text

/-- Cut at every point; a text of `n` points has `n + 1` segments, some perhaps empty. -/
def cut : List Char → List (List Char)
  | [] => [[]]
  | letter :: rest =>
      if letter = '.' then [] :: cut rest
      else
        match cut rest with
        | [] => [[letter]]
        | segment :: segments => (letter :: segment) :: segments

/-- The segments of a text, cut at every point. -/
def segments (text : String) : List String :=
  (cut text.toList).map String.ofList

def dotted (parts : List String) : String :=
  ".".intercalate parts

/-- Each way to split a text at one point, the rightmost point first: what stands before
the point and what stands after it. -/
def splitsFromRight : List Char → List (List Char × List Char)
  | [] => []
  | letter :: rest =>
      let later := (splitsFromRight rest).map fun split => (letter :: split.1, split.2)
      if letter = '.' then later ++ [([], rest)] else later

def holds (text : String) (letter : Char) : Bool :=
  text.toList.contains letter

end Statechart.Text
