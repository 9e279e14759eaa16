import Mathlib.Data.List.Infix
import Mathlib.Data.Prod.Lex
import Statechart.Event.Descriptor
import Statechart.Text

/-!
# Tokens

The tokens of an event type are its segments between points. Descriptors are read, compared
with event types and sorted by their letters: by a suffix, by a beginning that a point follows,
by a number of bytes. All this comes to the same as going by tokens. A stem concerns the event
types whose first tokens are its own, and of two stems that concern one event type the one with
more tokens is sorted before the other, whatever letters the tokens are made of and however
many of them are empty.
-/

namespace Statechart

namespace Text

theorem cut_eq_splitOn (letters : List Char) : cut letters = letters.splitOn '.' := by
  induction letters with
  | nil => rfl
  | cons letter rest ih =>
      rw [List.splitOn_cons_eq_if_modifyHead, ← ih]
      by_cases point : letter = '.'
      · simp [cut, point]
      · cases segments : cut rest with
        | nil => exact absurd (ih.symm.trans segments) (List.splitOn_ne_nil '.' rest)
        | cons segment segments => simp [cut, point, segments]

theorem toList_dotted (parts : List String) :
    (dotted parts).toList = ['.'].intercalate (parts.map String.toList) :=
  String.toList_intercalate

theorem segments_ne_nil (text : String) : segments text ≠ [] := by
  rw [segments, cut_eq_splitOn, Ne, List.map_eq_nil_iff]
  exact List.splitOn_ne_nil '.' text.toList

/-- Segments without points, joined by points, are found again. -/
theorem segments_dotted
    {parts : List String}
    (notEmpty : parts ≠ [])
    (pointless : ∀ part ∈ parts, holds part '.' = false) :
    segments (dotted parts) = parts := by
  have split : cut (dotted parts).toList = parts.map String.toList := by
    rw [cut_eq_splitOn, toList_dotted, List.splitOn_intercalate]
    · intro segment member
      obtain ⟨part, isPart, rfl⟩ := List.mem_map.mp member
      simpa [holds] using pointless part isPart
    · simpa using notEmpty
  rw [segments, split, List.map_map]
  exact (List.map_congr_left fun part _ => String.ofList_toList).trans (List.map_id parts)

theorem dotted_segments (text : String) : dotted (segments text) = text := by
  have letters : (segments text).map String.toList = text.toList.splitOn '.' := by
    rw [segments, List.map_map, cut_eq_splitOn]
    exact (List.map_congr_left fun part _ => String.toList_ofList).trans (List.map_id _)
  rw [← String.toList_inj, toList_dotted, letters, List.intercalate_splitOn]

theorem segments_append_point (front back : String) :
    segments (front ++ "." ++ back) = segments front ++ segments back := by
  have letters : (front ++ "." ++ back).toList = front.toList ++ '.' :: back.toList := by
    simp [String.toList_append]
  rw [segments, segments, segments, letters, cut_eq_splitOn, cut_eq_splitOn, cut_eq_splitOn,
    List.splitOn_append_cons_self, List.map_append]

/-- The segments of a text go on from those of another exactly if the text goes on from the other
with a point, or with nothing. -/
theorem segments_prefix_iff {front text : String} :
    segments front <+: segments text ↔ text = front ∨ ∃ rest, text = front ++ "." ++ rest := by
  constructor
  · rintro ⟨further, split⟩
    have joined : text = dotted (segments front ++ further) := by rw [split, dotted_segments]
    by_cases nothing : further = []
    · rw [nothing, List.append_nil, dotted_segments] at joined
      exact .inl joined
    · refine .inr ⟨dotted further, ?_⟩
      rw [joined, dotted, String.intercalate_append_of_ne_nil (segments_ne_nil front) nothing]
      exact congrArg (· ++ "." ++ dotted further) (dotted_segments front)
  · rintro (rfl | ⟨rest, rfl⟩)
    · exact List.prefix_rfl
    · rw [segments_append_point]
      exact List.prefix_append _ _

end Text

namespace Descriptor

open Text

section Reading

variable {text : String} {descriptor : Descriptor}

/-- The descriptor that a text stands for: the star for every event; a stem that is not empty,
with a point and a star after it, for the family of this stem; any other text for the events of
this type. -/
inductive StandsFor : String → Descriptor → Prop
  | every : StandsFor "*" .wildcard
  | stem {stem : String} (named : stem ≠ "") : StandsFor (stem ++ ".*") (.family stem)
  | other {text : String} (named : text ≠ "") (notStar : text ≠ "*")
      (stemless : ∀ stem, stem ≠ "" → text ≠ stem ++ ".*") : StandsFor text (.exact text)

theorem stem?_eq_some_iff {letters stem : List Char} :
    stem? letters = some stem ↔ stem ≠ [] ∧ letters = stem ++ ['.', '*'] := by
  -- The letters are looked at from behind, where the point and the star come first.
  have reversed : ∀ rest, ['.', '*'].reverse.isPrefixOf? letters.reverse = some rest ↔
      letters = rest.reverse ++ ['.', '*'] := by
    intro rest
    rw [List.isPrefixOf?_eq_some_iff_append_eq, eq_comm, List.reverse_eq_iff, List.reverse_append,
      List.reverse_reverse]
  unfold stem?
  split
  next last rest found =>
    rw [(reversed _).mp found, List.append_cancel_right_eq, Option.some_inj]
    constructor
    · rintro rfl
      exact ⟨by simp, rfl⟩
    · exact fun same => same.2
  next missing =>
    refine iff_of_false nofun ?_
    rintro ⟨named, split⟩
    obtain ⟨last, rest, backwards⟩ := List.exists_cons_of_ne_nil (List.reverse_ne_nil_iff.mpr named)
    refine missing last rest ((reversed _).mpr ?_)
    rw [← backwards, List.reverse_reverse, split]

theorem stem_ne_star (stem : String) : stem ++ ".*" ≠ "*" := by
  intro same
  have lengths : stem.length + 2 = 1 :=
    (String.length_append stem ".*").symm.trans (congrArg String.length same)
  omega

theorem stem?_toList_eq_some_iff {stem : String} :
    stem? text.toList = some stem.toList ↔ stem ≠ "" ∧ text = stem ++ ".*" := by
  have letters : text = stem ++ ".*" ↔ text.toList = stem.toList ++ ['.', '*'] := by
    rw [← String.toList_inj, String.toList_append]
    rfl
  rw [stem?_eq_some_iff, Ne, String.toList_eq_nil_iff, letters]

theorem parse?_eq_some_iff :
    parse? text = some descriptor ↔ StandsFor text descriptor := by
  constructor
  · intro parsed
    unfold parse? at parsed
    split at parsed
    next => cases parsed
    next named =>
      split at parsed
      next star =>
        cases parsed
        exact star ▸ .every
      next notStar =>
        split at parsed
        next letters found =>
          cases parsed
          rw [← String.toList_ofList (l := letters), stem?_toList_eq_some_iff] at found
          exact found.2 ▸ .stem found.1
        next missing =>
          cases parsed
          refine .other named notStar fun stem stemNamed split => ?_
          rw [stem?_toList_eq_some_iff.mpr ⟨stemNamed, split⟩] at missing
          cases missing
  · intro stands
    cases stands with
    | every => rfl
    | @stem stem named =>
        have notEmpty : stem ++ ".*" ≠ "" :=
          fun empty => named (String.append_eq_empty_iff.mp empty).1
        have found := stem?_toList_eq_some_iff.mpr ⟨named, rfl⟩
        rw [parse?, if_neg notEmpty, if_neg (stem_ne_star stem), found]
        simp
    | other named notStar stemless =>
        have missing : stem? text.toList = none := by
          cases found : stem? text.toList with
          | none => rfl
          | some letters =>
              rw [← String.toList_ofList (l := letters), stem?_toList_eq_some_iff] at found
              exact absurd found.2 (stemless _ found.1)
        rw [parse?, if_neg named, if_neg notStar, missing]

theorem exists_standsFor (named : text ≠ "") : ∃ descriptor, StandsFor text descriptor := by
  by_cases star : text = "*"
  · exact ⟨.wildcard, star ▸ .every⟩
  · by_cases stemless : ∀ stem, stem ≠ "" → text ≠ stem ++ ".*"
    · exact ⟨.exact text, .other named star stemless⟩
    · push Not at stemless
      obtain ⟨stem, stemNamed, rfl⟩ := stemless
      exact ⟨.family stem, .stem stemNamed⟩

/-- The only descriptor that cannot be read is the empty text. -/
theorem parse?_eq_none_iff : parse? text = none ↔ text = "" := by
  constructor
  · intro missing
    by_contra named
    obtain ⟨descriptor, stands⟩ := exists_standsFor named
    rw [parse?_eq_some_iff.mpr stands] at missing
    cases missing
  · rintro rfl
    rfl

theorem StandsFor.text_eq (stands : StandsFor text descriptor) : descriptor.text = text := by
  cases stands <;> rfl

end Reading

section Hearing

variable {stem type : String}

theorem extendsStem_iff :
    extendsStem stem.toList type.toList = true ↔
      type = stem ∨ ∃ rest, type = stem ++ "." ++ rest := by
  have found_iff : ∀ rest, stem.toList.isPrefixOf? type.toList = some rest ↔
      type = stem ++ String.ofList rest := by
    intro rest
    rw [List.isPrefixOf?_eq_some_iff_append_eq, ← String.toList_inj, String.toList_append,
      String.toList_ofList, eq_comm]
  have point : ∀ rest, stem ++ String.ofList ('.' :: rest) = stem ++ "." ++ String.ofList rest := by
    intro rest
    rw [String.append_assoc, ← List.singleton_append, String.ofList_append]
  constructor
  · intro isExtended
    unfold extendsStem at isExtended
    split at isExtended
    next found => exact .inl (by simpa using (found_iff _).mp found)
    next letter rest found =>
      obtain rfl : letter = '.' := of_decide_eq_true isExtended
      exact .inr ⟨String.ofList rest, by rw [(found_iff _).mp found, point]⟩
    next => cases isExtended
  · rintro (same | ⟨rest, split⟩)
    · have found := (found_iff []).mpr (by simpa using same)
      rw [extendsStem, found]
    · have found := (found_iff ('.' :: rest.toList)).mpr
        (by rw [point, String.ofList_toList, split])
      rw [extendsStem, found]
      rfl

theorem hears_family_iff :
    (family stem).hears type = true ↔ segments stem <+: segments type := by
  rw [segments_prefix_iff]
  exact extendsStem_iff

/-- What a descriptor hears can be told from its text: the star hears every event type, a stem
those whose first tokens are its own, and any other text the event type that it is. -/
theorem StandsFor.hears_iff
    {text : String} {descriptor : Descriptor}
    (stands : StandsFor text descriptor) :
    descriptor.hears type = true ↔
      text = "*" ∨
        (∃ stem, stem ≠ "" ∧ text = stem ++ ".*" ∧ segments stem <+: segments type) ∨
        (text ≠ "*" ∧ (∀ stem, stem ≠ "" → text ≠ stem ++ ".*") ∧ text = type) := by
  cases stands with
  | every => exact iff_of_true rfl (.inl rfl)
  | @stem stem named =>
      rw [hears_family_iff]
      constructor
      · intro tokens
        exact .inr (.inl ⟨stem, named, rfl, tokens⟩)
      · rintro (star | ⟨other, _, same, tokens⟩ | ⟨_, stemless, _⟩)
        · exact absurd star (stem_ne_star stem)
        · rwa [(String.append_left_inj ".*").mp same]
        · exact absurd rfl (stemless stem named)
  | other named notStar stemless =>
      have heard : (exact text).hears type = true ↔ text = type := decide_eq_true_iff
      rw [heard]
      constructor
      · intro same
        exact .inr (.inr ⟨notStar, stemless, same⟩)
      · rintro (star | ⟨stem, stemNamed, split, _⟩ | ⟨_, _, same⟩)
        · exact absurd star notStar
        · exact absurd split (stemless stem stemNamed)
        · exact same

end Hearing

section Sorting

variable {first second type : String}

/-- A pair of numbers to sort descriptors by, where no number is larger than `most`: the class, and
for a stem what its bytes leave of `most`, so that longer stems come first. -/
def sortKey (most : Nat) : Descriptor → Nat ×ₗ Nat
  | .exact _ => toLex (0, 0)
  | .family stem => toLex (1, most - stem.utf8ByteSize)
  | .wildcard => toLex (2, 0)
  | .always => toLex (3, 0)

theorem precedes_family_iff :
    (family first).precedes (family second) = true ↔
      second.utf8ByteSize ≤ first.utf8ByteSize :=
  decide_eq_true_iff

theorem precedes_iff_sortKey_le
    {left right : Descriptor} {most : Nat}
    (leftFits : left.weight ≤ most)
    (rightFits : right.weight ≤ most) :
    left.precedes right = true ↔ left.sortKey most ≤ right.sortKey most := by
  cases left <;> cases right
  case family.family heavy light =>
    simp only [weight] at leftFits rightFits
    rw [precedes_family_iff, sortKey, sortKey, Prod.Lex.toLex_le_toLex]
    omega
  all_goals simp [precedes, sortKey, tier, weight, Prod.Lex.toLex_le_toLex]

/-- Of two different stems that concern one event type, the one that has no more tokens than the
other has fewer bytes. -/
theorem lighter_of_fewer
    (firstHears : (family first).hears type = true)
    (secondHears : (family second).hears type = true)
    (different : first ≠ second)
    (fewer : (segments second).length ≤ (segments first).length) :
    second.utf8ByteSize < first.utf8ByteSize := by
  -- Both are beginnings of the tokens of the event type.
  have within : segments second <+: segments first :=
    List.prefix_of_prefix_length_le (hears_family_iff.mp secondHears)
      (hears_family_iff.mp firstHears) fewer
  rcases segments_prefix_iff.mp within with same | ⟨rest, split⟩
  · exact absurd same different
  · have bytes : first.utf8ByteSize = second.utf8ByteSize + 1 + rest.utf8ByteSize := by
      rw [split, String.utf8ByteSize_append, String.utf8ByteSize_append]
      rfl
    omega

end Sorting

/-- Descriptors go by tokens.  Each text but the empty one is read as a descriptor, which is
printed as this text again.  The star concerns all event types; a stem that is not empty, with a
point and a star after it, concerns those whose first tokens are the tokens of the stem; any other
text concerns the event type that it is.  Of two stems that concern one event type one has more
tokens, and this one is sorted before the other and never after it; if its bytes can be counted
with the numbers that keys are made of, its key is the smaller one. -/
theorem matched_by_tokens :
    (∀ text, text ≠ "" →
      ∃ descriptor, parse? text = some descriptor ∧ descriptor.text = text ∧
        ∀ type, descriptor.hears type = true ↔
          text = "*" ∨
            (∃ stem, stem ≠ "" ∧ text = stem ++ ".*" ∧ segments stem <+: segments type) ∨
            (text ≠ "*" ∧ (∀ stem, stem ≠ "" → text ≠ stem ++ ".*") ∧ text = type)) ∧
      ∀ first second type : String, first ≠ second →
        (family first).hears type = true → (family second).hears type = true →
        (segments first).length ≠ (segments second).length ∧
          ((segments second).length < (segments first).length →
            (family first).precedes (family second) = true ∧
              (family second).precedes (family first) = false ∧
              ∀ most, first.utf8ByteSize ≤ most →
                (family first).sortKey most < (family second).sortKey most) := by
  constructor
  · intro text named
    obtain ⟨descriptor, stands⟩ := exists_standsFor named
    exact ⟨descriptor, parse?_eq_some_iff.mpr stands, stands.text_eq, fun _ => stands.hears_iff⟩
  · intro first second type different firstHears secondHears
    constructor
    · intro same
      have lighter := lighter_of_fewer firstHears secondHears different same.ge
      have heavier := lighter_of_fewer secondHears firstHears (Ne.symm different) same.le
      exact lighter.asymm heavier
    · intro more
      have lighter := lighter_of_fewer firstHears secondHears different more.le
      have notAfter : ¬ (family second).precedes (family first) = true :=
        fun after => Nat.not_le.mpr lighter (precedes_family_iff.mp after)
      refine ⟨precedes_family_iff.mpr lighter.le, Bool.not_eq_true _ ▸ notAfter, ?_⟩
      intro most (firstFits : (family first).weight ≤ most)
      have secondFits : (family second).weight ≤ most := Nat.le_trans lighter.le firstFits
      refine not_le.mp fun after => notAfter ?_
      exact (precedes_iff_sortKey_le secondFits firstFits).mpr after

/-- A stem with an empty second token concerns an event type that has one too, and is sorted before
the stem without it. -/
theorem matched_by_tokens_cafe :
    ("café..*" ≠ "" ∧ parse? "café..*" = some (.family "café.") ∧
        (family "café.").text = "café..*" ∧ (family "café.").hears "café..open" = true ∧
        (family "café.").hears "café.open" = false) ∧
      "café." ≠ "café" ∧ (family "café").hears "café..open" = true ∧
        (segments "café").length < (segments "café.").length ∧
        (family "café.").precedes (family "café") = true ∧
        (family "café").precedes (family "café.") = false ∧
        (family "café.").sortKey (UInt64.size - 1) < (family "café").sortKey (UInt64.size - 1) := by
  obtain ⟨reading, sorting⟩ := matched_by_tokens
  have named : "café..*" ≠ "" := by decide +kernel
  obtain ⟨descriptor, parsed, printed, heard⟩ := reading "café..*" named
  obtain rfl : family "café." = descriptor :=
    Option.some.inj ((by decide +kernel : parse? "café..*" = _).symm.trans parsed)
  have hears : (family "café.").hears "café..open" = true :=
    (heard _).mpr (.inr (.inl ⟨"café.", by decide +kernel⟩))
  have ignores : (family "café.").hears "café.open" = false := by decide +kernel
  have different : "café." ≠ "café" := by decide +kernel
  have shorter : (family "café").hears "café..open" = true := by decide +kernel
  have more : (segments "café").length < (segments "café.").length := by decide +kernel
  obtain ⟨first, notAfter, keys⟩ := (sorting _ _ _ different hears shorter).2 more
  exact ⟨⟨named, parsed, printed, hears, ignores⟩, different, shorter, more, first, notAfter,
    keys _ (by decide +kernel)⟩

end Descriptor

end Statechart
