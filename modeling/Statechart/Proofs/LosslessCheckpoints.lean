import Mathlib.Tactic.Ring
import Statechart.Proofs.Calendar
import Statechart.Proofs.FaithfulCheckpoints
import Statechart.Proofs.JsonTexts

/-!
# Lossless checkpoints

A checkpoint that is written as a record and read again comes back with its version, its id,
its time, its names and its status.  So do the context and the output unless they are nested
too deep; but a missing output is written as `null`, and an output that is `null` is read as
a missing one.
-/

namespace Statechart

namespace Uuid

theorem not_hyphen (value : Nat) : Json.hexDigit (value % 16) ≠ '-' := by
  have small : value % 16 < 16 := Nat.mod_lt _ (by decide)
  generalize value % 16 = digit at small
  decide +revert

theorem shiftRight_eq (value position : Nat) :
    value >>> (4 * position) = value / 16 ^ position := by
  rw [Nat.shiftRight_eq_div_pow, Nat.pow_mul]

theorem toList_digits (value count : Nat) :
    (digits value (count + 1)).toList =
      Json.hexDigit (value / 16 ^ count % 16) :: (digits value count).toList := by
  simp [digits, List.range_succ, shiftRight_eq]

theorem not_hyphen_of_mem
    {value count : Nat} {letter : Char}
    (member : letter ∈ (digits value count).toList) :
    letter ≠ '-' := by
  simp only [digits, String.toList_ofList, List.mem_map] at member
  obtain ⟨position, _, rfl⟩ := member
  exact not_hyphen _

/-- The number whose digits have been read before goes on with further digits. -/
def readOn (seen : Nat) (letters : List Char) : Option Nat :=
  letters.foldlM (fun value letter => do
    return value * 16 + (← Json.hexValue? letter)) seen

theorem readOn_digits
    (value count seen : Nat) (rest : List Char) :
    readOn seen ((digits value count).toList ++ rest) =
      readOn (seen * 16 ^ count + value % 16 ^ count) rest := by
  induction count generalizing seen with
  | zero => simp [digits, Nat.mod_one]
  | succ count ih =>
      have digit : Json.hexValue? (Json.hexDigit (value / 16 ^ count % 16)) =
          some (value / 16 ^ count % 16) :=
        Json.hexValue?_hexDigit (Nat.mod_lt _ (by decide))
      have further : readOn seen ((digits value (count + 1)).toList ++ rest) =
          readOn (seen * 16 + value / 16 ^ count % 16) ((digits value count).toList ++ rest) := by
        rw [toList_digits, readOn, List.cons_append, List.foldlM_cons, digit]
        rfl
      rw [further, ih, Nat.mod_pow_succ]
      exact congrArg (readOn · rest) (by ring)

theorem toList_text (id : Uuid) :
    id.text.toList =
      (digits (id.value >>> 96) 8).toList ++ '-' :: ((digits (id.value >>> 80) 4).toList ++
        '-' :: ((digits (id.value >>> 64) 4).toList ++ '-' ::
          ((digits (id.value >>> 48) 4).toList ++ '-' :: (digits id.value 12).toList))) := by
  have written : id.text =
      digits (id.value >>> 96) 8 ++ "-" ++ digits (id.value >>> 80) 4 ++ "-" ++
        digits (id.value >>> 64) 4 ++ "-" ++ digits (id.value >>> 48) 4 ++ "-" ++
        digits id.value 12 := rfl
  have hyphen : "-".toList = ['-'] := rfl
  rw [written]
  simp only [String.toList_append, List.append_assoc, hyphen, List.cons_append,
    List.nil_append]

theorem length_digits (value count : Nat) : (digits value count).toList.length = count := by
  simp [digits]

theorem filter_text (id : Uuid) :
    id.text.toList.filter (fun letter => letter ≠ '-') =
      (digits (id.value >>> 96) 8).toList ++ ((digits (id.value >>> 80) 4).toList ++
        ((digits (id.value >>> 64) 4).toList ++
          ((digits (id.value >>> 48) 4).toList ++ (digits id.value 12).toList))) := by
  have whole (value count : Nat) :
      (digits value count).toList.filter (fun letter => letter ≠ '-') =
        (digits value count).toList :=
    List.filter_eq_self.mpr fun letter member => decide_eq_true (not_hyphen_of_mem member)
  simp only [toList_text, List.filter_append, List.filter_cons, whole]
  rfl

theorem plain?_text
    {id : Uuid}
    (small : id.value < 2 ^ 128) :
    plain? (id.text.toList.filter fun letter => letter ≠ '-') = some id := by
  have length : (id.text.toList.filter fun letter => letter ≠ '-').length = 32 := by
    rw [filter_text]
    simp [length_digits]
  have read : hexDigits? (id.text.toList.filter fun letter => letter ≠ '-') = some id.value := by
    change readOn 0 _ = _
    rw [filter_text, readOn_digits, readOn_digits, readOn_digits, readOn_digits,
      ← List.append_nil (digits id.value 12).toList, readOn_digits]
    exact congrArg some (by omega)
  rw [plain?, if_pos length, read]
  rfl

/-- Is there a hyphen exactly where one must stand? -/
def isPlaced (placed : Char × Nat) : Bool :=
  (placed.1 = '-') == [8, 13, 18, 23].contains placed.2

theorem isPlaced_digits
    (value count : Nat) {start : Nat}
    (apart : ∀ position, start ≤ position → position < start + count →
      [8, 13, 18, 23].contains position = false) :
    ((digits value count).toList.zipIdx start).all isPlaced = true := by
  rw [List.all_eq_true]
  rintro ⟨letter, position⟩ member
  have bounds := List.mem_zipIdx member
  rw [length_digits] at bounds
  have notHyphen : letter ≠ '-' := not_hyphen_of_mem (List.fst_mem_of_mem_zipIdx member)
  simp only [isPlaced, apart position bounds.1 bounds.2.1, notHyphen, decide_false, BEq.rfl]

theorem isPlaced_text (id : Uuid) : id.text.toList.zipIdx.all isPlaced = true := by
  simp only [toList_text, List.zipIdx_append, List.zipIdx_cons, List.all_append, List.all_cons,
    length_digits, Bool.and_eq_true]
  refine ⟨isPlaced_digits _ _ ?_, rfl, isPlaced_digits _ _ ?_, rfl, isPlaced_digits _ _ ?_, rfl,
    isPlaced_digits _ _ ?_, rfl, isPlaced_digits _ _ ?_⟩
  all_goals
    intro position _ _
    simp only [List.contains_eq_mem, List.mem_cons, List.not_mem_nil, or_false,
      decide_eq_false_iff_not]
    omega

theorem parse?_text
    {id : Uuid}
    (small : id.value < 2 ^ 128) :
    parse? id.text = some id := by
  have length : id.text.toList.length = 36 := by
    simp [toList_text, length_digits]
  have notPlain : plain? id.text.toList = none := if_neg (by simp [length])
  have grouped : grouped? id.text.toList = some id := by
    have placed : (decide (id.text.toList.length = 36) &&
        id.text.toList.zipIdx.all isPlaced) = true := by
      rw [isPlaced_text, length]
      rfl
    exact (if_pos placed).trans (plain?_text small)
  unfold parse?
  simp only [notPlain, grouped]

end Uuid

namespace Checkpoint

variable {checkpoint : Checkpoint}

/-- A checkpoint as it can be held: the version and the id are numbers of 32 and 128 bits,
there is such a point in time, and objects and records stand in key order. -/
structure Proper (checkpoint : Checkpoint) : Prop where
  version : checkpoint.version < versionBound
  id : checkpoint.id.value < 2 ^ 128
  createdAt : checkpoint.createdAt.Proper
  context : checkpoint.context.canonical = checkpoint.context
  history : checkpoint.history.Sorted
  output : ∀ output ∈ checkpoint.output, output.canonical = output

theorem proper_capture
    {chart : Chart} {snapshot : Snapshot} {id : Uuid} {createdAt : Timestamp}
    (small : id.value < 2 ^ 128)
    (created : createdAt.Proper)
    (context : snapshot.context.canonical = snapshot.context)
    (output : ∀ output ∈ snapshot.output, output.canonical = output) :
    (capture chart snapshot id createdAt).Proper where
  version := (by decide : supportedVersion < versionBound)
  id := small
  createdAt := created
  context := context
  history := Table.sorted_ofList _
  output := output

theorem asStrings?_ofStrings
    (texts : List String) :
    (Json.ofStrings texts).asStrings? = some texts := by
  have read : (texts.map Json.str).mapM Json.asString? = some texts := by
    induction texts with
    | nil => rfl
    | cons text texts ih => simp [Json.asString?, ih]
  exact read

theorem mapM_records (records : List (String × List String)) :
    (records.map fun (history, states) => (history, Json.ofStrings states)).mapM
      (fun (history, states) => do return (history, ← states.asStrings?)) = some records := by
  induction records with
  | nil => rfl
  | cons record records ih =>
      rw [List.map_cons, List.mapM_cons, ih]
      simp [asStrings?_ofStrings]

theorem historyOfJson?_records
    {history : Table String (List String)}
    (sorted : history.Sorted) :
    historyOfJson? (.obj (history.map fun (history, states) => (history, Json.ofStrings states))) =
      some history := by
  simp only [historyOfJson?, mapM_records history]
  exact congrArg some (Table.ofList_of_sorted sorted)

theorem statusOfJson?_text (status : Status) : statusOfJson? (.str status.text) = some status := by
  cases status <;> decide

theorem outputOfJson_getD
    {output : Option Json}
    (canonical : ∀ held ∈ output, held.canonical = held) :
    outputOfJson (output.getD .null) = output.filter (· ≠ .null) := by
  cases output with
  | none => rfl
  | some held =>
      have same := canonical held rfl
      cases held with
      | null => rfl
      | bool _ => exact congrArg some same
      | int _ => exact congrArg some same
      | decimal _ => exact congrArg some same
      | str _ => exact congrArg some same
      | arr _ => exact congrArg some same
      | obj _ => exact congrArg some same

theorem ofFields?_fields
    (proper : checkpoint.Proper) :
    ofFields? (Table.ofList checkpoint.fields) =
      some { checkpoint with output := checkpoint.output.filter (· ≠ .null) } := by
  have version : (Json.int checkpoint.version).asBelow? versionBound =
      some checkpoint.version := by
    simp [Json.asBelow?, proper.version]
  unfold ofFields?
  simp only [Table.get?_ofList]
  simp [fields, Table.get?, version, Json.asString?, Uuid.parse?_text proper.id,
    Timestamp.parse?_text proper.createdAt, asStrings?_ofStrings, proper.context,
    historyOfJson?_records proper.history, statusOfJson?_text, outputOfJson_getD proper.output]

theorem fits_ofStrings
    (depth : Nat) (texts : List String) :
    (Json.ofStrings texts).fits (depth + 1) = true := by
  have items : Json.fitsItems depth (texts.map .str) = true := by
    induction texts with
    | nil => rw [List.map_nil, Json.fitsItems]
    | cons text texts ih =>
        rw [List.map_cons, Json.fitsItems, ih, Json.fits]
        rfl
  rw [Json.ofStrings, Json.fits, items]

theorem fits_records
    (depth : Nat) (history : Table String (List String)) :
    (Json.obj (history.map fun (history, states) => (history, Json.ofStrings states))).fits
      (depth + 2) = true := by
  have fields : Json.fitsFields (depth + 1)
      (history.map fun (history, states) => (history, Json.ofStrings states)) = true := by
    induction history with
    | nil => rw [List.map_nil, Json.fitsFields]
    | cons record history ih =>
        rw [List.map_cons, Json.fitsFields, ih, fits_ofStrings]
        rfl
  rw [Json.fits, fields]

/-- Can the context and the output be read again inside a record?  There they may be nested
less deep by one than on their own. -/
def fits (checkpoint : Checkpoint) : Bool :=
  checkpoint.context.fits (Json.maxDepth - 1) &&
    (checkpoint.output.getD .null).fits (Json.maxDepth - 1)

theorem fitsFields_fields
    (proper : checkpoint.Proper) :
    Json.fitsFields (Json.maxDepth - 1) checkpoint.fields = checkpoint.fits := by
  have version : (Json.int checkpoint.version).fits (Json.maxDepth - 1) = true := by
    have small := proper.version
    simp only [versionBound, UInt32.size] at small
    simp only [Json.fits, Bool.and_eq_true, decide_eq_true_eq]
    omega
  have strings := fits_ofStrings 125 checkpoint.configuration
  have records := fits_records 124 checkpoint.history
  simp only [fields, Json.fitsFields, fits, Json.maxDepth] at version ⊢
  rw [version, strings, records]
  simp [Json.fits]

/-- What is read where a checkpoint was written. -/
theorem parse?_render
    (proper : checkpoint.Proper) :
    parse? checkpoint.render =
      if checkpoint.fits then
        some { checkpoint with output := checkpoint.output.filter (· ≠ .null) }
      else none := by
  have names : checkpoint.fields.map Prod.fst = fieldNames := rfl
  have named : ∀ field ∈ checkpoint.fields, field.1 ∈ fieldNames := fun _ member =>
    names ▸ List.mem_map_of_mem member
  have distinct : (checkpoint.fields.map Prod.fst).Nodup := by
    rw [names]
    decide
  rw [parse?, render, Json.record?_render _ named distinct, fitsFields_fields proper]
  split
  · rw [Option.bind_some, ofFields?_fields proper]
  · rfl

/-- A checkpoint that is written and read again is the same exactly if its context and its
output fit and the output is not `null`: that is written as no output is, and read as none.
Nothing else is lost, and what does not fit is refused. -/
theorem lossless_iff
    (proper : checkpoint.Proper) :
    (parse? checkpoint.render = some checkpoint ↔
      checkpoint.fits = true ∧ checkpoint.output ≠ some .null) ∧
    (checkpoint.fits = true → checkpoint.output = some .null →
      parse? checkpoint.render = some { checkpoint with output := none }) ∧
    (checkpoint.fits = false → parse? checkpoint.render = none) := by
  rw [parse?_render proper]
  refine ⟨?_, ?_, ?_⟩
  · cases fit : checkpoint.fits with
    | false => simp
    | true =>
        simp only [if_true, Option.some.injEq, true_and]
        constructor
        · intro same isNull
          have lost := congrArg Checkpoint.output same
          simp [isNull] at lost
        · intro notNull
          have kept : checkpoint.output.filter (· ≠ .null) = checkpoint.output := by
            cases output : checkpoint.output with
            | none => rfl
            | some held =>
                have differs : held ≠ .null := fun isNull =>
                  notNull (output.trans (isNull ▸ rfl))
                simp [Option.filter, differs]
          rw [kept]
  · intro fit isNull
    rw [if_pos fit, isNull]
    rfl
  · intro tooDeep
    rw [tooDeep]
    rfl

end Checkpoint

namespace MachineSpec

variable {L : Type}

/-- A machine that is done after its one event, with the given output. -/
def concluding (output : Json) : MachineSpec ActorLogic :=
  { root := .mk { key := "m" }
      [.mk { key := "open", transitions := [(.on "CLOSE", .toTarget "closed")] } [],
       .mk { key := "closed", kind := .final, output := some fun _ _ => output } []]
    context := some fun _ => .null }

/-- What an interpreter of the machine shows when it is done. -/
def conclusion (output : Json) : Snapshot :=
  ((World.around ⟨false, true, 1000⟩
    (Interpreter.create ((concluding output).machine fun _ => .null) {})).run
    [.start, .send (Event.named "CLOSE")]).interpreter.snapshot

/-- An output that is an object is written down and read again. -/
theorem lossless_conclusion :
    let output : Json := .obj [("ok", .bool true)]
    let chart := ((concluding output).machine fun _ => (.null : Json)).chart
    let checkpoint := Checkpoint.capture chart (conclusion output) ⟨1⟩ ⟨0, 0⟩
    checkpoint.status = .done ∧ checkpoint.output = some output ∧
      Checkpoint.parse? checkpoint.render = some checkpoint := by
  intro output chart checkpoint
  have proper : checkpoint.Proper := Checkpoint.proper_capture (by decide)
    ⟨by decide +kernel, .inl (by decide)⟩ (by decide +kernel) (by decide +kernel)
  exact ⟨by decide +kernel, by decide +kernel,
    (Checkpoint.lossless_iff proper).1.mpr ⟨by decide +kernel, by decide +kernel⟩⟩

/-- The output that is `null` is lost. -/
theorem not_lossless_conclusion :
    let machine := (concluding .null).machine fun _ => .null
    let checkpoint := Checkpoint.capture machine.chart (conclusion .null) ⟨1⟩ ⟨0, 0⟩
    (concluding .null).build = .ok machine ∧
      checkpoint.status = .done ∧ checkpoint.output = some .null ∧
      (Checkpoint.parse? checkpoint.render).map Checkpoint.output = some none := by
  intro machine checkpoint
  have proper : checkpoint.Proper := Checkpoint.proper_capture (by decide)
    ⟨by decide +kernel, .inl (by decide)⟩ (by decide +kernel) (by decide +kernel)
  have fits : checkpoint.fits = true := by decide +kernel
  have output : checkpoint.output = some .null := by decide +kernel
  refine ⟨build_of_faultless (by decide +kernel) rfl, by decide +kernel, output, ?_⟩
  rw [Checkpoint.parse?_render proper, if_pos fits, output]
  rfl

end MachineSpec

end Statechart
