import Statechart.Interpreter.Lifecycle
import Statechart.Proofs.Outcomes

/-!
# What an interpreter makes known

Showing the snapshot, reporting conflicts and telling the observers of the end come to a few
moves: something is made known, an observer does something about it, and the board lets go
of those that have turned away.  What holds of each move holds of all that is told.
-/

namespace Statechart

/-- It is this snapshot that is shown. -/
def Activity.Presents (snapshot : Snapshot) (activity : Activity) : Prop :=
  ∃ listener, activity = .published listener snapshot

/-- Does it report a conflict, or an event that no transition took up? -/
def Activity.isReport : Activity → Bool
  | .conflict _ | .unhandled _ _ => true
  | _ => false

namespace Interpreter

/-- The interpreter after what a step gave cause for has been reported; a step that failed
counts as one that took up its event. -/
def reported (event : Event) (handled : Bool) (bench : Workbench) (interpreter : Interpreter) :
    Interpreter :=
  let diagnosed := (interpreter.keepSupervisor bench).diagnoseConflicts bench.conflicts
  if handled then diagnosed else diagnosed.diagnoseUnhandled event

/-- The interpreter that has taken over the state of a step. -/
def steppedTo (event : Event) (handled : Bool) (bench : Workbench) (interpreter : Interpreter) :
    Interpreter :=
  ({ interpreter.reported event handled bench with state := bench.state } :
    Interpreter).withLastEvent event

theorem settle_eq
    (facilities : Facilities) (nursery : Nursery) (event : Event) (handled : Bool)
    (bench : Workbench) (interpreter : Interpreter) :
    interpreter.settle facilities nursery event handled bench =
      if bench.state.done then
        ((interpreter.steppedTo event handled bench).conclude facilities nursery event .done).2
      else (interpreter.steppedTo event handled bench).refresh.publish :=
  rfl

theorem abandon_eq
    (nursery : Nursery) (event : Event) (failure : Failure) (bench : Workbench)
    (interpreter : Interpreter) :
    interpreter.abandon nursery event failure bench =
      ((interpreter.reported event true bench).withLastEvent event).fail nursery failure :=
  rfl

/-- One move of telling; only what is of one kind is made known. -/
inductive Tells (kind : Activity → Prop) : Interpreter → Interpreter → Prop where
  | reveal (interpreter : Interpreter) {activity : Activity} :
      kind activity → Tells kind interpreter (interpreter.reveal activity)
  | react (interpreter : Interpreter) (ticket : Nat) (reaction : Reaction) :
      Tells kind interpreter (react ticket interpreter reaction)
  | prune (interpreter : Interpreter) :
      Tells kind interpreter { interpreter with board := interpreter.board.prune }

/-- Telling, move by move. -/
abbrev Tellings (kind : Activity → Prop) : Interpreter → Interpreter → Prop :=
  Relation.ReflTransGen (Tells kind)

section Telling

variable {kind : Activity → Prop} {before after : Interpreter}

theorem Tells.snapshot
    (tells : Tells kind before after) :
    after.snapshot = before.snapshot := by
  cases tells with
  | reveal isOfKind => rfl
  | react ticket reaction => cases reaction <;> rfl
  | prune => rfl

theorem Tellings.snapshot
    (tellings : Tellings kind before after) :
    after.snapshot = before.snapshot := by
  induction tellings with
  | refl => rfl
  | tail _ last ih => exact last.snapshot.trans ih

theorem Tells.widen
    {wider : Activity → Prop}
    (tells : Tells kind before after)
    (widens : ∀ activity, kind activity → wider activity) :
    Tells wider before after := by
  cases tells with
  | reveal isOfKind => exact .reveal before (widens _ isOfKind)
  | react ticket reaction => exact .react before ticket reaction
  | prune => exact .prune before

theorem Tellings.widen
    {wider : Activity → Prop}
    (tellings : Tellings kind before after)
    (widens : ∀ activity, kind activity → wider activity) :
    Tellings wider before after :=
  Relation.ReflTransGen.mono (fun _ _ tells => tells.widen widens) _ _ tellings

variable (interpreter : Interpreter)

theorem tellings_foldl
    {item : Type} {step : Interpreter → item → Interpreter}
    (tellings : ∀ (interpreter : Interpreter) (next : item),
      Tellings kind interpreter (step interpreter next))
    (items : List item) :
    Tellings kind interpreter (items.foldl step interpreter) :=
  List.foldlRecOn (motive := Tellings kind interpreter) items step .refl
    fun middle earlier next _ => earlier.trans (tellings middle next)

theorem tellings_present
    (observer : Observer) :
    Tellings (Activity.Presents interpreter.snapshot) interpreter
      (interpreter.present observer) := by
  unfold present
  split
  · refine .head (.reveal interpreter ⟨observer.listener, rfl⟩) ?_
    exact tellings_foldl _ (fun interpreter reaction =>
      .single (.react interpreter observer.ticket reaction)) _
  · exact .refl

theorem tellings_publish :
    Tellings (Activity.Presents interpreter.snapshot) interpreter interpreter.publish := by
  have presented : ∀ observers : List Observer,
      Tellings (Activity.Presents interpreter.snapshot) interpreter
        (observers.foldl present interpreter) := by
    intro observers
    refine List.foldlRecOn (motive := Tellings _ interpreter) observers present .refl ?_
    intro middle earlier observer _
    have shown := tellings_present middle observer
    rw [earlier.snapshot] at shown
    exact earlier.trans shown
  exact (presented interpreter.board.observers).tail (.prune _)

theorem tellings_tellEnd
    (tell : Listener → Activity) :
    Tellings (fun activity => ∃ listener, activity = tell listener) interpreter
      (interpreter.tellEnd tell) := by
  refine tellings_foldl interpreter (fun interpreter observer => ?_) interpreter.board.observers
  split
  · exact .single (.reveal interpreter ⟨observer.listener, rfl⟩)
  · exact .refl

theorem tellings_diagnose
    (activity : Activity) :
    Tellings (fun told => told = activity) interpreter (interpreter.diagnose activity) := by
  unfold diagnose
  split
  · exact .single (.reveal interpreter rfl)
  · exact .refl

/-- Only conflicts and what was not taken up are reported. -/
theorem tellings_reported
    (event : Event) (handled : Bool) (bench : Workbench) :
    Tellings (fun activity => activity.isReport = true) (interpreter.keepSupervisor bench)
      (interpreter.reported event handled bench) := by
  have diagnosed : Tellings (fun activity => activity.isReport = true)
      (interpreter.keepSupervisor bench)
      ((interpreter.keepSupervisor bench).diagnoseConflicts bench.conflicts) :=
    tellings_foldl _ (fun interpreter conflict =>
      (tellings_diagnose interpreter (.conflict conflict)).widen fun _ same => same ▸ rfl)
      bench.conflicts
  unfold reported
  dsimp only
  split
  · exact diagnosed
  · exact diagnosed.trans ((tellings_diagnose _ _).widen fun _ same => same ▸ rfl)

end Telling

end Interpreter

end Statechart
