import Statechart.Proofs.IdleSelections
import Statechart.Proofs.RemovedActors
import Statechart.Proofs.StateInvariants
import Statechart.Proofs.StepEndings

/-!
# Unheard events

An event that no transition takes up is reported, and one would expect that nothing else is
done.  But the step for it goes on like any other: the transitions without event are tried
once more, and their guards see the new event.  So nothing is done exactly if none of them is
open for it.  An interpreter that was not restored has come to rest before, so this is always
the case where these guards do not look at the event.
-/

namespace Statechart

namespace Engine

section Ignoring

variable {engine : Engine} {trigger : Trigger} {event : Event} {bench after : Workbench}
variable {first last : Moment} {count : Nat} {handled : Bool}

theorem select_run_of_idle
    (idle : engine.machine.Idle trigger bench.state.active bench.state.context event) :
    (engine.select trigger event).run bench = .ok [] bench := by
  rw [select_run, Machine.select_of_idle bench.state.history idle]
  simp

theorem idle_of_select_run
    (selected : (engine.select trigger event).run bench = .ok [] after) :
    engine.machine.Idle trigger bench.state.active bench.state.context event := by
  obtain ⟨selection, selects, nothing⟩ := selection_of_select selected
  exact Machine.idle_of_select selects nothing

/-- If no transition takes up the event and none without event is open, a step that begins at
rest changes nothing at all. -/
theorem macrostep_of_idle
    (rested : bench.state.raised = [])
    (undone : bench.state.done = false)
    (unheard : engine.machine.Idle .event bench.state.active bench.state.context event)
    (idle : engine.machine.Idle .eventless bench.state.active bench.state.context event) :
    (engine.macrostep event).run bench = .ok false bench := by
  unfold macrostep
  rw [run_bind_of_ok (select_run_of_idle unheard)]
  have rests : engine.Rests ⟨event, bench⟩ bench :=
    .idle undone (select_run_of_idle idle) rested
  exact run_bind_of_ok (stabilize_of_rests rests) _

theorem Rounds.eq_of_rested
    (rounds : engine.Rounds first count last)
    (rested : first.bench.state.raised = [])
    (none : count = 0) :
    last = first := by
  induction rounds with
  | none => rfl
  | @further count cost middle last _ round ih =>
      obtain rfl : middle = first := ih (by omega)
      cases round with
      | microstep => omega
      | drop finds =>
          cases finds with
          | eventless _ _ nonempty => exact absurd rfl nonempty
          | raised _ calm waiting _ =>
              rw [select_kept calm, rested] at waiting
              cases waiting

/-- If no transition takes up the event but some transition without event is open, or its
guard fails, a step that goes well takes microsteps, and still does not count as taking up
the event. -/
theorem macrostep_of_stirred
    (rested : bench.state.raised = [])
    (undone : bench.state.done = false)
    (unheard : engine.machine.Idle .event bench.state.active bench.state.context event)
    (stirred : ¬ engine.machine.Idle .eventless bench.state.active bench.state.context event)
    (ran : (engine.macrostep event).run bench = .ok handled after) :
    handled = false ∧ ∃ count last, 0 < count ∧ count ≤ engine.limit ∧
      engine.Takes .event event bench count last ∧ engine.Rests last after := by
  have ends := engine.step_ends .event event bench
  rw [ends_iff_run] at ends
  obtain ⟨count, last, within, takes, rests⟩ := ends.1 handled after ran
  constructor
  · unfold macrostep at ran
    rw [run_bind_of_ok (select_run_of_idle unheard)] at ran
    simp only [List.isEmpty_nil, if_true] at ran
    have always : Ends (engine.stabilize event.type engine.limit event >>= fun _ => pure false)
        bench (fun handled _ => handled = false) (fun _ _ => True) := by
      rw [ends_bind]
      exact (ends_somehow _ bench).mono (fun _ _ _ => rfl) fun _ _ _ => trivial
    rw [ends_iff_run] at always
    exact always.1 handled after ran
  · refine ⟨count, last, Nat.pos_of_ne_zero ?_, within, takes, rests⟩
    rintro rfl
    generalize none : (0 : Nat) = count at takes
    cases takes with
    | @opening opened count first _ opens rounds =>
        cases opens with
        | taken _ _ _ => omega
        | @ignored _ _ ready ignored =>
            have same := select_kept ignored
            obtain rfl := rounds.eq_of_rested (by rw [same]; exact rested) (by omega)
            cases rests with
            | done done =>
                rw [same, undone] at done
                cases done
            | idle _ selected _ =>
                have idle := idle_of_select_run selected
                rw [same] at idle
                exact stirred idle

end Ignoring

end Engine

/-- Between steps no event is raised and a running interpreter is not done; one that was not
restored has come to rest, so that for some event no transition without event is open. -/
def Machine.calm (machine : Machine ActorLogic) (restored : Bool) : Standard
  | .notStarted, state => state.raised = []
  | .running, state => state.raised = [] ∧ state.done = false ∧
      (restored = false → ∃ event, machine.Idle .eventless state.active state.context event)
  | .done, _ => True
  | .stopped, _ => True
  | .error, _ => True

theorem Machine.upholds_calm (machine : Machine ActorLogic) (restored : Bool) :
    machine.Upholds (machine.calm restored) restored := by
  have calm : ∀ (engine : Engine) (occasion : Occasion) (event : Event) (bench : Workbench),
      engine.machine = machine →
      Ends (occasion.step engine event) bench
        (fun _ after => (machine.calm restored).Met after.state) (fun _ _ => True) := by
    rintro engine occasion event bench rfl
    refine (engine.step_ends occasion event bench).mono ?_ fun _ _ _ => trivial
    rintro _ after ⟨count, moment, _, _, rests⟩
    obtain ⟨state, idle⟩ := rests.calm
    have raised : after.state.raised = [] := congrArg StepState.raised state
    refine ⟨fun _ _ _ => trivial, fun undone => ⟨raised, undone, fun _ => ?_⟩⟩
    rcases idle with done | ⟨selection, selected, nothing⟩
    · rw [undone] at done
      cases done
    · exact ⟨moment.event, Machine.idle_of_select selected nothing⟩
  constructor
  · rintro status state (rfl | rfl)
    · trivial
    · trivial
  · exact fun event _ runs _ => calm _ .start event _ runs
  · exact fun event _ runs _ => calm _ .event event _ runs
  · rintro rfl state raised
    refine ⟨fun _ _ _ => trivial, fun undone => ⟨raised, undone, ?_⟩⟩
    rintro ⟨⟩

namespace Interpreter

theorem Begins.calm
    {machine : Machine ActorLogic} {start : Interpreter}
    (begins : Begins machine start) :
    start.Stands machine (machine.calm start.restored) start.restored := by
  obtain ⟨runs, unstarted, _⟩ := begins.idle
  have raised : start.state.raised = [] := by
    obtain ⟨settings, rfl | ⟨checkpoint, restored⟩⟩ := begins
    · rfl
    · unfold restore at restored
      split at restored
      · cases restored
      · obtain rfl := Except.ok.inj restored
        rfl
  refine ⟨runs, rfl, ?_, fun running => ?_⟩
  · rw [unstarted]
    exact raised
  · rw [unstarted] at running
    cases running

/-- The interpreter after an event with which nothing was done: it was reported, and the same
state has been shown once more, with this event as the last. -/
def ignoring (event : Event) (interpreter : Interpreter) : Interpreter :=
  ((interpreter.diagnoseUnhandled event).withLastEvent event).refresh.publish

/-- Everything is as it was, and shown with this event as the last. -/
structure Unchanged (event : Event) (before after : Interpreter) : Prop where
  machine : after.machine = before.machine
  state : after.state = before.state
  status : after.status = before.status
  registry : after.supervisor.registry = before.supervisor.registry
  snapshot : after.snapshot = Snapshot.ofState before.state before.status (some event)

section Ignoring

variable {facilities : Facilities} {nursery : Nursery} {interpreter : Interpreter}
variable {event : Event}

theorem ignoring_unchanged
    (event : Event) (interpreter : Interpreter) :
    interpreter.Unchanged event (interpreter.ignoring event) := by
  have diagnosed := (tellings_diagnose interpreter (.unhandled event.type
    (interpreter.machine.chart.ids interpreter.snapshot.active))).stays
  have shown := stays_publish ((interpreter.diagnoseUnhandled event).withLastEvent event).refresh
  refine ⟨shown.machine.trans diagnosed.machine, shown.state.trans diagnosed.state,
    shown.status.trans diagnosed.status, shown.registry.trans diagnosed.registry, ?_⟩
  refine shown.snapshot.trans ?_
  change Snapshot.ofState (interpreter.diagnoseUnhandled event).state
    (interpreter.diagnoseUnhandled event).status (some event) = _
  rw [show (interpreter.diagnoseUnhandled event).state = _ from diagnosed.state,
    show (interpreter.diagnoseUnhandled event).status = _ from diagnosed.status]

theorem settle_of_unchanged
    (facilities : Facilities) (nursery : Nursery) (event : Event)
    (undone : interpreter.state.done = false) :
    interpreter.settle facilities nursery event false interpreter.bench =
      interpreter.ignoring event := by
  have diagnosed := (tellings_diagnose interpreter (.unhandled event.type
    (interpreter.machine.chart.ids interpreter.snapshot.active))).stays
  have same : interpreter.steppedTo event false interpreter.bench =
      (interpreter.diagnoseUnhandled event).withLastEvent event := by
    have reported : interpreter.reported event false interpreter.bench =
        interpreter.diagnoseUnhandled event := by
      have kept : interpreter.keepSupervisor interpreter.bench = interpreter := by
        cases interpreter
        rfl
      simp only [Interpreter.reported, Bool.false_eq_true, if_false]
      rw [kept]
      rfl
    have sameState : interpreter.bench.state = (interpreter.diagnoseUnhandled event).state :=
      diagnosed.state.symm
    unfold steppedTo
    rw [reported, sameState]
    cases interpreter.diagnoseUnhandled event
    rfl
  rw [settle_eq, same]
  simp only [bench, undone, Bool.false_eq_true, if_false]
  rfl

theorem run_of_ok
    {step : Engine → Event → StepM Bool} {handled : Bool} {after : Workbench}
    (stepped : (step (interpreter.engine facilities nursery) event).run interpreter.bench =
      .ok handled after) :
    (run facilities nursery event step).run interpreter =
      .ok () (interpreter.settle facilities nursery event handled after) := by
  unfold run
  rw [run_get_bind, stepped]
  rfl

end Ignoring

end Interpreter

namespace Machine

open Interpreter

/-- Take any moment in the life of an interpreter, new or restored, at which it runs, and an
event for which no transition is open.  It is foreseen that nothing takes up the event.  If
no transition without event is open for it either, the interpreter ignores it: no action is
carried out, and states, context, records, status and actors stay as they were.  In any other
case processing the event, if it goes well, takes microsteps, although the event is reported
as not taken up.  An interpreter that was not restored ignores all such events if no guard of
a transition without event looks at the event. -/
theorem unheard_events_ignored_iff
    (machine : Machine ActorLogic) (facilities : Facilities) (nursery : Nursery)
    {start interpreter : Interpreter} {event : Event}
    (begins : Born machine start ∨ Begins machine start)
    (passes : Passes facilities nursery start interpreter)
    (running : interpreter.status = .running)
    (unheard : machine.Idle .event interpreter.state.active interpreter.state.context event) :
    let engine := interpreter.engine facilities nursery
    let idle := machine.Idle .eventless interpreter.state.active interpreter.state.context event
    interpreter.snapshot.can machine event = false ∧
      (idle → (process facilities nursery event).run interpreter =
        .ok () (interpreter.ignoring event)) ∧
      interpreter.Unchanged event (interpreter.ignoring event) ∧
      (¬ idle → ∀ after, (process facilities nursery event).run interpreter = .ok () after →
        ∃ count last bench, 0 < count ∧ count ≤ engine.limit ∧
          engine.Takes .event event interpreter.bench count last ∧ engine.Rests last bench ∧
          after = interpreter.settle facilities nursery event false bench) ∧
      (Born machine start → machine.Blind → idle) := by
  intro engine idle
  have calm : ∃ restored, interpreter.Stands machine (machine.calm restored) restored := by
    rcases begins with born | begins
    · exact ⟨false, passes.stands (machine.upholds_calm false) (born.stands fun _ => rfl)⟩
    · exact ⟨start.restored, passes.stands (machine.upholds_calm _) begins.calm⟩
  obtain ⟨restored, stands⟩ := calm
  have meets := stands.meets
  rw [running] at meets
  obtain ⟨rested, undone, _⟩ := meets
  obtain rfl := stands.runs
  refine ⟨?_, ?_, ignoring_unchanged event interpreter, ?_, ?_⟩
  · refine Snapshot.can_of_idle ?_
    rw [stands.shows running]
    exact unheard
  · intro idle
    have stepped : (Engine.macrostep (interpreter.engine facilities nursery) event).run
        interpreter.bench = .ok false interpreter.bench :=
      Engine.macrostep_of_idle rested undone unheard idle
    rw [process, run_of_ok stepped, settle_of_unchanged facilities nursery event undone]
  · intro stirred after ran
    obtain ⟨handled, bench, stepped, rfl⟩ := run_eq_ok ran
    obtain ⟨rfl, count, last, some, within, takes, rests⟩ :=
      Engine.macrostep_of_stirred rested undone unheard stirred stepped
    exact ⟨count, last, bench, some, within, takes, rests, rfl⟩
  · intro born blind
    have rested := (passes.stands (Machine.upholds_calm _ false) (born.stands fun _ => rfl)).meets
    rw [running] at rested
    obtain ⟨earlier, idle⟩ := rested.2.2 rfl
    exact idle.of_blind blind event

end Machine

namespace MachineSpec

open Interpreter

/-- It is silent until there is an `X` to talk about, which it does not listen for. -/
def parrot : MachineSpec ActorLogic :=
  { root := .mk { key := "m" }
      [.mk
        { key := "silent"
          transitions := [(.always,
            { targets := ["talking"]
              guard := some (.test none fun _ event => .ok (event.type = "X")) })] } [],
       .mk { key := "talking" } []]
    context := some fun _ => .null }

/-- Nothing is foreseen for `X`, and it is reported as not taken up; but the parrot talks. -/
theorem unheard_event_heeded_parrot :
    let machine : Machine ActorLogic := parrot.machine fun _ => .null
    let facilities : Facilities := ⟨false, true, 1000⟩
    let nursery := Nursery.ofGenerations facilities machine.generations
    let interpreter := ((World.around facilities (create machine {})).run [.start]).interpreter
    let event := Event.named "X"
    let after := leftBy (process facilities nursery event) interpreter
    parrot.build = .ok machine ∧ interpreter.status = .running ∧
      machine.Idle .event interpreter.state.active interpreter.state.context event ∧
      interpreter.snapshot.can machine event = false ∧
      (∃ answer, (process facilities nursery event).run interpreter = .ok answer after) ∧
      .activity [] (.unhandled "X" ["m", "m.silent"]) ∈ after.supervisor.outbox ∧
      .activity [] (.exited "m.silent") ∈ after.supervisor.outbox ∧
      machine.chart.ids interpreter.state.active = ["m", "m.silent"] ∧
      machine.chart.ids after.state.active = ["m", "m.talking"] := by
  intro machine facilities nursery interpreter event after
  refine ⟨build_of_faultless (by decide +kernel) rfl, by decide +kernel, by decide +kernel,
    by decide +kernel, ?_, by decide +kernel, by decide +kernel, by decide +kernel,
    by decide +kernel⟩
  exact run_of_failureOf?_none (by decide +kernel)

/-- A lamp that is on as long as a door is open. -/
def doorway : MachineSpec ActorLogic :=
  { root := .mk { key := "m", kind := .parallel }
      [.mk { key := "door" }
        [.mk { key := "closed", transitions := [(.on "OPEN", .toTarget "open")] } [],
         .mk { key := "open", transitions := [(.on "CLOSE", .toTarget "closed")] } []],
       .mk { key := "lamp" }
        [.mk
          { key := "off"
            transitions := [(.always,
              { targets := ["on"], guard := some (.inState none "#m.door.open") })] } [],
         .mk
          { key := "on"
            transitions := [(.always,
              { targets := ["off"]
                guard := some (.not none (.inState none "#m.door.open")) })] } []]]
    context := some fun _ => .null }

/-- Nobody listens for a knock at the open door, and it changes nothing. -/
theorem unheard_events_ignored_doorway :
    let machine : Machine ActorLogic := doorway.machine fun _ => .null
    let facilities : Facilities := ⟨false, true, 1000⟩
    let nursery := Nursery.ofGenerations facilities machine.generations
    let interpreter := ((World.around facilities (create machine {})).run
      [.start, .send (Event.named "OPEN")]).interpreter
    let event := Event.named "KNOCK"
    machine.chart.ids interpreter.state.active =
        ["m", "m.door", "m.door.open", "m.lamp", "m.lamp.on"] ∧
      interpreter.snapshot.can machine event = false ∧
      (process facilities nursery event).run interpreter = .ok () (interpreter.ignoring event) ∧
      interpreter.Unchanged event (interpreter.ignoring event) := by
  intro machine facilities nursery interpreter event
  have begins : Born machine (create machine {}) := .alone {}
  have passes : Passes facilities nursery (create machine {}) interpreter :=
    World.run_course facilities (.of_create machine {}) [] [.start, .send (Event.named "OPEN")] rfl
  obtain ⟨foreseen, ignores, unchanged, _, blindly⟩ :=
    Machine.unheard_events_ignored_iff machine facilities nursery (.inl begins) passes
      (by decide +kernel) (show machine.Idle .event _ _ event by decide +kernel)
  have blind : machine.Blind := Machine.blind_of_asksStates (by decide +kernel)
  exact ⟨by decide +kernel, foreseen, ignores (blindly begins blind), unchanged⟩

end MachineSpec

end Statechart
