import Statechart.Simulation.Posting

/-!
# Tasks

Tasks run one at a time, in the order in which they became ready, each as far as it can.
A task makes postings one after another and may pause before each; pauses end at whole
milliseconds, in the order of their ends.  The interpreter itself may be one of the tasks.
-/

namespace Statechart

/-- What a task has yet to do. -/
structure Task where
  path : List Origin
  holder : Option Origin
  steps : List (Option Duration × Envelope)

namespace Task

/-- Does an actor of the interpreter at a path hold the task? -/
def isHeldBy (task : Task) (path : List Origin) (holder : Origin) : Bool :=
  task.path = path && task.holder = some holder

/-- The posting of an envelope by the task. -/
def posting (task : Task) (envelope : Envelope) : Posting :=
  { path := task.path, holder := task.holder, envelope }

end Task

/-- What can have its turn. -/
inductive Turn where
  /-- A task; it is resumed if its pause is over. -/
  | task (task : Task) (resumed : Bool)
  | interpreter

namespace Turn

/-- Does an actor of the interpreter at a path hold what has its turn? -/
def isHeldBy (path : List Origin) (holder : Origin) : Turn → Bool
  | .task pausing _ => pausing.isHeldBy path holder
  | .interpreter => false

end Turn

namespace Duration

/-- The end of the millisecond that has begun. -/
def roundedUp (span : Duration) : Duration :=
  ofMillis ((span.nanos + 999999) / 1000000)

end Duration

/-- What is ready to run and what pauses. -/
structure Tasks where
  ready : List Turn := []
  pauses : Clock Task := {}

namespace Tasks

def now (tasks : Tasks) : Duration := tasks.pauses.now

/-- Let something have its turn after all that is ready. -/
def enqueue (tasks : Tasks) (turn : Turn) : Tasks :=
  { tasks with ready := tasks.ready ++ [turn] }

/-- Drop what an actor of the interpreter at a path holds. -/
def revoke (tasks : Tasks) (path : List Origin) (holder : Origin) : Tasks :=
  { ready := tasks.ready.filter fun turn => !turn.isHeldBy path holder
    pauses := tasks.pauses.cancelWhere fun task => task.isHeldBy path holder }

def pauseEnd (tasks : Tasks) (pause : Duration) : Duration :=
  Duration.roundedUp ⟨tasks.now.nanos + pause.nanos⟩

/-- Let a task run: what it posts, and the tasks with its next pause, if there is one. -/
def proceed (tasks : Tasks) (task : Task) :
    List (Option Duration × Envelope) → Bool → List Posting × Tasks
  | [], _ => ([], tasks)
  | (none, envelope) :: steps, _ =>
      let (postings, tasks) := proceed tasks task steps false
      (task.posting envelope :: postings, tasks)
  | (some pause, envelope) :: steps, resumed =>
      let deadline := tasks.pauseEnd pause
      if resumed || deadline.nanos ≤ tasks.now.nanos then
        let (postings, tasks) := proceed tasks task steps false
        (task.posting envelope :: postings, tasks)
      else
        let pausing := { task with steps := (some pause, envelope) :: steps }
        let span : Duration := ⟨deadline.nanos - tasks.now.nanos⟩
        ([], { tasks with pauses := tasks.pauses.schedule span (.report pausing) })

def nextEnd? (tasks : Tasks) : Option Duration :=
  tasks.pauses.pending.head?.map PendingTimer.deadline

/-- Let time pass until `target`; the tasks whose pauses are over become ready. -/
def passTo (tasks : Tasks) (target : Duration) : Tasks :=
  let (woken, pauses) := tasks.pauses.advance ⟨target.nanos - tasks.now.nanos⟩
  { ready := tasks.ready ++ woken.map fun entry => .task entry.2 true
    pauses }

end Tasks

end Statechart
