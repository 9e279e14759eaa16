import Statechart.Simulation.Tasks

/-!
# Clocks and tasks

What is still set on a clock, and what is still to be done by the tasks, after one of them
has moved.  A clock is plain if its alarms set no further ones; moving a plain clock only
takes timers away.
-/

namespace Statechart

namespace Clock

variable {α : Type} {clock after : Clock α}

/-- No alarm that is set will set another. -/
def Plain (clock : Clock α) : Prop :=
  ∀ timer ∈ clock.pending, timer.alarm.further = []

theorem mem_line
    {new timer : PendingTimer α} {timers : List (PendingTimer α)} :
    timer ∈ line new timers ↔ timer = new ∨ timer ∈ timers := by
  induction timers with
  | nil => simp [line]
  | cons first rest ih =>
      unfold line
      split
      · simp
      · simp only [List.mem_cons, ih]
        exact or_left_comm

theorem mem_schedule
    {delay : Duration} {alarm : Alarm α} {timer : PendingTimer α} :
    timer ∈ (clock.schedule delay alarm).pending ↔
      timer = ⟨⟨clock.now.nanos + delay.nanos⟩, clock.nextSerial, alarm⟩ ∨
        timer ∈ clock.pending :=
  mem_line

theorem Plain.schedule
    {alarm : Alarm α}
    (plain : clock.Plain)
    (single : alarm.further = []) (delay : Duration) :
    (clock.schedule delay alarm).Plain := by
  intro timer member
  rcases mem_schedule.mp member with rfl | earlier
  · exact single
  · exact plain timer earlier

theorem Plain.cancelWhere
    (plain : clock.Plain) (unwanted : α → Bool) :
    (clock.cancelWhere unwanted).Plain :=
  fun timer member => plain timer (List.mem_filter.mp member).1

/-- When a timer of a plain clock fires, it is gone, and nothing else has happened to the
timers. -/
theorem Plain.fireNext?
    {target : Duration} {fired : Duration × α}
    (plain : clock.Plain)
    (fires : clock.fireNext? target = some (fired, after)) :
    ∃ timer, clock.pending = timer :: after.pending ∧ timer.alarm.payload = fired.2 := by
  unfold Clock.fireNext? at fires
  split at fires
  · cases fires
  · rename_i timer rest isPending
    split at fires
    · obtain ⟨rfl, rfl⟩ := Prod.mk.inj (Option.some.inj fires)
      have single := plain timer (by rw [isPending]; exact List.mem_cons_self)
      rw [single]
      exact ⟨timer, isPending, rfl⟩
    · cases fires

theorem Plain.fireUntil
    (plain : clock.Plain) (fuel : Nat) (target : Duration) :
    (Clock.fireUntil fuel clock target).2.pending <:+ clock.pending := by
  induction fuel generalizing clock with
  | zero => exact List.suffix_rfl
  | succ fuel ih =>
      unfold Clock.fireUntil
      split
      · exact List.suffix_rfl
      · rename_i fired next fires
        obtain ⟨timer, isPending, _⟩ := plain.fireNext? fires
        have stillPlain : next.Plain := fun other member =>
          plain other (by rw [isPending]; exact List.mem_cons_of_mem _ member)
        rw [isPending]
        exact (ih stillPlain).trans (List.suffix_cons timer _)

theorem Plain.advance
    (plain : clock.Plain) (span : Duration) :
    (clock.advance span).2.pending <:+ clock.pending :=
  plain.fireUntil clock.load _

theorem Plain.advanced
    (plain : clock.Plain) (span : Duration) :
    (clock.advance span).2.Plain :=
  fun timer member => plain timer ((plain.advance span).subset member)

theorem Plain.fired
    (plain : clock.Plain) (fuel : Nat) (target : Duration)
    {entry : Duration × α}
    (reported : entry ∈ (Clock.fireUntil fuel clock target).1) :
    ∃ timer ∈ clock.pending, timer.alarm.payload = entry.2 := by
  induction fuel generalizing clock with
  | zero => cases reported
  | succ fuel ih =>
      unfold Clock.fireUntil at reported
      split at reported
      · cases reported
      · rename_i fired next fires
        obtain ⟨timer, isPending, payload⟩ := plain.fireNext? fires
        have stillPlain : next.Plain := fun other member =>
          plain other (by rw [isPending]; exact List.mem_cons_of_mem _ member)
        rw [isPending]
        rcases List.mem_cons.mp reported with rfl | later
        · exact ⟨timer, List.mem_cons_self, payload⟩
        · obtain ⟨other, member, same⟩ := ih stillPlain later
          exact ⟨other, List.mem_cons_of_mem _ member, same⟩

end Clock

namespace Tasks

variable {tasks : Tasks} {path : List Origin} {holder : Origin}

/-- An actor of the interpreter at a path holds a task that is ready or pauses. -/
def HasHeld (tasks : Tasks) (path : List Origin) (holder : Origin) : Prop :=
  (∃ turn ∈ tasks.ready, turn.isHeldBy path holder = true) ∨
    ∃ timer ∈ tasks.pauses.pending, timer.alarm.payload.isHeldBy path holder = true

theorem hasHeld_enqueue
    {turn : Turn} :
    (tasks.enqueue turn).HasHeld path holder ↔
      turn.isHeldBy path holder = true ∨ tasks.HasHeld path holder := by
  unfold HasHeld enqueue
  constructor
  · intro held
    rcases held with ⟨other, member, isHeld⟩ | pauses
    · rcases List.mem_append.mp member with earlier | last
      · exact .inr (.inl ⟨other, earlier, isHeld⟩)
      · obtain rfl := List.mem_singleton.mp last
        exact .inl isHeld
    · exact .inr (.inr pauses)
  · intro held
    rcases held with isHeld | ⟨other, member, isHeld⟩ | pauses
    · exact .inl ⟨turn, List.mem_append_right _ (List.mem_singleton.mpr rfl), isHeld⟩
    · exact .inl ⟨other, List.mem_append_left _ member, isHeld⟩
    · exact .inr pauses

theorem hasHeld_revoke
    {other : List Origin} {revoked : Origin}
    (held : (tasks.revoke other revoked).HasHeld path holder) :
    tasks.HasHeld path holder ∧ ¬ (path = other ∧ holder = revoked) := by
  rcases held with ⟨turn, member, isHeld⟩ | ⟨timer, member, isHeld⟩
  · obtain ⟨earlier, spared⟩ := List.mem_filter.mp member
    refine ⟨.inl ⟨turn, earlier, isHeld⟩, ?_⟩
    rintro ⟨rfl, rfl⟩
    simp [isHeld] at spared
  · obtain ⟨earlier, spared⟩ := List.mem_filter.mp member
    refine ⟨.inr ⟨timer, earlier, isHeld⟩, ?_⟩
    rintro ⟨rfl, rfl⟩
    simp [isHeld] at spared

theorem proceed_cases
    {task : Task} {steps : List (Option Duration × Envelope)} {resumed : Bool} :
    (tasks.proceed task steps resumed).2 = tasks ∨
      ∃ span rest, (tasks.proceed task steps resumed).2 =
        { tasks with
          pauses := tasks.pauses.schedule span (.report { task with steps := rest }) } := by
  induction steps generalizing resumed with
  | nil => exact .inl rfl
  | cons step steps ih =>
      obtain ⟨pause, envelope⟩ := step
      cases pause with
      | none => exact ih
      | some pause =>
          unfold proceed
          dsimp only
          split
          · exact ih
          · exact .inr ⟨_, _, rfl⟩

theorem hasHeld_proceed
    {task : Task} {steps : List (Option Duration × Envelope)} {resumed : Bool}
    (held : (tasks.proceed task steps resumed).2.HasHeld path holder) :
    task.isHeldBy path holder = true ∨ tasks.HasHeld path holder := by
  rcases tasks.proceed_cases with same | ⟨span, rest, paused⟩
  · rw [same] at held
    exact .inr held
  · rw [paused] at held
    rcases held with ready | ⟨timer, member, isHeld⟩
    · exact .inr (.inl ready)
    · rcases Clock.mem_schedule.mp member with rfl | earlier
      · exact .inl isHeld
      · exact .inr (.inr ⟨timer, earlier, isHeld⟩)

theorem plain_proceed
    (plain : tasks.pauses.Plain)
    (task : Task) (steps : List (Option Duration × Envelope)) (resumed : Bool) :
    (tasks.proceed task steps resumed).2.pauses.Plain := by
  rcases tasks.proceed_cases with same | ⟨span, rest, paused⟩
  · rw [same]
    exact plain
  · rw [paused]
    exact plain.schedule rfl span

theorem hasHeld_passTo
    {target : Duration}
    (plain : tasks.pauses.Plain)
    (held : (tasks.passTo target).HasHeld path holder) :
    tasks.HasHeld path holder := by
  rcases held with ⟨turn, member, isHeld⟩ | ⟨timer, member, isHeld⟩
  · rcases List.mem_append.mp member with earlier | woken
    · exact .inl ⟨turn, earlier, isHeld⟩
    · obtain ⟨entry, reported, rfl⟩ := List.mem_map.mp woken
      obtain ⟨timer, wasPending, payload⟩ := plain.fired _ _ reported
      exact .inr ⟨timer, wasPending, payload ▸ isHeld⟩
  · exact .inr ⟨timer, (plain.advance _).subset member, isHeld⟩

end Tasks

end Statechart
