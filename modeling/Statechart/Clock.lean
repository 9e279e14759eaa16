import Statechart.Duration

/-!
# Simulated time

A clock moves only when told to.  Its timers fire in the order of their deadlines, and
among equal deadlines in the order in which they were set; while one fires, the time is
its deadline.  A timer that fires reports what it carries and may set further timers.

Moving the clock ends because a firing timer is gone and sets only timers that it carried.
-/

namespace Statechart

/-- What a timer does when it fires: it reports a payload and sets further timers. -/
inductive Alarm (α : Type) where
  | mk (payload : α) (further : List (Duration × Alarm α))

namespace Alarm

variable {α : Type}

def report (payload : α) : Alarm α := .mk payload []

instance [Inhabited α] : Inhabited (Alarm α) := ⟨report default⟩

/-- What is reported. -/
def payload : Alarm α → α
  | .mk payload _ => payload

def further : Alarm α → List (Duration × Alarm α)
  | .mk _ further => further

mutual

/-- How many alarms there are, counting those that are set by others. -/
def count : Alarm α → Nat
  | .mk _ further => 1 + countAll further

def countAll : List (Duration × Alarm α) → Nat
  | [] => 0
  | next :: rest => next.2.count + countAll rest

end

end Alarm

/-- A timer that waits. -/
structure PendingTimer (α : Type) where
  /-- When it fires, counted from the start of the clock. -/
  deadline : Duration
  /-- How many timers were set before it. -/
  serial : Nat
  alarm : Alarm α

/-- Simulated time: the timers in the order in which they will fire. -/
structure Clock (α : Type) where
  now : Duration := ⟨0⟩
  nextSerial : Nat := 0
  pending : List (PendingTimer α) := []

namespace Clock

variable {α : Type}

/-- Put a timer before the first one that fires later. -/
def line (timer : PendingTimer α) : List (PendingTimer α) → List (PendingTimer α)
  | [] => [timer]
  | first :: rest =>
      if timer.deadline.nanos < first.deadline.nanos then timer :: first :: rest
      else first :: line timer rest

/-- Set a timer; it is known by its serial number. -/
def schedule (clock : Clock α) (delay : Duration) (alarm : Alarm α) : Clock α :=
  { clock with
    nextSerial := clock.nextSerial + 1
    pending := line
      { deadline := ⟨clock.now.nanos + delay.nanos⟩, serial := clock.nextSerial, alarm }
      clock.pending }

/-- Call a timer off; one that has fired is gone already. -/
def cancel (clock : Clock α) (serial : Nat) : Clock α :=
  { clock with pending := clock.pending.filter fun timer => timer.serial ≠ serial }

def cancelWhere (clock : Clock α) (unwanted : α → Bool) : Clock α :=
  { clock with
    pending := clock.pending.filter fun timer => !unwanted timer.alarm.payload }

/-- Set several timers, one after another. -/
def scheduleAll (clock : Clock α) (alarms : List (Duration × Alarm α)) : Clock α :=
  alarms.foldl (fun clock (delay, alarm) => clock.schedule delay alarm) clock

/-- Fire the first timer if it is due by `target`: when it fired, what it reported, and
the clock afterwards. -/
def fireNext? (clock : Clock α) (target : Duration) :
    Option ((Duration × α) × Clock α) :=
  match clock.pending with
  | [] => none
  | timer :: rest =>
      if timer.deadline.nanos ≤ target.nanos then
        let rung := { clock with now := timer.deadline, pending := rest }
        some ((timer.deadline, timer.alarm.payload), rung.scheduleAll timer.alarm.further)
      else none

/-- How many alarms are set or carried by those that are. -/
def load (clock : Clock α) : Nat :=
  clock.pending.foldl (fun load timer => load + timer.alarm.count) 0

/-- Fire what is due by `target`, at most `fuel` timers, in order. -/
def fireUntil : Nat → Clock α → Duration → List (Duration × α) × Clock α
  | 0, clock, _ => ([], clock)
  | fuel + 1, clock, target =>
      match clock.fireNext? target with
      | none => ([], clock)
      | some (fired, clock) =>
          let (others, clock) := fireUntil fuel clock target
          (fired :: others, clock)

/-- Move time forward: what fired, when, and the clock afterwards. -/
def advance (clock : Clock α) (span : Duration) : List (Duration × α) × Clock α :=
  let target : Duration := ⟨clock.now.nanos + span.nanos⟩
  let (fired, clock) := fireUntil clock.load clock target
  (fired, { clock with now := target })

end Clock

end Statechart
