import Mathlib.Data.List.Induction
import Statechart.Proofs.Clocks

/-!
# Keeping time

A new clock is asked to set timers that set no others, to call timers off and to move, in any
order.  What waits on it then is told from what it was asked for alone: a timer waits as long as
it has not been called off and no move has reached its deadline.  So a move fires just the
waiting timers whose deadlines it reaches, in their order, each timer fires once at most, and
two moves do what one move does.
-/

namespace Statechart

variable {α : Type}

/-- What can be asked of a clock.  The timers that are set set no others. -/
inductive ClockCall (α : Type) where
  | schedule (delay : Duration) (payload : α)
  /-- Call off the timer with this serial number. -/
  | cancel (serial : Nat)
  | advance (span : Duration)

namespace ClockCall

/-- How far these calls move a clock, in nanoseconds. -/
def elapsed : List (ClockCall α) → Nat
  | [] => 0
  | .advance span :: calls => span.nanos + elapsed calls
  | .schedule _ _ :: calls => elapsed calls
  | .cancel _ :: calls => elapsed calls

/-- How many timers these calls set. -/
def settings : List (ClockCall α) → Nat
  | [] => 0
  | .schedule _ _ :: calls => settings calls + 1
  | .cancel _ :: calls => settings calls
  | .advance _ :: calls => settings calls

/-- The timer that is set after these calls. -/
def timerSet (before : List (ClockCall α)) (delay : Duration) (payload : α) : PendingTimer α where
  deadline := ⟨elapsed before + delay.nanos⟩
  serial := settings before
  alarm := .report payload

/-- After these calls, the timer has been set, and since then it has neither been called off nor
been reached by a move. -/
def Waits (calls : List (ClockCall α)) (timer : PendingTimer α) : Prop :=
  ∃ before delay payload since, calls = before ++ .schedule delay payload :: since ∧
    timer = timerSet before delay payload ∧ .cancel timer.serial ∉ since ∧
      ∀ early span late, since = early ++ .advance span :: late →
        elapsed before + elapsed early + span.nanos < timer.deadline.nanos

/-- Moving the clock by a span after these calls reaches the deadline of the timer, which has
waited for it. -/
def Rings (calls : List (ClockCall α)) (span : Duration) (timer : PendingTimer α) : Prop :=
  Waits calls timer ∧ timer.deadline.nanos ≤ elapsed calls + span.nanos

section Counting

variable {calls before since : List (ClockCall α)} {call : ClockCall α}
variable {delay : Duration} {payload : α} {timer : PendingTimer α}

theorem elapsed_append
    (calls more : List (ClockCall α)) :
    elapsed (calls ++ more) = elapsed calls + elapsed more := by
  induction calls with
  | nil => simp [elapsed]
  | cons call calls ih => cases call <;> simp [elapsed, ih, Nat.add_assoc]

theorem settings_append
    (calls more : List (ClockCall α)) :
    settings (calls ++ more) = settings calls + settings more := by
  induction calls with
  | nil => simp [settings]
  | cons call calls ih => cases call <;> simp [settings, ih, Nat.add_right_comm]

theorem Waits.serial_lt
    (waits : Waits calls timer) :
    timer.serial < settings calls := by
  obtain ⟨before, delay, payload, since, rfl, rfl, _⟩ := waits
  simp only [timerSet, settings_append, settings]
  omega

/-- What follows in a list that one more call is added to: nothing, or all but that call. -/
theorem append_singleton_eq_iff
    {item : ClockCall α} :
    calls ++ [call] = before ++ item :: since ↔
      (calls = before ∧ call = item ∧ since = []) ∨
        ∃ rest, since = rest ++ [call] ∧ calls = before ++ item :: rest := by
  constructor
  · intro split
    rcases List.eq_nil_or_concat since with rfl | ⟨rest, last, rfl⟩
    · obtain ⟨rfl, same⟩ := List.append_inj' split rfl
      exact .inl ⟨rfl, (List.cons.inj same).1, rfl⟩
    · rw [List.concat_eq_append, ← List.cons_append, ← List.append_assoc] at split
      obtain ⟨rfl, same⟩ := List.append_inj' split rfl
      rw [List.concat_eq_append, (List.cons.inj same).1]
      exact .inr ⟨rest, rfl, rfl⟩
  · rintro (⟨rfl, rfl, rfl⟩ | ⟨rest, rfl, rfl⟩)
    · rfl
    · simp

theorem waits_append_iff :
    Waits (calls ++ [call]) timer ↔
      (∃ delay payload, call = .schedule delay payload ∧ timer = timerSet calls delay payload) ∨
        Waits calls timer ∧ call ≠ .cancel timer.serial ∧
          ∀ span, call = .advance span →
            elapsed calls + span.nanos < timer.deadline.nanos := by
  constructor
  · rintro ⟨before, delay, payload, since, split, isTimer, spared, unreached⟩
    rcases append_singleton_eq_iff.mp split with ⟨rfl, isSetting, _⟩ | ⟨rest, rfl, rfl⟩
    · exact .inl ⟨delay, payload, isSetting, isTimer⟩
    · refine .inr ⟨⟨before, delay, payload, rest, rfl, isTimer, ?_, ?_⟩, ?_, ?_⟩
      · exact fun called => spared (List.mem_append_left _ called)
      · intro early span late split
        exact unreached early span (late ++ [call]) (by simp [split])
      · rintro rfl
        exact spared (by simp)
      · rintro span rfl
        have reached := unreached rest span [] rfl
        simpa [elapsed_append, elapsed] using reached
  · rintro (⟨delay, payload, rfl, isTimer⟩ | ⟨waits, notCalled, notReached⟩)
    · exact ⟨calls, delay, payload, [], rfl, isTimer, List.not_mem_nil, by simp⟩
    · obtain ⟨before, delay, payload, since, rfl, isTimer, spared, unreached⟩ := waits
      refine ⟨before, delay, payload, since ++ [call], by simp, isTimer, ?_, ?_⟩
      · intro called
        rcases List.mem_append.mp called with earlier | last
        · exact spared earlier
        · exact notCalled (List.mem_singleton.mp last).symm
      · intro early span late split
        rcases append_singleton_eq_iff.mp split with ⟨rfl, isMove, _⟩ | ⟨rest, rfl, rfl⟩
        · simpa [elapsed_append, elapsed] using notReached span isMove
        · exact unreached early span rest rfl

theorem Waits.not_overdue
    (waits : Waits calls timer) :
    elapsed calls ≤ timer.deadline.nanos := by
  induction calls using List.reverseRecOn with
  | nil =>
      obtain ⟨_, _, _, _, split, _⟩ := waits
      simp at split
  | append_singleton calls call ih =>
      rw [elapsed_append]
      rcases waits_append_iff.mp waits with ⟨delay, payload, rfl, rfl⟩ | ⟨earlier, _, unreached⟩
      · simp [timerSet, elapsed]
      · have kept := ih earlier
        cases call with
        | schedule => simpa [elapsed] using kept
        | cancel => simpa [elapsed] using kept
        | advance span => simpa [elapsed] using Nat.le_of_lt (unreached span rfl)

theorem eq_of_settings_eq
    {first second back rear : List (ClockCall α)} {other : Duration} {load : α}
    (split : first ++ .schedule delay payload :: back = second ++ .schedule other load :: rear)
    (same : settings first = settings second) :
    first = second ∧ ClockCall.schedule delay payload = .schedule other load ∧ back = rear := by
  rcases List.append_eq_append_iff.mp split with ⟨middle, rfl, rest⟩ | ⟨middle, rfl, rest⟩
  · cases middle with
    | nil => exact ⟨by simp, List.cons.inj rest⟩
    | cons item middle =>
        obtain ⟨rfl, _⟩ := List.cons.inj rest
        rw [settings_append, settings] at same
        omega
  · cases middle with
    | nil =>
        obtain ⟨here, later⟩ := List.cons.inj rest
        exact ⟨by simp, here.symm, later.symm⟩
    | cons item middle =>
        obtain ⟨rfl, _⟩ := List.cons.inj rest
        rw [settings_append, settings] at same
        omega

theorem waits_timerSet_iff :
    Waits (before ++ .schedule delay payload :: since) (timerSet before delay payload) ↔
      .cancel (settings before) ∉ since ∧
        ∀ early span late, since = early ++ .advance span :: late →
          elapsed before + elapsed early + span.nanos < elapsed before + delay.nanos := by
  constructor
  · rintro ⟨front, other, load, rest, split, isTimer, spared, unreached⟩
    obtain ⟨rfl, _, rfl⟩ := eq_of_settings_eq split (congrArg PendingTimer.serial isTimer)
    exact ⟨spared, unreached⟩
  · rintro ⟨spared, unreached⟩
    exact ⟨before, delay, payload, since, rfl, rfl, spared, unreached⟩

/-- Of the timers that wait only one has the serial number that a call gave out. -/
theorem Waits.eq_timerSet
    (waits : Waits (before ++ .schedule delay payload :: since) timer)
    (same : timer.serial = settings before) :
    timer = timerSet before delay payload := by
  obtain ⟨front, other, load, rest, split, rfl, _⟩ := waits
  obtain ⟨rfl, setting, _⟩ := eq_of_settings_eq split same.symm
  obtain ⟨rfl, rfl⟩ := ClockCall.schedule.inj setting
  rfl

/-- A timer that is not called off before some move has reached its deadline rings in one of
them, the first that reaches it. -/
theorem exists_rings
    (payload : α)
    (reached : ∃ early span late, since = early ++ .advance span :: late ∧
      .cancel (settings before) ∉ early ∧ delay.nanos ≤ elapsed early + span.nanos) :
    ∃ early span late, since = early ++ .advance span :: late ∧
      Rings (before ++ .schedule delay payload :: early) span
        (timerSet before delay payload) := by
  induction since using List.reverseRecOn with
  | nil =>
      obtain ⟨early, span, late, split, _⟩ := reached
      simp at split
  | append_singleton since call ih =>
      by_cases earlier : ∃ early span late, since = early ++ .advance span :: late ∧
          .cancel (settings before) ∉ early ∧ delay.nanos ≤ elapsed early + span.nanos
      · obtain ⟨early, span, late, rfl, rings⟩ := ih earlier
        exact ⟨early, span, late ++ [call], by simp, rings⟩
      · obtain ⟨early, span, late, split, spared, due⟩ := reached
        rcases append_singleton_eq_iff.mp split with ⟨rfl, rfl, rfl⟩ | ⟨rest, _, rfl⟩
        · refine ⟨since, span, [], rfl, waits_timerSet_iff.mpr ⟨spared, ?_⟩, ?_⟩
          · rintro early other late rfl
            by_contra passed
            refine earlier ⟨early, other, late, rfl, ?_, by omega⟩
            exact fun called => spared (List.mem_append_left _ called)
          · simp only [timerSet, elapsed_append, elapsed]
            omega
        · exact absurd ⟨early, span, rest, rfl, spared, due⟩ earlier

theorem Rings.once
    {first second back rear : List (ClockCall α)} {span other : Duration}
    (rings : Rings (before ++ .schedule delay payload :: first) span
      (timerSet before delay payload))
    (again : Rings (before ++ .schedule delay payload :: second) other
      (timerSet before delay payload))
    (split : first ++ .advance span :: back = second ++ .advance other :: rear) :
    first = second := by
  have due := rings.2
  have dueAgain := again.2
  simp only [timerSet, elapsed_append, elapsed] at due dueAgain
  -- Of two moves the earlier one would have reached the deadline before the later one.
  rcases List.append_eq_append_iff.mp split with ⟨middle, rfl, rest⟩ | ⟨middle, rfl, rest⟩
  · cases middle with
    | nil => simp
    | cons item middle =>
        obtain ⟨rfl, _⟩ := List.cons.inj rest
        have unreached := (waits_timerSet_iff.mp again.1).2 first span middle rfl
        omega
  · cases middle with
    | nil => simp
    | cons item middle =>
        obtain ⟨rfl, _⟩ := List.cons.inj rest
        have unreached := (waits_timerSet_iff.mp rings.1).2 second other middle rfl
        omega

end Counting

end ClockCall

namespace Clock

open ClockCall

/-- The first timer fires before the second one. -/
def Before (first second : PendingTimer α) : Prop :=
  first.deadline.nanos < second.deadline.nanos ∨
    first.deadline = second.deadline ∧ first.serial < second.serial

/-- What fires when a clock does as it is asked, and the clock afterwards. -/
def answer (clock : Clock α) : ClockCall α → List (Duration × α) × Clock α
  | .schedule delay payload => ([], clock.schedule delay (.report payload))
  | .cancel serial => ([], clock.cancel serial)
  | .advance span => clock.advance span

/-- A new clock after it has done all it was asked. -/
def after (calls : List (ClockCall α)) : Clock α :=
  calls.foldl (fun clock call => (clock.answer call).2) {}

/-- What a timer reports when it fires on time. -/
def reported (timer : PendingTimer α) : Duration × α :=
  (timer.deadline, timer.alarm.payload)

/-- Is the timer due by this time? -/
def isDue (target : Duration) (timer : PendingTimer α) : Bool :=
  timer.deadline.nanos ≤ target.nanos

section Moving

variable {clock : Clock α}

theorem length_le_load (clock : Clock α) : clock.pending.length ≤ clock.load := by
  have counted : ∀ (timers : List (PendingTimer α)) (load : Nat),
      load + timers.length ≤ timers.foldl (fun load timer => load + timer.alarm.count) load := by
    intro timers
    induction timers with
    | nil => exact fun load => Nat.le_refl load
    | cons timer timers ih =>
        intro load
        have positive : 1 ≤ timer.alarm.count := by
          cases timer.alarm
          simp [Alarm.count]
        have rest := ih (load + timer.alarm.count)
        simp only [List.length_cons, List.foldl_cons]
        omega
  simpa [load] using counted clock.pending 0

/-- Firing at most so many timers of a plain clock fires the first ones that are due, each when
the clock shows its deadline. -/
theorem Plain.fireUntil_eq
    (plain : clock.Plain) (fuel : Nat) (target : Duration) :
    let due := (clock.pending.takeWhile (isDue target)).take fuel
    clock.fireUntil fuel target =
      (due.map reported,
        { clock with
          now := (due.getLast?.map PendingTimer.deadline).getD clock.now
          pending := clock.pending.drop due.length }) := by
  induction fuel generalizing clock with
  | zero => simp [Clock.fireUntil]
  | succ fuel ih =>
      obtain ⟨now, nextSerial, pending⟩ := clock
      cases pending with
      | nil => simp [Clock.fireUntil, Clock.fireNext?]
      | cons timer rest =>
          by_cases due : timer.deadline.nanos ≤ target.nanos
          · have single : timer.alarm.further = [] := plain timer List.mem_cons_self
            have stillPlain : Plain (⟨timer.deadline, nextSerial, rest⟩ : Clock α) :=
              fun other member => plain other (List.mem_cons_of_mem timer member)
            have later := ih stillPlain
            simp only [Clock.fireUntil, Clock.fireNext?, due, if_true, single, scheduleAll,
              List.foldl_nil, later]
            simp only [isDue, due, decide_true, List.takeWhile_cons_of_pos, List.take_succ_cons,
              List.map_cons, List.length_cons, List.drop_succ_cons, List.getLast?_cons]
            cases ((rest.takeWhile (isDue target)).take fuel).getLast? <;> rfl
          · simp [Clock.fireUntil, Clock.fireNext?, due, isDue]

/-- Moving a plain clock fires the first timers that are due and leaves the others. -/
theorem Plain.advance_eq
    (plain : clock.Plain) (span : Duration) :
    let target : Duration := ⟨clock.now.nanos + span.nanos⟩
    clock.advance span =
      ((clock.pending.takeWhile (isDue target)).map reported,
        { clock with now := target, pending := clock.pending.dropWhile (isDue target) }) := by
  intro target
  have enough : (clock.pending.takeWhile (isDue target)).length ≤ clock.load :=
    Nat.le_trans (List.takeWhile_prefix _).length_le clock.length_le_load
  have fired := plain.fireUntil_eq clock.load target
  dsimp only at fired
  rw [List.take_of_length_le enough] at fired
  have whole : clock.pending.takeWhile (isDue target) ++ clock.pending.dropWhile (isDue target) =
      clock.pending := List.takeWhile_append_dropWhile
  have left := congrArg (List.drop (clock.pending.takeWhile (isDue target)).length) whole
  rw [List.drop_left] at left
  rw [← left] at fired
  simp only [Clock.advance]
  rw [show Clock.fireUntil clock.load clock ⟨clock.now.nanos + span.nanos⟩ = _ from fired]

theorem takeWhile_dropWhile_of_imp
    {sooner later : PendingTimer α → Bool}
    (implied : ∀ timer, sooner timer = true → later timer = true)
    (timers : List (PendingTimer α)) :
    timers.takeWhile sooner ++ (timers.dropWhile sooner).takeWhile later =
        timers.takeWhile later ∧
      (timers.dropWhile sooner).dropWhile later = timers.dropWhile later := by
  induction timers with
  | nil => simp
  | cons timer timers ih =>
      by_cases taken : sooner timer = true
      · simp [taken, implied timer taken, ih]
      · simp [taken]

/-- Two moves of a plain clock fire what one move over both spans fires, in the same order, and
leave the clock as this does. -/
theorem Plain.advance_advance
    (plain : clock.Plain) (span further : Duration) :
    clock.advance ⟨span.nanos + further.nanos⟩ =
      ((clock.advance span).1 ++ ((clock.advance span).2.advance further).1,
        ((clock.advance span).2.advance further).2) := by
  have later := (plain.advanced span).advance_eq further
  rw [plain.advance_eq span] at later ⊢
  rw [plain.advance_eq ⟨span.nanos + further.nanos⟩, later]
  have implied : ∀ timer : PendingTimer α, isDue ⟨clock.now.nanos + span.nanos⟩ timer = true →
      isDue ⟨clock.now.nanos + span.nanos + further.nanos⟩ timer = true := by
    simp only [isDue, decide_eq_true_eq]
    omega
  obtain ⟨taken, left⟩ := takeWhile_dropWhile_of_imp implied clock.pending
  rw [← List.map_append, taken, left, Nat.add_assoc]

end Moving

/-- The clock shows what these calls come to: the time, the timers that wait, in their order, and
the serial number of the next one. -/
structure Keeps (calls : List (ClockCall α)) (clock : Clock α) : Prop where
  now : clock.now.nanos = elapsed calls
  nextSerial : clock.nextSerial = settings calls
  pending_iff : ∀ timer, timer ∈ clock.pending ↔ Waits calls timer
  inOrder : clock.pending.Pairwise Before

section Keeping

variable {calls : List (ClockCall α)} {clock : Clock α}

theorem line_inOrder
    {timer : PendingTimer α} {timers : List (PendingTimer α)}
    (inOrder : timers.Pairwise Before)
    (newest : ∀ other ∈ timers, other.serial < timer.serial) :
    (line timer timers).Pairwise Before := by
  induction timers with
  | nil => exact List.pairwise_singleton _ _
  | cons first rest ih =>
      obtain ⟨before, ordered⟩ := List.pairwise_cons.mp inOrder
      obtain ⟨isNewer, newer⟩ := List.forall_mem_cons.mp newest
      unfold line
      by_cases sooner : timer.deadline.nanos < first.deadline.nanos
      · rw [if_pos sooner]
        refine List.pairwise_cons.mpr ⟨List.forall_mem_cons.mpr ⟨.inl sooner, ?_⟩, inOrder⟩
        intro other member
        rcases before other member with further | ⟨same, _⟩
        · exact .inl (Nat.lt_trans sooner further)
        · exact .inl (same ▸ sooner)
      · rw [if_neg sooner]
        refine List.pairwise_cons.mpr ⟨fun other member => ?_, ih ordered newer⟩
        rcases mem_line.mp member with rfl | later
        · rcases Nat.lt_or_ge first.deadline.nanos other.deadline.nanos with less | notLess
          · exact .inl less
          · exact .inr ⟨congrArg Duration.mk (Nat.le_antisymm (Nat.not_lt.mp sooner) notLess),
              isNewer⟩
        · exact before other later

theorem Keeps.plain
    (keeps : Keeps calls clock) :
    clock.Plain := by
  intro timer member
  obtain ⟨_, _, _, _, _, rfl, _⟩ := (keeps.pending_iff timer).mp member
  rfl

theorem Keeps.schedule
    (keeps : Keeps calls clock) (delay : Duration) (payload : α) :
    Keeps (calls ++ [.schedule delay payload]) (clock.schedule delay (.report payload)) where
  now := by simp [Clock.schedule, keeps.now, elapsed_append, elapsed]
  nextSerial := by simp [Clock.schedule, keeps.nextSerial, settings_append, settings]
  pending_iff := by
    intro timer
    rw [mem_schedule, keeps.pending_iff, waits_append_iff, keeps.now, keeps.nextSerial]
    simp [timerSet]
  inOrder := by
    refine line_inOrder keeps.inOrder fun timer member => ?_
    have earlier := ((keeps.pending_iff timer).mp member).serial_lt
    rwa [← keeps.nextSerial] at earlier

theorem Keeps.cancel
    (keeps : Keeps calls clock) (serial : Nat) :
    Keeps (calls ++ [.cancel serial]) (clock.cancel serial) where
  now := by simp [Clock.cancel, keeps.now, elapsed_append, elapsed]
  nextSerial := by simp [Clock.cancel, keeps.nextSerial, settings_append, settings]
  pending_iff := by
    intro timer
    have same : serial = timer.serial ↔ timer.serial = serial := eq_comm
    simp [Clock.cancel, waits_append_iff, keeps.pending_iff, same]
  inOrder := keeps.inOrder.filter _

theorem takeWhile_isDue
    {timers : List (PendingTimer α)}
    (inOrder : timers.Pairwise Before) (target : Duration) :
    timers.takeWhile (isDue target) = timers.filter (isDue target) ∧
      timers.dropWhile (isDue target) = timers.filter fun timer => !isDue target timer := by
  induction timers with
  | nil => simp
  | cons first rest ih =>
      obtain ⟨before, ordered⟩ := List.pairwise_cons.mp inOrder
      by_cases due : isDue target first = true
      · simp [due, ih ordered]
      · have later : ∀ timer ∈ rest, isDue target timer = false := by
          intro timer member
          simp only [isDue, decide_eq_true_eq, decide_eq_false_iff_not] at due ⊢
          rcases before timer member with less | ⟨same, _⟩
          · omega
          · rwa [← same]
        have noneDue : rest.filter (isDue target) = [] := by simpa using later
        have allLeft : (rest.filter fun timer => !isDue target timer) = rest := by simpa using later
        simp [due, noneDue, allLeft]

theorem Keeps.advance
    (keeps : Keeps calls clock) (span : Duration) :
    Keeps (calls ++ [.advance span]) (clock.advance span).2 where
  now := by simp [keeps.plain.advance_eq, keeps.now, elapsed_append, elapsed]
  nextSerial := by simp [keeps.plain.advance_eq, keeps.nextSerial, settings_append, settings]
  pending_iff := by
    intro timer
    rw [keeps.plain.advance_eq]
    simp [takeWhile_isDue keeps.inOrder, waits_append_iff, keeps.pending_iff, isDue, keeps.now]
  inOrder := by
    rw [keeps.plain.advance_eq]
    exact keeps.inOrder.sublist (List.dropWhile_sublist _)

theorem keeps_after (calls : List (ClockCall α)) : Keeps calls (after calls) := by
  induction calls using List.reverseRecOn with
  | nil =>
      refine ⟨rfl, rfl, fun timer => ?_, .nil⟩
      simp [after, Waits]
  | append_singleton calls call ih =>
      rw [after, List.foldl_append]
      cases call with
      | schedule delay payload => exact ih.schedule delay payload
      | cancel serial => exact ih.cancel serial
      | advance span => exact ih.advance span

end Keeping

/-- Moving the clock by a span after these calls fires just these timers, each when the clock
shows its deadline, and leads to the time that it should. -/
structure Exact (calls : List (ClockCall α)) (span : Duration) (due : List (PendingTimer α)) :
    Prop where
  due_iff : ∀ timer, timer ∈ due ↔ Rings calls span timer
  inOrder : due.Pairwise Before
  fired : ((after calls).advance span).1 = due.map reported
  /-- The clock shows this when it has fired the first timers and no others yet. -/
  onTime : ∀ position (inRange : position < due.length),
    ((after calls).fireUntil (position + 1) ⟨elapsed calls + span.nanos⟩).2.now =
      due[position].deadline
  onward : ∀ timer ∈ due, (after calls).now.nanos ≤ timer.deadline.nanos
  arrives : ((after calls).advance span).2.now.nanos = elapsed calls + span.nanos

theorem exists_exact
    (calls : List (ClockCall α)) (span : Duration) :
    ∃ due, Exact calls span due := by
  have keeps := keeps_after calls
  have moved := keeps.plain.advance_eq span
  rw [keeps.now] at moved
  dsimp only at moved
  refine ⟨(after calls).pending.takeWhile (isDue ⟨elapsed calls + span.nanos⟩), ?_, ?_, ?_, ?_,
    ?_, ?_⟩
  · intro timer
    simp [takeWhile_isDue keeps.inOrder, keeps.pending_iff, Rings, isDue]
  · exact keeps.inOrder.sublist (List.takeWhile_sublist _)
  · rw [moved]
  · intro position inRange
    rw [keeps.plain.fireUntil_eq]
    simp [List.getLast?_take, inRange]
  · intro timer member
    rw [keeps.now]
    exact ((keeps.pending_iff timer).mp ((List.takeWhile_sublist _).subset member)).not_overdue
  · rw [moved]

/-- Simulated time is exact.  Whatever a new clock is asked to do, in any order, afterwards it
shows the time that all moves come to, and on it wait just the timers that were set and since
then neither called off nor reached.  The next move fires those of them whose deadlines it
reaches, in the order of their deadlines and, among equal ones, of their setting, and nothing
else.  So a timer that is reached by some move before it is called off fires in exactly one
move, and one that is called off before is fired by none; calling off a timer that waits no
longer changes nothing; time never goes back; and two moves one after the other fire what one
move over both spans fires and leave the clock in the same state. -/
theorem simulated_time_exact
    (calls : List (ClockCall α)) :
    (after calls).now.nanos = elapsed calls ∧
    (∀ timer, timer ∈ (after calls).pending ↔ Waits calls timer) ∧
    (∀ span, ∃ due, Exact calls span due) ∧
    (∀ before delay payload since, calls = before ++ .schedule delay payload :: since →
      let timer := timerSet before delay payload
      let done := fun early => before ++ .schedule delay payload :: early
      ((∃ early span late, since = early ++ .advance span :: late ∧
          .cancel timer.serial ∉ early ∧
            timer.deadline.nanos ≤ elapsed (done early) + span.nanos) →
        ∃! early, ∃ span late, since = early ++ .advance span :: late ∧
          Rings (done early) span timer) ∧
      (∀ early span, .cancel timer.serial ∈ early → ¬ Rings (done early) span timer) ∧
      (¬ Waits calls timer → (after calls).cancel timer.serial = after calls)) ∧
    (∀ more, (after calls).now.nanos ≤ (after (calls ++ more)).now.nanos) ∧
    ∀ span further, (after calls).advance ⟨span.nanos + further.nanos⟩ =
      (((after calls).advance span).1 ++ (((after calls).advance span).2.advance further).1,
        (((after calls).advance span).2.advance further).2) := by
  have keeps := keeps_after calls
  refine ⟨keeps.now, keeps.pending_iff, exists_exact calls, ?_, ?_, keeps.plain.advance_advance⟩
  · rintro before delay payload since rfl timer done
    refine ⟨?_, ?_, ?_⟩
    · rintro ⟨early, span, late, split, spared, reached⟩
      have due : delay.nanos ≤ elapsed early + span.nanos := by
        simp only [timer, done, timerSet, elapsed_append, elapsed] at reached
        omega
      obtain ⟨early, span, late, rfl, rings⟩ :=
        exists_rings payload ⟨early, span, late, split, spared, due⟩
      refine ⟨early, ⟨span, late, rfl, rings⟩, ?_⟩
      rintro other ⟨span', late', split, again⟩
      exact again.once rings split.symm
    · intro early span calledOff rings
      exact (waits_timerSet_iff.mp rings.1).1 calledOff
    · intro gone
      rw [Clock.cancel, List.filter_eq_self.mpr]
      intro other member
      have waits := (keeps.pending_iff other).mp member
      refine decide_eq_true fun same => gone ?_
      rwa [waits.eq_timerSet same] at waits
  · intro more
    rw [keeps.now, (keeps_after (calls ++ more)).now, elapsed_append]
    exact Nat.le_add_right _ _

/-- The egg is called off, and the tea fires in the first of two moves, alone. -/
theorem simulated_time_exact_kitchen :
    let before : List (ClockCall String) := [.schedule ⟨300⟩ "bread", .schedule ⟨100⟩ "egg"]
    let since : List (ClockCall String) := [.cancel 1, .advance ⟨250⟩, .advance ⟨250⟩]
    (∃! early, ∃ span late, since = early ++ .advance span :: late ∧
      Rings (before ++ .schedule ⟨200⟩ "tea" :: early) span (timerSet before ⟨200⟩ "tea")) ∧
    ∃ due, Exact (before ++ [.schedule ⟨200⟩ "tea", .cancel 1]) ⟨250⟩ due ∧
      due.map reported = [(⟨200⟩, "tea")] := by
  intro before since
  constructor
  · obtain ⟨_, _, _, single, _⟩ :=
      simulated_time_exact (before ++ .schedule ⟨200⟩ "tea" :: since)
    refine (single before ⟨200⟩ "tea" since rfl).1 ?_
    exact ⟨[.cancel 1], ⟨250⟩, [.advance ⟨250⟩], rfl, by simp [timerSet, settings, before],
      by decide⟩
  · obtain ⟨_, _, moves, _⟩ :=
      simulated_time_exact (before ++ [.schedule ⟨200⟩ "tea", .cancel 1])
    obtain ⟨due, exact⟩ := moves ⟨250⟩
    exact ⟨due, exact, exact.fired.symm.trans (by decide +kernel)⟩

end Clock

end Statechart
