import Statechart.Proofs.Rounds

/-!
# Steps from their opening to their end

A step opens with the entry into the first states or with what is done for its event, and
then goes on in rounds.  Counting the microsteps from the opening on, a step comes to rest
within its limit, or is about to exceed it, or fails before; and which of these it does can
be read off the rounds.
-/

namespace Statechart

/-- What a step is taken for: the start, or an event. -/
inductive Occasion where
  | start
  | event

/-- The step that is taken. -/
def Occasion.step : Occasion → Engine → Event → StepM Bool
  | .start => Engine.firstStep
  | .event => Engine.macrostep

namespace Engine

section Limits

variable (engine : Engine)

/-- How a step opens: with so many microsteps it comes to this moment.  Entering the first
states counts as one, and so does what is done for the event, unless no transition takes it
up. -/
inductive Opens : Occasion → Event → Workbench → Nat → Moment → Prop where
  | entry {event : Event} {bench after : Workbench} :
      (engine.enterPlanned event engine.machine.chart.initialEntries?).run bench =
        .ok () after →
      Opens .start event bench 1 ⟨event, after⟩
  | ignored {event : Event} {bench ready : Workbench} :
      (engine.select .event event).run bench = .ok [] ready →
      Opens .event event bench 0 ⟨event, ready⟩
  | taken {event : Event} {bench ready after : Workbench}
      {chosen : List (Choice ActorLogic)} :
      (engine.select .event event).run bench = .ok chosen ready → chosen ≠ [] →
      (engine.microstep event chosen).run ready = .ok () after →
      Opens .event event bench 1 ⟨event, after⟩

/-- With so many microsteps, all of which have gone well, a step comes to this moment. -/
inductive Takes (occasion : Occasion) (event : Event) (bench : Workbench) :
    Nat → Moment → Prop where
  | opening {opened count : Nat} {first last : Moment} :
      engine.Opens occasion event bench opened first → engine.Rounds first count last →
      Takes occasion event bench (opened + count) last

/-- After so many microsteps that have gone well one more is about to begin. -/
inductive Attempts (occasion : Occasion) (event : Event) (bench : Workbench) :
    Nat → Prop where
  | entry : occasion = .start → Attempts occasion event bench 0
  | taken {ready : Workbench} {chosen : List (Choice ActorLogic)} :
      occasion = .event → (engine.select .event event).run bench = .ok chosen ready →
      chosen ≠ [] → Attempts occasion event bench 0
  | further {count : Nat} {last ready : Moment} {chosen : List (Choice ActorLogic)} :
      engine.Takes occasion event bench count last → engine.Finds last chosen ready →
      chosen ≠ [] → Attempts occasion event bench count

/-- After so many microsteps, the last of which may not have been completed, a step fails. -/
inductive Falters (occasion : Occasion) (event : Event) (bench : Workbench) :
    Nat → Failure → Workbench → Prop where
  | entry {reason : Failure} {after : Workbench} :
      occasion = .start →
      (engine.enterPlanned event engine.machine.chart.initialEntries?).run bench =
        .error reason after →
      Falters occasion event bench 1 reason after
  | select {reason : Failure} {after : Workbench} :
      occasion = .event → (engine.select .event event).run bench = .error reason after →
      Falters occasion event bench 0 reason after
  | microstep {ready after : Workbench} {chosen : List (Choice ActorLogic)}
      {reason : Failure} :
      occasion = .event → (engine.select .event event).run bench = .ok chosen ready →
      chosen ≠ [] → (engine.microstep event chosen).run ready = .error reason after →
      Falters occasion event bench 1 reason after
  | further {count begun : Nat} {last : Moment} {reason : Failure} {after : Workbench} :
      engine.Takes occasion event bench count last →
      engine.Breaks last begun reason after →
      Falters occasion event bench (count + begun) reason after

variable {engine : Engine} {occasion : Occasion} {event : Event} {bench after : Workbench}
variable {count : Nat} {last : Moment} {reason : Failure}

theorem run_of_opens
    {opened budget : Nat} {first : Moment}
    (opens : engine.Opens occasion event bench opened first)
    (enough : engine.limit = budget + opened) :
    ∃ handled, (occasion.step engine event).run bench =
      (engine.stabilize event.type budget first.event >>= fun _ => pure handled).run
        first.bench := by
  cases opens with
  | entry entered =>
      refine ⟨true, ?_⟩
      simp only [Occasion.step, firstStep, enough]
      exact run_bind_of_ok entered _
  | ignored ignored =>
      refine ⟨false, ?_⟩
      simp only [Occasion.step, macrostep]
      rw [run_bind_of_ok ignored, enough]
      rfl
  | taken selected nonempty ran =>
      refine ⟨true, ?_⟩
      simp only [Occasion.step, macrostep]
      rw [run_bind_of_ok selected]
      simp only [List.isEmpty_iff, nonempty, if_false, enough]
      exact run_bind_of_ok ran _

theorem ends_of_opens
    {opened : Nat} {first : Moment}
    (opens : engine.Opens occasion event bench opened first)
    (enough : opened ≤ engine.limit) :
    Ends (occasion.step engine event) bench
      (fun _ after => ∃ count last, count ≤ engine.limit ∧
        engine.Takes occasion event bench count last ∧ engine.Rests last after)
      (fun reason after =>
        reason = .loop engine.limit event.type ∧
            engine.Attempts occasion event bench engine.limit ∨
          ∃ begun ≤ engine.limit, engine.Falters occasion event bench begun reason after) := by
  obtain ⟨budget, limited⟩ := Nat.exists_eq_add_of_le' enough
  obtain ⟨handled, same⟩ := run_of_opens opens limited
  unfold Ends
  rw [same]
  apply ends_bind.mpr
  refine (stabilize_ends event.type budget first).mono ?_ ?_
  · rintro _ after ⟨count, last, within, rounds, rests⟩
    exact ⟨opened + count, last, by omega, ⟨opens, rounds⟩, rests⟩
  · rintro reason after (⟨rfl, last, chosen, ready, rounds, finds, nonempty, rfl⟩ |
      ⟨count, begun, last, within, rounds, breaks⟩)
    · left
      have takes : engine.Takes occasion event bench engine.limit last := by
        rw [limited, Nat.add_comm]
        exact ⟨opens, rounds⟩
      exact ⟨rfl, .further takes finds nonempty⟩
    · right
      exact ⟨opened + count + begun, by omega, .further ⟨opens, rounds⟩ breaks⟩

/-- A step comes to rest within its limit, or is about to exceed it, or fails before. -/
theorem step_ends
    (engine : Engine) (occasion : Occasion) (event : Event) (bench : Workbench) :
    Ends (occasion.step engine event) bench
      (fun _ after => ∃ count last, count ≤ engine.limit ∧
        engine.Takes occasion event bench count last ∧ engine.Rests last after)
      (fun reason after =>
        reason = .loop engine.limit event.type ∧
            engine.Attempts occasion event bench engine.limit ∨
          ∃ begun ≤ engine.limit, engine.Falters occasion event bench begun reason after) := by
  cases occasion with
  | start =>
      cases limited : engine.limit with
      | zero =>
          simp only [Occasion.step, firstStep, limited, ends_throw]
          exact .inl ⟨trivial, .entry rfl⟩
      | succ budget =>
          rw [← limited]
          cases entered : (engine.enterPlanned event
              engine.machine.chart.initialEntries?).run bench with
          | ok _ after => exact ends_of_opens (.entry entered) (by omega)
          | error reason after =>
              unfold Ends
              simp only [Occasion.step, firstStep, limited]
              rw [run_bind_of_error entered]
              exact .inr ⟨1, by omega, .entry rfl entered⟩
  | event =>
      cases selected : (engine.select .event event).run bench with
      | error reason after =>
          unfold Ends
          simp only [Occasion.step, macrostep]
          rw [run_bind_of_error selected]
          exact .inr ⟨0, Nat.zero_le _, .select rfl selected⟩
      | ok chosen ready =>
          by_cases nothing : chosen = []
          · subst nothing
            exact ends_of_opens (.ignored selected) (Nat.zero_le _)
          · cases limited : engine.limit with
            | zero =>
                unfold Ends
                simp only [Occasion.step, macrostep]
                rw [run_bind_of_ok selected]
                simp only [List.isEmpty_iff, nothing, if_false, limited]
                exact .inl ⟨rfl, .taken rfl selected nothing⟩
            | succ budget =>
                rw [← limited]
                cases ran : (engine.microstep event chosen).run ready with
                | ok _ after => exact ends_of_opens (.taken selected nothing ran) (by omega)
                | error reason after =>
                    unfold Ends
                    simp only [Occasion.step, macrostep]
                    rw [run_bind_of_ok selected]
                    simp only [List.isEmpty_iff, nothing, if_false, limited]
                    rw [run_bind_of_error ran]
                    exact .inr ⟨1, by omega, .microstep rfl selected nothing ran⟩

theorem run_of_attempts
    (attempts : engine.Attempts occasion event bench engine.limit) :
    ∃ after, (occasion.step engine event).run bench =
      .error (.loop engine.limit event.type) after := by
  generalize limited : engine.limit = limit at attempts
  cases attempts with
  | entry isStart =>
      subst isStart
      refine ⟨bench, ?_⟩
      simp only [Occasion.step, firstStep, limited]
      rfl
  | @taken ready _ isEvent selected nonempty =>
      subst isEvent
      refine ⟨ready, ?_⟩
      simp only [Occasion.step, macrostep]
      rw [run_bind_of_ok selected]
      simp only [List.isEmpty_iff, nonempty, if_false, limited]
      rfl
  | @further _ last ready _ takes finds nonempty =>
      obtain ⟨opens, rounds⟩ := takes
      obtain ⟨handled, same⟩ := run_of_opens opens (limited.trans (Nat.add_comm _ _))
      refine ⟨ready.bench, ?_⟩
      rw [same, ← limited]
      exact run_bind_of_error (stabilize_of_overruns ⟨_, _, _, rounds, finds, nonempty, rfl⟩) _

theorem run_of_takes
    (takes : engine.Takes occasion event bench count last)
    (enough : count ≤ engine.limit)
    (rests : engine.Rests last after) :
    ∃ handled, (occasion.step engine event).run bench = .ok handled after := by
  obtain ⟨budget, limited⟩ := Nat.exists_eq_add_of_le' enough
  cases takes with
  | @opening opened count first last opens rounds =>
      have left : engine.limit = budget + count + opened := by omega
      obtain ⟨handled, same⟩ := run_of_opens opens left
      refine ⟨handled, ?_⟩
      rw [same]
      exact run_bind_of_ok
        (stabilize_of_finishes ⟨count, last, Nat.le_add_left _ _, rounds, rests⟩) _

end Limits

section Resting

variable {engine : Engine} {trigger : Trigger} {event : Event} {moment : Moment}
variable {bench after : Workbench} {chosen : List (Choice ActorLogic)}

theorem selection_of_select
    (selected : (engine.select trigger event).run bench = .ok chosen after) :
    ∃ selection, engine.machine.select trigger bench.state.active bench.state.history
        bench.state.context event = .ok selection ∧ selection.chosen = chosen := by
  rw [select_run] at selected
  split at selected
  · cases selected
  · rename_i selection chooses
    exact ⟨selection, chooses, (EStateM.Result.ok.inj selected).1⟩

/-- Where a step has come to rest no raised event is left, and unless the machine is done no
transition without event is open, the last event being what its guards see. -/
theorem Rests.calm
    (rests : engine.Rests moment after) :
    after.state = { moment.bench.state with raised := [] } ∧
      (after.state.done = true ∨
        ∃ selection, engine.machine.select .eventless after.state.active after.state.history
            after.state.context moment.event = .ok selection ∧ selection.chosen = []) := by
  cases rests with
  | done isDone => exact ⟨rfl, .inl isDone⟩
  | @idle _ bench _ _ selected nothing =>
      have same := select_kept selected
      have state : after.state = { bench.state with raised := [] } := by
        rw [← same, ← nothing]
      refine ⟨state, .inr ?_⟩
      rw [same]
      exact selection_of_select selected

end Resting

end Engine

end Statechart
