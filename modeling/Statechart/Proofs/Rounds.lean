import Statechart.Proofs.BetweenSteps
import Statechart.Proofs.ForecastAgreement

/-!
# Rounds

Going on with a step until the machine has come to rest is a loop.  In each round the step
either takes a microstep, for transitions without event or for the first raised event, or
drops that event.  The rounds are described here as a relation between moments, which counts
the microsteps and knows no limit.  With a limit on the microsteps there is no endless
sequence of rounds, since a round that costs none uses up a raised event; and the loop comes
to rest, exceeds its limit or fails exactly where the rounds say so.
-/

namespace Statechart

/-- A moment in a step: the event that is current, and the bench. -/
structure Moment where
  event : Event
  bench : Workbench

namespace Engine

section Rounds

variable (engine : Engine)

/-- What a step that has not come to rest looks for next, and finds: the transitions without
event, or if there are none those for the first raised event, be there any or not. -/
inductive Finds : Moment → List (Choice ActorLogic) → Moment → Prop where
  | eventless {current : Event} {bench ready : Workbench}
      {chosen : List (Choice ActorLogic)} :
      bench.state.done = false →
      (engine.select .eventless current).run bench = .ok chosen ready → chosen ≠ [] →
      Finds ⟨current, bench⟩ chosen ⟨current, ready⟩
  | raised {current next : Event} {rest : List Event} {bench calm ready : Workbench}
      {chosen : List (Choice ActorLogic)} :
      bench.state.done = false →
      (engine.select .eventless current).run bench = .ok [] calm →
      calm.state.raised = next :: rest →
      (engine.select .event next).run
        (calm.onState fun state => { state with raised := rest }) = .ok chosen ready →
      Finds ⟨current, bench⟩ chosen ⟨next, ready⟩

/-- A step that has come to rest, with the bench that it leaves. -/
inductive Rests : Moment → Workbench → Prop where
  | done {current : Event} {bench : Workbench} :
      bench.state.done = true →
      Rests ⟨current, bench⟩ (bench.onState fun state => { state with raised := [] })
  | idle {current : Event} {bench calm : Workbench} :
      bench.state.done = false →
      (engine.select .eventless current).run bench = .ok [] calm →
      calm.state.raised = [] → Rests ⟨current, bench⟩ calm

/-- One round of a step, and how many microsteps it takes. -/
inductive Round : Moment → Nat → Moment → Prop where
  | microstep {before ready : Moment} {chosen : List (Choice ActorLogic)}
      {after : Workbench} :
      engine.Finds before chosen ready → chosen ≠ [] →
      (engine.microstep ready.event chosen).run ready.bench = .ok () after →
      Round before 1 ⟨ready.event, after⟩
  | drop {before after : Moment} : engine.Finds before [] after → Round before 0 after

/-- A round that fails, and how many microsteps it has begun. -/
inductive Breaks : Moment → Nat → Failure → Workbench → Prop where
  | eventless {current : Event} {bench after : Workbench} {reason : Failure} :
      bench.state.done = false →
      (engine.select .eventless current).run bench = .error reason after →
      Breaks ⟨current, bench⟩ 0 reason after
  | raised {current next : Event} {rest : List Event} {bench calm after : Workbench}
      {reason : Failure} :
      bench.state.done = false →
      (engine.select .eventless current).run bench = .ok [] calm →
      calm.state.raised = next :: rest →
      (engine.select .event next).run
        (calm.onState fun state => { state with raised := rest }) = .error reason after →
      Breaks ⟨current, bench⟩ 0 reason after
  | microstep {before ready : Moment} {chosen : List (Choice ActorLogic)}
      {reason : Failure} {after : Workbench} :
      engine.Finds before chosen ready → chosen ≠ [] →
      (engine.microstep ready.event chosen).run ready.bench = .error reason after →
      Breaks before 1 reason after

/-- Rounds, one after another, and how many microsteps they take together. -/
inductive Rounds (first : Moment) : Nat → Moment → Prop where
  | none : Rounds first 0 first
  | further {count cost : Nat} {middle last : Moment} :
      Rounds first count middle → engine.Round middle cost last →
      Rounds first (count + cost) last

end Rounds

section Running

variable {engine : Engine} {trigger : Trigger} {event current next : Event}
variable {raised rest : List Event} {chosen : List (Choice ActorLogic)}
variable {bench calm ready after : Workbench} {reason : Failure}

/-- Selecting does not touch the state. -/
theorem select_kept
    (selected : (engine.select trigger event).run bench = .ok chosen after) :
    after.state = bench.state := by
  have ends := select_state engine trigger event bench
  rw [ends_iff_run] at ends
  exact ends.1 chosen after selected

theorem select_selects
    (selected : (engine.select trigger event).run bench = .ok chosen after) :
    engine.machine.Selects after.state.active after.state.history chosen := by
  have ends := select_ends engine trigger event bench
  rw [ends_iff_run] at ends
  exact (ends.1 chosen after selected).2

theorem seek_of_eventless
    (selected : (engine.select .eventless current).run bench = .ok chosen ready)
    (nonempty : chosen ≠ []) :
    (engine.seek raised current).run bench = .ok (some (current, chosen)) ready := by
  unfold seek
  rw [run_bind_of_ok selected]
  simp [nonempty]

theorem seek_of_error
    (failed : (engine.select .eventless current).run bench = .error reason after) :
    (engine.seek raised current).run bench = .error reason after := by
  unfold seek
  rw [run_bind_of_error failed]

theorem seek_of_idle
    (selected : (engine.select .eventless current).run bench = .ok [] calm) :
    (engine.seek [] current).run bench = .ok none calm := by
  unfold seek
  rw [run_bind_of_ok selected]
  rfl

theorem seek_of_raised
    (selected : (engine.select .eventless current).run bench = .ok [] calm) :
    (engine.seek (next :: rest) current).run bench =
      (engine.select .event next >>= fun chosen =>
        if !chosen.isEmpty then pure (some (next, chosen)) else engine.seek rest next).run
        (calm.onState fun state => { state with raised := rest }) := by
  conv => lhs; unfold seek
  rw [run_bind_of_ok selected]
  simp only [List.isEmpty_nil, Bool.not_true, Bool.false_eq_true, if_false]
  exact run_modify_bind _ _ calm


/-- What a step does with what it has found; `budget` microsteps are left to it. -/
def followUp (engine : Engine) (trigger : String) (budget : Nat) :
    Option (Event × List (Choice ActorLogic)) → StepM Unit
  | none => pure ()
  | some (event, chosen) =>
      match budget with
      | 0 => throw (.loop engine.limit trigger)
      | budget + 1 => do
          engine.microstep event chosen
          engine.stabilize trigger budget event

variable {trigger : String} {budget : Nat}

theorem stabilize_of_done
    (done : bench.state.done = true) :
    (engine.stabilize trigger budget current).run bench =
      .ok () (bench.onState fun state => { state with raised := [] }) := by
  unfold stabilize
  rw [run_get_bind]
  simp only [done, if_true]
  rfl

theorem stabilize_of_undone
    (undone : bench.state.done = false) :
    (engine.stabilize trigger budget current).run bench =
      (engine.seek bench.state.raised current >>= engine.followUp trigger budget).run
        bench := by
  conv => lhs; unfold stabilize
  rw [run_get_bind]
  simp only [undone, Bool.false_eq_true, if_false]
  refine run_bind_congr rfl ?_
  rintro (_ | ⟨event, chosen⟩) middle _
  · rfl
  · cases budget <;> rfl

end Running

section Adequacy

variable {engine : Engine} {trigger : String} {budget : Nat}
variable {before ready after moment : Moment} {chosen : List (Choice ActorLogic)}
variable {last : Workbench} {reason : Failure}

theorem stabilize_of_rests
    (rests : engine.Rests moment last) :
    (engine.stabilize trigger budget moment.event).run moment.bench = .ok () last := by
  cases rests with
  | done done => exact stabilize_of_done done
  | idle undone calm nothing =>
      rw [select_kept calm] at nothing
      rw [stabilize_of_undone undone, nothing, run_bind_of_ok (seek_of_idle calm)]
      rfl

theorem stabilize_of_finds
    (finds : engine.Finds before chosen ready)
    (nonempty : chosen ≠ []) :
    (engine.stabilize trigger budget before.event).run before.bench =
      (engine.followUp trigger budget (some (ready.event, chosen))).run ready.bench := by
  cases finds with
  | eventless undone selected _ =>
      rw [stabilize_of_undone undone, run_bind_of_ok (seek_of_eventless selected nonempty)]
  | raised undone calm waiting selected =>
      rw [select_kept calm] at waiting
      rw [stabilize_of_undone undone, waiting]
      refine run_bind_of_ok ?_ _
      rw [seek_of_raised calm, run_bind_of_ok selected]
      simp [nonempty]

theorem stabilize_of_drop
    (finds : engine.Finds before [] after) :
    (engine.stabilize trigger budget before.event).run before.bench =
      (engine.stabilize trigger budget after.event).run after.bench := by
  cases finds with
  | eventless _ _ nonempty => exact absurd rfl nonempty
  | @raised _ next rest bench calm ready _ undone idle waiting selected =>
      rw [select_kept idle] at waiting
      have left : ready.state = { bench.state with raised := rest } := by
        rw [select_kept selected, Workbench.onState, select_kept idle]
      rw [stabilize_of_undone undone, waiting, stabilize_of_undone (by rw [left]; exact undone),
        left]
      rw [EStateM.run_bind, EStateM.run_bind, seek_of_raised idle, run_bind_of_ok selected]
      rfl

theorem stabilize_zero_of_finds
    (finds : engine.Finds before chosen ready)
    (nonempty : chosen ≠ []) :
    (engine.stabilize trigger 0 before.event).run before.bench =
      .error (.loop engine.limit trigger) ready.bench :=
  stabilize_of_finds finds nonempty

theorem stabilize_of_microstep
    (finds : engine.Finds before chosen ready)
    (nonempty : chosen ≠ [])
    (ran : (engine.microstep ready.event chosen).run ready.bench = .ok () last) :
    (engine.stabilize trigger (budget + 1) before.event).run before.bench =
      (engine.stabilize trigger budget ready.event).run last := by
  rw [stabilize_of_finds finds nonempty]
  exact run_bind_of_ok ran _

theorem stabilize_of_breaks
    {begun : Nat}
    (breaks : engine.Breaks before begun reason last)
    (enough : begun ≤ budget) :
    (engine.stabilize trigger budget before.event).run before.bench = .error reason last := by
  cases breaks with
  | eventless undone failed =>
      rw [stabilize_of_undone undone]
      exact run_bind_of_error (seek_of_error failed) _
  | raised undone calm waiting failed =>
      rw [select_kept calm] at waiting
      rw [stabilize_of_undone undone, waiting]
      refine run_bind_of_error ?_ _
      rw [seek_of_raised calm]
      exact run_bind_of_error failed _
  | microstep finds nonempty failed =>
      obtain ⟨left, rfl⟩ := Nat.exists_eq_add_of_le' enough
      rw [stabilize_of_finds finds nonempty]
      exact run_bind_of_error failed _

theorem stabilize_of_round
    {cost : Nat}
    (round : engine.Round before cost after) :
    (engine.stabilize trigger (budget + cost) before.event).run before.bench =
      (engine.stabilize trigger budget after.event).run after.bench := by
  cases round with
  | microstep finds nonempty ran => exact (stabilize_of_microstep finds nonempty ran).trans rfl
  | drop finds => exact stabilize_of_drop finds

theorem stabilize_of_rounds
    {count : Nat}
    (rounds : engine.Rounds before count after) :
    (engine.stabilize trigger (budget + count) before.event).run before.bench =
      (engine.stabilize trigger budget after.event).run after.bench := by
  induction rounds generalizing budget with
  | none => rfl
  | @further count cost middle last earlier round ih =>
      have swapped : budget + (count + cost) = budget + cost + count := by omega
      rw [swapped, ih, stabilize_of_round round]

/-- At every moment a step has come to rest, or fails to find out what comes next, or finds
something. -/
theorem moment_cases (engine : Engine) (moment : Moment) :
    (∃ last, engine.Rests moment last) ∨
      (∃ reason last, engine.Breaks moment 0 reason last) ∨
        ∃ chosen ready, engine.Finds moment chosen ready := by
  obtain ⟨current, bench⟩ := moment
  cases isDone : bench.state.done with
  | true => exact .inl ⟨_, .done isDone⟩
  | false =>
      cases eventless : (engine.select .eventless current).run bench with
      | error reason last => exact .inr (.inl ⟨reason, last, .eventless isDone eventless⟩)
      | ok found calm =>
          cases found with
          | cons choice choices =>
              exact .inr (.inr ⟨_, _, .eventless isDone eventless (List.cons_ne_nil _ _)⟩)
          | nil =>
              cases waiting : calm.state.raised with
              | nil => exact .inl ⟨calm, .idle isDone eventless waiting⟩
              | cons next rest =>
                  cases taken : (engine.select .event next).run
                      (calm.onState fun state => { state with raised := rest }) with
                  | error reason last =>
                      exact .inr (.inl ⟨reason, last, .raised isDone eventless waiting taken⟩)
                  | ok chosen ready =>
                      exact .inr (.inr ⟨chosen, ⟨next, ready⟩,
                        .raised isDone eventless waiting taken⟩)

theorem Finds.state
    (finds : engine.Finds before chosen ready) :
    ∃ raised, ready.bench.state = { before.bench.state with raised } := by
  cases finds with
  | eventless _ selected _ => exact ⟨_, select_kept selected⟩
  | @raised _ _ rest _ _ _ _ _ idle _ selected =>
      refine ⟨rest, ?_⟩
      rw [select_kept selected, Workbench.onState, select_kept idle]

theorem Finds.undone
    (finds : engine.Finds before chosen ready) :
    before.bench.state.done = false := by
  cases finds <;> assumption

theorem Finds.selects
    (finds : engine.Finds before chosen ready) :
    engine.machine.Selects ready.bench.state.active ready.bench.state.history chosen := by
  cases finds with
  | eventless _ selected _ => exact select_selects selected
  | raised _ _ _ selected => exact select_selects selected

/-- A raised event that is dropped is one less. -/
theorem Finds.shortens
    (finds : engine.Finds before [] after) :
    after.bench.state.raised.length + 1 = before.bench.state.raised.length := by
  cases finds with
  | eventless _ _ nonempty => exact absurd rfl nonempty
  | raised _ idle waiting selected =>
      rw [select_kept idle] at waiting
      simp [select_kept selected, Workbench.onState, waiting]

/-- With this many microsteps left to it, a step can go on from the right moment to the left
one. -/
def Onward (engine : Engine) (later earlier : Nat × Moment) : Prop :=
  ∃ cost, engine.Round earlier.2 cost later.2 ∧ earlier.1 = later.1 + cost

/-- Each round uses up a microstep or, at no cost, a raised event. -/
theorem onward_wellFounded (engine : Engine) : WellFounded engine.Onward := by
  let measure : Nat × Moment → Nat × Nat :=
    fun place => (place.1, place.2.bench.state.raised.length)
  have ordered : WellFounded (Prod.Lex (· < · : Nat → Nat → Prop) (· < ·)) :=
    WellFounded.prod_lex Nat.lt_wfRel.wf Nat.lt_wfRel.wf
  refine Subrelation.wf ?_ (InvImage.wf measure ordered)
  rintro ⟨left, later⟩ ⟨budget, earlier⟩ ⟨cost, round, spent⟩
  apply Prod.lex_def.mpr
  cases round with
  | microstep _ _ _ =>
      left
      exact spent ▸ Nat.lt_succ_self left
  | drop finds =>
      right
      exact ⟨spent.symm, Nat.lt_of_succ_le finds.shortens.le⟩

theorem Rounds.head
    {cost count : Nat} {first middle last : Moment}
    (round : engine.Round first cost middle)
    (rounds : engine.Rounds middle count last) :
    engine.Rounds first (cost + count) last := by
  induction rounds with
  | none =>
      rw [Nat.add_comm]
      exact .further .none round
  | further _ next ih =>
      rw [← Nat.add_assoc]
      exact .further ih next

/-- From this moment a step goes on and comes to rest. -/
def Finishes (engine : Engine) (budget : Nat) (moment : Moment) (last : Workbench) : Prop :=
  ∃ count rest, count ≤ budget ∧ engine.Rounds moment count rest ∧ engine.Rests rest last

/-- From this moment a step goes on until one more microstep would be too many. -/
def Overruns (engine : Engine) (budget : Nat) (moment : Moment) (last : Workbench) : Prop :=
  ∃ rest chosen ready, engine.Rounds moment budget rest ∧ engine.Finds rest chosen ready ∧
    chosen ≠ [] ∧ last = ready.bench

/-- From this moment a step goes on and fails, in a microstep or between two of them. -/
def Stumbles (engine : Engine) (budget : Nat) (moment : Moment) (reason : Failure)
    (last : Workbench) : Prop :=
  ∃ count begun rest, count + begun ≤ budget ∧ engine.Rounds moment count rest ∧
    engine.Breaks rest begun reason last

section Prepending

variable {cost : Nat} (round : engine.Round before cost after)

include round

theorem Finishes.head
    (finishes : engine.Finishes budget after last) :
    engine.Finishes (budget + cost) before last := by
  obtain ⟨count, rest, enough, rounds, rests⟩ := finishes
  exact ⟨cost + count, rest, by omega, rounds.head round, rests⟩

theorem Overruns.head
    (overruns : engine.Overruns budget after last) :
    engine.Overruns (budget + cost) before last := by
  obtain ⟨rest, chosen, ready, rounds, finds⟩ := overruns
  exact ⟨rest, chosen, ready, Nat.add_comm budget cost ▸ rounds.head round, finds⟩

theorem Stumbles.head
    (stumbles : engine.Stumbles budget after reason last) :
    engine.Stumbles (budget + cost) before reason last := by
  obtain ⟨count, begun, rest, enough, rounds, breaks⟩ := stumbles
  exact ⟨cost + count, begun, rest, by omega, rounds.head round, breaks⟩

end Prepending

/-- Going on comes to one of three ends. -/
theorem stabilize_ends
    (trigger : String) (budget : Nat) (moment : Moment) :
    Ends (engine.stabilize trigger budget moment.event) moment.bench
      (fun _ last => engine.Finishes budget moment last)
      (fun reason last =>
        reason = .loop engine.limit trigger ∧ engine.Overruns budget moment last ∨
          engine.Stumbles budget moment reason last) := by
  generalize same : (budget, moment) = place
  induction place using engine.onward_wellFounded.induction generalizing budget moment with
  | _ place ih =>
    subst same
    have onward : ∀ {cost left : Nat} {later : Moment}, engine.Round moment cost later →
        budget = left + cost →
        Ends (engine.stabilize trigger budget moment.event) moment.bench
          (fun _ last => engine.Finishes budget moment last)
          (fun reason last =>
            reason = .loop engine.limit trigger ∧ engine.Overruns budget moment last ∨
              engine.Stumbles budget moment reason last) := by
      rintro cost left later round rfl
      unfold Ends
      rw [stabilize_of_round round]
      refine (ih (left, later) ⟨cost, round, rfl⟩ left later rfl).mono ?_ ?_
      · exact fun _ last finishes => finishes.head round
      · exact fun reason last => Or.imp (And.imp_right (Overruns.head round)) (Stumbles.head round)
    rcases engine.moment_cases moment with
      ⟨last, rests⟩ | ⟨reason, last, breaks⟩ | ⟨chosen, ready, finds⟩
    · unfold Ends
      rw [stabilize_of_rests rests]
      exact ⟨0, moment, Nat.zero_le _, .none, rests⟩
    · unfold Ends
      rw [stabilize_of_breaks breaks (Nat.zero_le _)]
      exact .inr ⟨0, 0, moment, Nat.zero_le _, .none, breaks⟩
    · by_cases nothing : chosen = []
      · subst nothing
        exact onward (.drop finds) rfl
      · cases budget with
        | zero =>
            unfold Ends
            rw [stabilize_zero_of_finds finds nothing]
            exact .inl ⟨rfl, moment, chosen, ready, .none, finds, nothing, rfl⟩
        | succ left =>
            cases ran : (engine.microstep ready.event chosen).run ready.bench with
            | ok _ later => exact onward (.microstep finds nothing ran) rfl
            | error reason last =>
                have breaks : engine.Breaks moment 1 reason last :=
                  .microstep finds nothing ran
                unfold Ends
                rw [stabilize_of_breaks breaks (Nat.le_add_left 1 left)]
                exact .inr ⟨0, 1, moment, by omega, .none, breaks⟩

theorem stabilize_of_finishes
    (finishes : engine.Finishes budget moment last) :
    (engine.stabilize trigger budget moment.event).run moment.bench = .ok () last := by
  obtain ⟨count, rest, enough, rounds, rests⟩ := finishes
  obtain ⟨left, rfl⟩ := Nat.exists_eq_add_of_le' enough
  rw [stabilize_of_rounds rounds, stabilize_of_rests rests]

theorem stabilize_of_overruns
    (overruns : engine.Overruns budget moment last) :
    (engine.stabilize trigger budget moment.event).run moment.bench =
      .error (.loop engine.limit trigger) last := by
  obtain ⟨rest, chosen, ready, rounds, finds, nonempty, rfl⟩ := overruns
  have spent : (engine.stabilize trigger (0 + budget) moment.event).run moment.bench = _ :=
    stabilize_of_rounds rounds
  rw [Nat.zero_add] at spent
  rw [spent, stabilize_zero_of_finds finds nonempty]

theorem stabilize_of_stumbles
    (stumbles : engine.Stumbles budget moment reason last) :
    (engine.stabilize trigger budget moment.event).run moment.bench = .error reason last := by
  obtain ⟨count, begun, rest, enough, rounds, breaks⟩ := stumbles
  obtain ⟨left, rfl⟩ := Nat.exists_eq_add_of_le' ((Nat.le_add_right _ _).trans enough)
  rw [stabilize_of_rounds rounds, stabilize_of_breaks breaks (by omega)]

end Adequacy

end Engine
end Statechart
