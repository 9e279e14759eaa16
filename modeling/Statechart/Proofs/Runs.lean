import Statechart.Proofs.Changes
import Statechart.Proofs.Operations

/-!
# Runs

Whatever was seen of the interpreter itself during a run fits its status, so the log of a
world tells a chronicle.
-/

namespace Statechart

namespace World

/-- The states that the interpreter itself entered and left and the snapshots that it
showed, as far as they were seen. -/
def account (world : World) : List Activity :=
  world.log.filterMap fun sighting =>
    Emission.told? (.activity sighting.path sighting.activity)

/-- What was seen of the interpreter fits its status; `entered` says that its first step
is known to have been taken. -/
def Accounted (machine : Machine ActorLogic) (entered : Prop) (world : World) : Prop :=
  ∃ told, world.interpreter.Accounted machine { account := told, entered } ∧
    world.interpreter.supervisor.account = [] ∧
    visitsIn world.account = visitsIn told ∧
    ∀ snapshot, ShownIn world.account snapshot → ShownIn told snapshot

section Keeping

variable {machine : Machine ActorLogic} {entered : Prop} {before after : World}

theorem Accounted.silent
    (accounted : before.Accounted machine entered)
    (silent : before.interpreter.Silent after.interpreter)
    (sameLog : after.log = before.log) :
    after.Accounted machine entered := by
  obtain ⟨told, fits, quiet, visits, shown⟩ := accounted
  have sameAccount : after.account = before.account := by
    rw [account, sameLog]
    rfl
  exact ⟨told, fits.silent silent, silent.account.trans quiet, sameAccount ▸ visits,
    sameAccount ▸ shown⟩

theorem Accounted.around
    (accounted : before.Accounted machine entered)
    (sameInterpreter : after.interpreter = before.interpreter)
    (sameLog : after.log = before.log) :
    after.Accounted machine entered :=
  accounted.silent (sameInterpreter ▸ Interpreter.Silent.refl _) sameLog

/-- Attending to an emission notes what it tells; only a snapshot shown to the handle is
not noted. -/
theorem attend_account
    (world : World) (emission : Emission) :
    visitsIn (world.attend emission).account =
        visitsIn (world.account ++ emission.told?.toList) ∧
      ∀ snapshot, ShownIn (world.attend emission).account snapshot →
        ShownIn (world.account ++ emission.told?.toList) snapshot := by
  cases emission with
  | activity path activity =>
      simp only [attend]
      unfold observe
      split
      · rename_i snapshot
        constructor
        · cases path <;> simp [account, visitsIn, Emission.told?, Activity.isVisit]
        · intro other shown
          exact shownIn_append.mpr (.inl shown)
      · have noted : World.account { world with log := world.log ++ [{ path, activity }] } =
            world.account ++ (Emission.told? (.activity path activity)).toList := by
          cases told : Emission.told? (.activity path activity) <;>
            simp [account, told]
        rw [noted]
        exact ⟨rfl, fun _ shown => shown⟩
  | upward envelope => simp [attend, Emission.told?]
  | commission path holder errand =>
      have same : (world.commission path holder errand).account = world.account := by
        obtain ⟨clock, tasks, same⟩ := commission_eq world path holder errand
        rw [same]
        rfl
      simp [attend, Emission.told?, same]
  | revoke path holder =>
      simp only [attend, Emission.told?, Option.toList, List.append_nil]
      exact ⟨rfl, fun _ shown => shown⟩

theorem attendAll_account
    (world : World) (emissions : List Emission) :
    visitsIn (emissions.foldl attend world).account =
        visitsIn (world.account ++ emissions.filterMap Emission.told?) ∧
      (∀ snapshot, ShownIn (emissions.foldl attend world).account snapshot →
        ShownIn (world.account ++ emissions.filterMap Emission.told?) snapshot) ∧
      (emissions.foldl attend world).interpreter = world.interpreter := by
  induction emissions generalizing world with
  | nil => simp
  | cons emission emissions ih =>
      obtain ⟨visits, shown, same⟩ := ih (world.attend emission)
      obtain ⟨visitsHere, shownHere⟩ := attend_account world emission
      have told : (emission :: emissions).filterMap Emission.told? =
          emission.told?.toList ++ emissions.filterMap Emission.told? := by
        cases isTold : emission.told? <;> simp [isTold]
      rw [List.foldl_cons, told, ← List.append_assoc]
      refine ⟨?_, ?_, same.trans (attend_interpreter world emission)⟩
      · rw [visits, visitsIn_append, visitsHere, ← visitsIn_append]
      · intro snapshot isShown
        rcases shownIn_append.mp (shown snapshot isShown) with here | later
        · exact shownIn_append.mpr (.inl (shownHere snapshot here))
        · exact shownIn_append.mpr (.inr later)

end Keeping

/-- An operation after which every interpreter is accounted for that was so before. -/
def Sustains {answer : Type} (machine : Machine ActorLogic)
    (operation : Facilities → Nursery → Handling answer) : Prop :=
  ∀ (past : Interpreter.Past) (facilities : Facilities) (nursery : Nursery)
    (interpreter : Interpreter),
    interpreter.Accounted machine past →
      Ends (operation facilities nursery) interpreter
        (fun _ after => after.Accounted machine past)
        (fun _ after => after.Accounted machine past)

section Operating

variable {machine : Machine ActorLogic} {entered : Prop} {world : World}

theorem drained_accounted
    {told : List Activity} {interpreter : Interpreter}
    (fits : interpreter.Accounted machine { account := told, entered }) :
    interpreter.drained.Accounted machine
      { account := told ++ interpreter.supervisor.account, entered } := by
  have nothing : told ++ interpreter.supervisor.account ++
      interpreter.drained.supervisor.account = told ++ interpreter.supervisor.account :=
    List.append_nil _
  refine
    { runs := fits.runs
      fresh := fits.fresh
      shows := fits.shows
      standing := ?_
      published := ?_ }
  · rw [nothing]
    exact fits.standing.alike ⟨rfl, rfl, rfl, rfl, rfl⟩
  · rw [nothing]
    exact fun snapshot shown =>
      (fits.published snapshot shown).alike ⟨rfl, rfl, rfl, rfl, rfl⟩

theorem takeUp_accounted
    {told : List Activity} {interpreter : Interpreter}
    (fits : interpreter.Accounted machine { account := told, entered })
    (visits : visitsIn world.account = visitsIn told)
    (shown : ∀ snapshot, ShownIn world.account snapshot → ShownIn told snapshot) :
    (world.takeUp interpreter).Accounted machine entered := by
  obtain ⟨visitsAfter, shownAfter, same⟩ := attendAll_account
    { world with interpreter := interpreter.drained } interpreter.supervisor.outbox
  have taken := takeUp_interpreter world interpreter
  refine ⟨told ++ interpreter.supervisor.account, ?_, ?_, ?_, ?_⟩
  · rw [taken]
    exact drained_accounted fits
  · rw [taken]
    rfl
  · refine visitsAfter.trans ?_
    rw [visitsIn_append, visitsIn_append]
    exact congrArg (· ++ _) visits
  · intro snapshot isShown
    rcases shownIn_append.mp (shownAfter snapshot isShown) with before | now
    · exact shownIn_append.mpr (.inl (shown snapshot before))
    · exact shownIn_append.mpr (.inr now)

theorem perform_accounted
    {answer : Type} {operation : Facilities → Nursery → Handling answer}
    (sustains : Sustains machine operation)
    (accounted : world.Accounted machine entered) :
    (world.perform operation).2.Accounted machine entered := by
  obtain ⟨told, fits, _, visits, shown⟩ := accounted
  rw [perform_leaves]
  exact takeUp_accounted (sustains { account := told, entered } world.facilities world.nursery
    world.interpreter fits).leftBy visits shown

end Operating

section Surroundings

variable {machine : Machine ActorLogic} (formed : machine.WellFormed)
variable {entered : Prop} {world : World}

theorem accept_silent
    {envelope : Envelope} {path : List Origin} {before after : Interpreter}
    (accepted : Interpreter.accept? envelope path before = some after) :
    before.Silent after := by
  cases path with
  | nil =>
      obtain rfl := Option.some.inj accepted
      exact Interpreter.silent_onSupervisor before rfl
  | cons origin path =>
      obtain ⟨child, reported, grown, _, _, rfl⟩ := Interpreter.accept?_cons.mp accepted
      exact Interpreter.silent_onSupervisor before rfl

include formed

theorem sustains_asked
    {answer : Type} {operation : Facilities → Nursery → Handling answer}
    (asked : Interpreter.Asked operation) :
    Sustains machine operation := by
  intro past facilities nursery interpreter fits
  cases asked with
  | start => exact Interpreter.start_ends formed facilities nursery fits
  | send event => exact Interpreter.send_ends formed facilities nursery event fits
  | flush => exact Interpreter.flush_ends formed facilities nursery fits
  | tick => exact Interpreter.tick_ends formed facilities nursery fits
  | stop =>
      exact (Interpreter.stop_ends facilities nursery fits).mono
        (fun _ _ begun => begun.toAccounted) (fun _ _ begun => begun.toAccounted)

theorem Change.accounted
    {before after : World}
    (change : Change before after)
    (accounted : before.Accounted machine entered) :
    after.Accounted machine entered := by
  rcases change_cases change with
    ⟨_, _, asked, rfl⟩ | ⟨_, _, _, accepted, rfl⟩ | ⟨_, _, rfl⟩ | ⟨_, interpreter, log⟩
  · exact perform_accounted (sustains_asked formed asked) accounted
  · exact accounted.silent (accept_silent accepted) rfl
  · exact accounted.silent ⟨⟨rfl, rfl, rfl, rfl, rfl⟩, rfl⟩ rfl
  · exact accounted.around interpreter log

end Surroundings

section Running

variable {machine : Machine ActorLogic} (formed : machine.WellFormed)
variable {entered : Prop} {world : World}

include formed

theorem run_accounted
    (operations : List Operation)
    (accounted : world.Accounted machine entered) :
    (world.run operations).Accounted machine entered :=
  (becomes_run operations world).keeps (fun change => change.accounted formed) accounted

omit formed in
theorem around_accounted
    (machine : Machine ActorLogic) (facilities : Facilities) (settings : Settings) :
    (World.around facilities (Interpreter.create machine settings)).Accounted machine
      False := by
  refine ⟨[], ?_, rfl, rfl, fun _ shown => shown⟩
  exact
    { runs := rfl
      fresh := rfl
      shows := ⟨rfl, rfl, rfl, rfl⟩
      standing := .unstarted not_false rfl rfl rfl rfl
      published := by
        rintro snapshot ⟨listener, member⟩
        cases member }

/-- Whatever was done with a new interpreter, what was seen of it fits its status. -/
theorem run_of_create_accounted
    (facilities : Facilities) (settings : Settings) (operations : List Operation) :
    ((World.around facilities (Interpreter.create machine settings)).run
      operations).Accounted machine False :=
  run_accounted formed operations (around_accounted machine facilities settings)

end Running

section Reaching

variable {machine : Machine ActorLogic} {world : World}

theorem Accounted.enter
    {entered : Prop}
    (accounted : world.Accounted machine entered)
    (hasEntered : world.interpreter.snapshot.HasEntered) :
    world.Accounted machine True := by
  obtain ⟨told, fits, rest⟩ := accounted
  exact ⟨told, fits.enter hasEntered, rest⟩

/-- After the first step, all that is and was shown is something that the machine
reaches. -/
theorem Accounted.reaches
    (accounted : world.Accounted machine True)
    {snapshot : Snapshot}
    (shown : snapshot = world.interpreter.snapshot ∨ ShownIn world.account snapshot) :
    machine.Reaches snapshot.active snapshot.history := by
  obtain ⟨told, fits, _, _, known⟩ := accounted
  rcases shown with rfl | shown
  · exact fits.reaches
  · rcases fits.published snapshot (shownIn_append.mpr (.inl (known snapshot shown))) with
      reached | ⟨early, _⟩
    · exact reached
    · exact absurd trivial early

end Reaching

end World

end Statechart
