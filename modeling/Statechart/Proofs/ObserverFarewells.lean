import Statechart.Proofs.IdleInterpreters
import Statechart.Proofs.ObserverExpectations
import Statechart.Proofs.WorldCourses

/-!
# Farewells to the observers

What observers may expect comes true: a step tells nobody of the end, and neither do the
actors; only the end itself does, and it comes once.
-/

namespace Statechart

namespace Supervisor

variable {facilities : Facilities} {nursery : Nursery}
variable {before after : Supervisor Interpreter}

theorem Hears.ongoing
    (hears : before.Hears after) :
    Added Emission.isOngoing before.outbox after.outbox :=
  hears.outbox.mono Emission.isOngoing_of_actors

theorem Chore.ongoing
    (chore : Chore facilities nursery before after) :
    Added Emission.isOngoing before.outbox after.outbox := by
  cases chore with
  | keep envelope => exact .refl _
  | sendUp event => exact (hears_sendUp before event).ongoing
  | @reveal activity isOfStep =>
      refine .one _ ?_
      cases activity with
      | completed listener => cases isOfStep
      | _ => rfl
  | name stem => exact .refl _
  | dismiss id => exact (dismiss_turns before nursery .stopped id).ongoing
  | spawn order => exact (spawn_turns before facilities nursery order).ongoing

theorem Chores.ongoing
    (chores : Chores facilities nursery before after) :
    Added Emission.isOngoing before.outbox after.outbox := by
  induction chores with
  | refl => exact .refl _
  | tail _ last ih => exact ih.trans last.ongoing

end Supervisor

namespace Interpreter

/-- Nobody is told farewell, and whoever does not turn away stays. -/
structure Murmurs (before after : Interpreter) : Prop where
  board : before.board.Keeps after.board
  outbox : Added Emission.isOngoing before.supervisor.outbox after.supervisor.outbox

theorem Murmurs.refl (interpreter : Interpreter) : interpreter.Murmurs interpreter :=
  ⟨.refl _, .refl _⟩

theorem Murmurs.trans
    {first second third : Interpreter}
    (earlier : first.Murmurs second)
    (later : second.Murmurs third) :
    first.Murmurs third :=
  ⟨earlier.board.trans later.board, earlier.outbox.trans later.outbox⟩

section Murmuring

variable (interpreter : Interpreter) {facilities : Facilities} {nursery : Nursery}

theorem murmurs_of_outbox
    {before after : Interpreter}
    (board : after.board = before.board)
    (outbox : Added Emission.isOngoing before.supervisor.outbox after.supervisor.outbox) :
    before.Murmurs after :=
  ⟨board ▸ .refl _, outbox⟩

theorem Tells.murmurs
    {kind : Activity → Prop} {before after : Interpreter}
    (tells : Tells kind before after)
    (isOngoing : ∀ activity, kind activity → activity.isOngoing = true) :
    before.Murmurs after := by
  cases tells with
  | @reveal activity isOfKind =>
      have told : Emission.isOngoing (.activity [] activity) = true :=
        isOngoing activity isOfKind
      exact murmurs_of_outbox rfl (.one _ told)
  | react ticket reaction =>
      cases reaction with
      | unsubscribe => exact ⟨Board.keeps_cancel _ ticket, .refl _⟩
      | post event =>
          exact murmurs_of_outbox rfl
            (Supervisor.hears_post before.supervisor (.plain event)).ongoing
  | prune => exact ⟨Board.keeps_prune _, .refl _⟩

theorem Tellings.murmurs
    {kind : Activity → Prop} {before after : Interpreter}
    (tellings : Tellings kind before after)
    (isOngoing : ∀ activity, kind activity → activity.isOngoing = true) :
    before.Murmurs after :=
  fulfils_of_steps Murmurs.refl Murmurs.trans (fun tells => tells.murmurs isOngoing) tellings

theorem murmurs_publish : interpreter.Murmurs interpreter.publish := by
  refine (tellings_publish interpreter).murmurs ?_
  rintro _ ⟨listener, rfl⟩
  rfl

theorem murmurs_reported
    (event : Event) (handled : Bool) {bench : Workbench}
    (ongoing : Added Emission.isOngoing interpreter.supervisor.outbox bench.supervisor.outbox) :
    interpreter.Murmurs (interpreter.reported event handled bench) := by
  have kept : interpreter.Murmurs (interpreter.keepSupervisor bench) :=
    murmurs_of_outbox rfl ongoing
  refine kept.trans ((tellings_reported interpreter event handled bench).murmurs ?_)
  intro activity isReport
  cases activity <;> first | rfl | cases isReport

theorem tellEnd_eq
    (tell : Listener → Activity) :
    interpreter.tellEnd tell = interpreter.onSupervisor fun supervisor =>
      { supervisor with
        outbox := supervisor.outbox ++ interpreter.board.audience.map fun observer =>
          .activity [] (tell observer.listener) } := by
  have told : ∀ (observers : List Observer) (teller : Interpreter),
      observers.foldl (fun teller observer =>
        if teller.board.isActive observer.ticket && observer.listener.hearsEnd then
          teller.reveal (tell observer.listener)
        else teller) teller =
      teller.onSupervisor fun supervisor =>
        { supervisor with
          outbox := supervisor.outbox ++ (observers.filter fun observer =>
            teller.board.isActive observer.ticket && observer.listener.hearsEnd).map
              fun observer => .activity [] (tell observer.listener) } := by
    intro observers
    induction observers with
    | nil =>
        intro teller
        simp only [List.foldl_nil, List.filter_nil, List.map_nil, List.append_nil]
        cases teller
        rfl
    | cons observer observers ih =>
        intro teller
        rw [List.foldl_cons, ih]
        split
        · rename_i isTold
          simp [onSupervisor, reveal, Supervisor.reveal, Supervisor.emit, isTold]
        · rename_i notTold
          rw [List.filter_cons, if_neg notTold]
  exact told interpreter.board.observers interpreter

theorem murmurs_tellEnd
    {tell : Listener → Activity}
    (isOngoing : ∀ listener, (tell listener).isOngoing = true) :
    interpreter.Murmurs (interpreter.tellEnd tell) := by
  refine (tellings_tellEnd interpreter tell).murmurs ?_
  rintro _ ⟨listener, rfl⟩
  exact isOngoing listener

theorem complete_eq :
    interpreter.complete.board = interpreter.board.clear ∧
      interpreter.complete.supervisor.outbox = interpreter.supervisor.outbox ++
        interpreter.board.audience.map fun observer => .activity [] observer.farewell := by
  unfold complete
  dsimp only
  rw [tellEnd_eq]
  exact ⟨rfl, rfl⟩

/-- The interpreter goes on without a farewell, or a farewell is the last thing in it. -/
inductive Closes : Interpreter → Interpreter → Prop where
  | goesOn {before after : Interpreter} :
      before.Murmurs after → after.status.isTerminal = false → Closes before after
  | ends {before last : Interpreter} :
      before.Murmurs last → last.status.isTerminal = true → Closes before last.complete

theorem Murmurs.closes
    {before middle after : Interpreter}
    (murmurs : before.Murmurs middle)
    (closes : middle.Closes after) :
    before.Closes after := by
  cases closes with
  | goesOn later unended => exact .goesOn (murmurs.trans later) unended
  | ends later ended => exact .ends (murmurs.trans later) ended

theorem conclude_closes
    (event : Event) {status : Status}
    (ended : status.isTerminal = true) :
    interpreter.Closes (interpreter.conclude facilities nursery event status).2 := by
  have exited : interpreter.Murmurs ({ interpreter.commit ((interpreter.engine facilities
      nursery).exitAll event interpreter.bench).2 with status } : Interpreter).refresh :=
    murmurs_of_outbox rfl (Engine.toils_exitAll (interpreter.engine facilities nursery) event
      interpreter.bench).chores.ongoing
  refine .ends (exited.trans (murmurs_publish _)) ?_
  rw [(stays_publish _).status]
  exact ended

theorem fail_closes
    (facilities : Facilities) (failure : Failure) :
    interpreter.Closes (interpreter.fail nursery failure) := by
  let cleared := interpreter.onSupervisor fun supervisor => supervisor.stopAll nursery
  let refreshed := ({ cleared with status := .error } : Interpreter).refresh
  let failed := { refreshed with snapshot := { refreshed.snapshot with
    failure := some failure } }
  have chores : Supervisor.Chores facilities nursery interpreter.supervisor
      cleared.supervisor :=
    Supervisor.chores_stopWhere interpreter.supervisor fun _ => true
  have stopped : interpreter.Murmurs failed := murmurs_of_outbox rfl chores.ongoing
  have told : failed.Murmurs (failed.publish.tellEnd fun listener => .failed listener failure) :=
    (murmurs_publish failed).trans (murmurs_tellEnd _ fun _ => rfl)
  have status := ((stays_publish failed).trans
    (stays_tellEnd _ fun listener => .failed listener failure)).status
  refine .ends (stopped.trans told) ?_
  rw [status]
  rfl

theorem settle_closes
    (event : Event) (handled : Bool) {bench : Workbench}
    (unended : interpreter.status.isTerminal = false)
    (ongoing : Added Emission.isOngoing interpreter.supervisor.outbox bench.supervisor.outbox) :
    interpreter.Closes (interpreter.settle facilities nursery event handled bench) := by
  have reported := murmurs_reported interpreter event handled ongoing
  have taken : interpreter.Murmurs (interpreter.steppedTo event handled bench) :=
    ⟨reported.board, reported.outbox⟩
  rw [settle_eq]
  split
  · exact taken.closes (conclude_closes _ event rfl)
  · have shown : interpreter.Murmurs (interpreter.steppedTo event handled bench).refresh :=
      ⟨taken.board, taken.outbox⟩
    refine .goesOn (shown.trans (murmurs_publish _)) ?_
    rw [(stays_publish _).status]
    exact (congrArg Status.isTerminal
      (stays_reported interpreter event handled bench).status).trans unended

theorem abandon_closes
    (facilities : Facilities) (event : Event) (failure : Failure) {bench : Workbench}
    (ongoing : Added Emission.isOngoing interpreter.supervisor.outbox bench.supervisor.outbox) :
    interpreter.Closes (interpreter.abandon nursery event failure bench) := by
  have reported := murmurs_reported interpreter event true ongoing
  have shown : interpreter.Murmurs ((interpreter.reported event true bench).withLastEvent
      event) :=
    ⟨reported.board, reported.outbox⟩
  exact shown.closes (fail_closes _ facilities failure)

theorem run_closes
    {step : Engine → Event → StepM Bool}
    (event : Event)
    (unended : interpreter.status.isTerminal = false)
    (dutiful : Dutiful (interpreter.engine facilities nursery)
      (step (interpreter.engine facilities nursery) event)) :
    interpreter.Closes (leftBy (run facilities nursery event step) interpreter) := by
  apply Ends.leftBy
  have stepped := dutiful interpreter.bench
  rw [ends_iff_run] at stepped
  simp only [run, ends_bind, ends_get]
  split
  · rename_i handled bench ran
    exact settle_closes interpreter event handled unended
      (stepped.1 handled bench ran).chores.ongoing
  · rename_i failure bench ran
    exact abandon_closes interpreter facilities event failure
      (stepped.2 failure bench ran).chores.ongoing

theorem stop_closes
    (unended : interpreter.status.isTerminal = false) :
    interpreter.Closes (leftBy (stop facilities nursery) interpreter) := by
  apply Ends.leftBy
  simp only [stop, ends_bind, ends_get]
  split
  · have concluded : interpreter.Closes
        (interpreter.conclude facilities nursery Event.stop .stopped).2 :=
      conclude_closes interpreter Event.stop rfl
    simp only [stopRunning, ends_bind, ends_get, ends_set]
    split <;> exact concluded
  · exact .ends (murmurs_of_outbox rfl (.refl _)) rfl
  all_goals
    rename_i ended
    rw [ended] at unended
    cases unended

theorem resume_closes
    (event : Event)
    (running : interpreter.status = .running) :
    interpreter.Closes (interpreter.resume facilities nursery event) := by
  unfold resume
  split
  · have finished : interpreter.Murmurs ({ interpreter with status := .done } :
        Interpreter).refresh := murmurs_of_outbox rfl (.refl _)
    refine .ends (finished.trans (murmurs_publish _)) ?_
    rw [(stays_publish _).status]
    rfl
  · let bench := (interpreter.engine facilities nursery).resume event interpreter.bench
    have resumed : interpreter.Murmurs
        ((interpreter.commit bench).withLastEvent event).refresh :=
      murmurs_of_outbox rfl (Engine.toils_resume (interpreter.engine facilities nursery) event
        interpreter.bench).chores.ongoing
    refine .goesOn (resumed.trans (murmurs_publish _)) ?_
    rw [(stays_publish _).status]
    exact congrArg Status.isTerminal running

theorem receive_murmurs
    (envelope : Envelope) :
    interpreter.Murmurs (interpreter.receive nursery envelope).readied := by
  have handles : Handles nursery fun after => interpreter.Murmurs after :=
    { dismiss := fun middle status id _ murmurs => murmurs.trans
        (murmurs_of_outbox rfl
          (Supervisor.dismiss_turns middle.supervisor nursery status id).ongoing)
      deliver := fun middle id event murmurs => by
        obtain ⟨_, _, hears⟩ :=
          Supervisor.deliver_turns middle.supervisor nursery id event
        exact murmurs.trans (murmurs_of_outbox rfl hears.ongoing)
      wake := fun middle id murmurs => by
        obtain ⟨_, _, hears⟩ := Supervisor.wake_turns middle.supervisor nursery id
        exact murmurs.trans (murmurs_of_outbox rfl hears.ongoing)
      sendUp := fun middle event murmurs => murmurs.trans
        (murmurs_of_outbox rfl (Supervisor.hears_sendUp middle.supervisor event).ongoing) }
  exact handles.receive (.refl interpreter) envelope

theorem deal_closes
    (running : interpreter.status = .running) (envelope : Envelope) :
    interpreter.Closes (leftBy (dispatch facilities nursery envelope) interpreter) := by
  have unended : ∀ other : Interpreter, other.status = .running →
      other.status.isTerminal = false := fun _ runs => congrArg Status.isTerminal runs
  by_cases stops : envelope = .stop
  · subst stops
    exact stop_closes interpreter (unended _ running)
  · have received : interpreter.Murmurs
        (interpreter.receive nursery envelope).readied :=
      receive_murmurs interpreter envelope
    have stillRunning := (receive_alike nursery interpreter envelope).status.trans
      running
    rw [leftBy_dispatch interpreter stops]
    cases (interpreter.receive nursery envelope).heard with
    | none => exact .goesOn received (unended _ stillRunning)
    | some event =>
        exact received.closes (run_closes _ event (unended _ stillRunning)
          (Engine.macrostep_dutiful _ event))

end Murmuring

/-- What has come out of an interpreter and was seen of it. -/
def outlook (interpreter : Interpreter) : Outlook :=
  { ended := interpreter.status.isTerminal
    board := interpreter.board
    seen := interpreter.supervisor.outbox.filterMap Emission.seen? }

section Following

variable {before after : Interpreter} {facilities : Facilities} {nursery : Nursery}

theorem Murmurs.seen
    (murmurs : before.Murmurs after) :
    Added Activity.isOngoing before.outlook.seen after.outlook.seen := by
  obtain ⟨more, same, ongoing⟩ := murmurs.outbox
  refine ⟨more.filterMap Emission.seen?, ?_, fun activity member => ?_⟩
  · unfold outlook
    rw [same, List.filterMap_append]
  · obtain ⟨emission, isMember, seen⟩ := List.mem_filterMap.mp member
    exact Emission.seen_isOngoing (ongoing emission isMember) seen

theorem Closes.follows
    (closes : before.Closes after)
    (unended : before.status.isTerminal = false) :
    before.outlook.Follows after.outlook := by
  have wasUnended : before.outlook.ended ≠ true := by
    intro ended
    exact absurd (unended.symm.trans ended) (by decide)
  cases closes with
  | goesOn murmurs stillUnended =>
      exact
        { sound := murmurs.board.sound
          cancelled := murmurs.board.cancelled
          silent := fun ended => absurd ended wasUnended
          goesOn := fun _ => ⟨murmurs.seen, murmurs.board.stays⟩
          ends := fun _ ended => absurd (stillUnended.symm.trans ended) (by decide) }
  | @ends last murmurs ended =>
      obtain ⟨board, outbox⟩ := complete_eq last
      have boardAfter : last.complete.outlook.board = last.board.clear := board
      have endedAfter : last.complete.outlook.ended = true :=
        (congrArg Status.isTerminal (stays_complete last).status).trans ended
      have seen : last.complete.outlook.seen =
          last.outlook.seen ++ last.board.audience.map Observer.farewell := by
        have farewells : ∀ observers : List Observer,
            (observers.map fun observer => Emission.activity [] observer.farewell).filterMap
              Emission.seen? = observers.map Observer.farewell := by
          intro observers
          rw [List.filterMap_map]
          exact congrFun List.filterMap_eq_map observers
        change last.complete.supervisor.outbox.filterMap Emission.seen? = _
        rw [outbox, List.filterMap_append, farewells]
        rfl
      refine
        { sound := fun _ => boardAfter ▸ Board.sound_clear _
          cancelled := boardAfter ▸ murmurs.board.cancelled
          silent := fun ended => absurd ended wasUnended
          goesOn := fun stillUnended => absurd (endedAfter.symm.trans stillUnended) (by decide)
          ends := fun _ _ sound => ⟨_, last.board.audience, murmurs.seen, seen, ?_, ?_⟩ }
      · exact (murmurs.board.sound sound).distinct.sublist
          (List.filter_sublist.map Observer.ticket)
      · intro observer member hears loyal
        rw [boardAfter] at loyal
        refine List.mem_filter.mpr ⟨murmurs.board.stays observer member loyal, ?_⟩
        have isActive : last.board.isActive observer.ticket = true :=
          Board.isActive_iff.mpr loyal
        rw [isActive, hears]
        rfl

theorem follows_of_outlook
    (same : after.outlook = before.outlook) :
    before.outlook.Follows after.outlook :=
  same ▸ .refl _

theorem Pursuit.follows
    (pursuit : Pursuit facilities nursery before after) :
    before.outlook.Follows after.outlook := by
  have unended : before.status = .notStarted → before.status.isTerminal = false :=
    fun unstarted => congrArg Status.isTerminal unstarted
  have begun : ∀ {after : Interpreter},
      ({ before with status := .running } : Interpreter).Closes after →
        before.status = .notStarted → before.outlook.Follows after.outlook := by
    intro after closes unstarted
    have readied : before.Murmurs { before with status := .running } :=
      murmurs_of_outbox rfl (.refl _)
    exact (readied.closes closes).follows (unended unstarted)
  cases pursuit with
  | begin unstarted =>
      exact begun (run_closes { before with status := .running } _ rfl
        (Engine.firstStep_dutiful _ _)) unstarted
  | resume unstarted => exact begun (resume_closes _ _ rfl) unstarted
  | redeem =>
      rw [recallDeferred_eq]
      exact follows_of_outlook rfl
  | defer event => exact .refl _
  | keep envelope => exact .refl _
  | stop =>
      cases ended : before.status.isTerminal with
      | false => exact (stop_closes before ended).follows ended
      | true =>
          rw [stop_of_terminal ended]
          exact .refl _
  | clear ended => exact .refl _

theorem Advances.follows
    (advances : Advances facilities nursery before after) :
    before.outlook.Follows after.outlook := by
  induction advances with
  | refl => exact .refl _
  | @tail middle _ _ last ih =>
      refine ih.trans ?_
      cases last with
      | @deal taken envelope running found =>
          have toTaken := nextEnvelope?_elapses found
          have same : taken.outlook = middle.outlook := by rw [(nextEnvelope?_eq found).2]; rfl
          rw [← same]
          have stillRunning := toTaken.2.trans running
          exact (deal_closes taken stillRunning envelope).follows
            (congrArg Status.isTerminal stillRunning)
      | pursue pursuit => exact pursuit.follows

end Following

end Interpreter

namespace World

/-- What has been seen of the interpreter itself, as far as it was noted. -/
def seen (world : World) : List Activity :=
  world.log.filterMap fun sighting => Emission.seen? (.activity sighting.path sighting.activity)

def outlook (world : World) : Outlook :=
  { ended := world.interpreter.status.isTerminal
    board := world.interpreter.board
    seen := world.seen }

theorem attend_seen
    (world : World) (emission : Emission) :
    (world.attend emission).seen = world.seen ++ emission.seen?.toList := by
  cases emission with
  | activity path activity =>
      simp only [attend]
      unfold observe
      split
      · rename_i snapshot
        cases path <;> simp [seen, Emission.seen?]
      · cases isSeen : Emission.seen? (.activity path activity) <;> simp [seen, isSeen]
  | upward envelope => simp [attend, Emission.seen?]
  | commission path holder errand =>
      have same : (world.commission path holder errand).seen = world.seen := by
        obtain ⟨clock, tasks, same⟩ := commission_eq world path holder errand
        rw [same]
        rfl
      simp [attend, Emission.seen?, same]
  | revoke path holder =>
      simp only [attend, Emission.seen?, Option.toList, List.append_nil]
      rfl

theorem attendAll_seen
    (world : World) (emissions : List Emission) :
    (emissions.foldl attend world).seen = world.seen ++ emissions.filterMap Emission.seen? := by
  induction emissions generalizing world with
  | nil => exact (List.append_nil _).symm
  | cons emission emissions ih =>
      rw [List.foldl_cons, ih, attend_seen, List.append_assoc]
      cases isSeen : emission.seen? <;> simp [isSeen]

/-- All that came out of the interpreter has been attended to, and from then on those who
observe it are dealt with as they should be. -/
structure Follows (before after : World) : Prop where
  quiet : after.interpreter.supervisor.outbox = []
  outlook : before.outlook.Follows after.outlook

section Following

variable {before after world : World}

theorem perform_follows
    {answer : Type} {operation : Facilities → Nursery → Handling answer}
    (asked : Interpreter.Asked operation)
    (quiet : world.interpreter.supervisor.outbox = []) :
    world.Follows (world.perform operation).2 := by
  have advances := perform_advances asked world
  rw [perform_leaves]
  generalize leftBy (operation world.facilities world.nursery) world.interpreter = left
    at advances
  have same := takeUp_interpreter world left
  have seen : (world.takeUp left).seen = world.seen ++ left.outlook.seen :=
    attendAll_seen { world with interpreter := left.drained } _
  have before : world.outlook = world.interpreter.outlook.since world.seen := by
    unfold outlook Interpreter.outlook Outlook.since
    rw [quiet]
    simp
  have after : (world.takeUp left).outlook = left.outlook.since world.seen := by
    unfold outlook
    rw [same, seen]
    rfl
  refine ⟨by rw [same]; rfl, ?_⟩
  rw [before, after]
  exact advances.follows.since world.seen

theorem Change.follows
    (change : Change before after)
    (quiet : before.interpreter.supervisor.outbox = []) :
    before.Follows after := by
  rcases change_cases change with
    ⟨_, _, asked, rfl⟩ | ⟨_, _, _, accepted, rfl⟩ | ⟨board, alters, rfl⟩ | ⟨_, interpreter, log⟩
  · exact perform_follows asked quiet
  · obtain ⟨outbox, board⟩ := Interpreter.accept_outbox accepted
    have status := (Interpreter.accept_turns accepted).2.1
    refine ⟨outbox.trans quiet, ?_⟩
    unfold World.outlook
    rw [status, board]
    exact .refl _
  · exact
      { quiet := quiet
        outlook :=
          { sound := alters.keeps.sound
            cancelled := alters.keeps.cancelled
            silent := fun ended => ⟨ended, rfl⟩
            goesOn := fun _ => ⟨.refl _, alters.keeps.stays⟩
            ends := fun unended ended => absurd (unended.symm.trans ended) (by decide) } }
  · have outlook : after.outlook = before.outlook := by
      unfold World.outlook World.seen
      rw [interpreter, log]
    exact ⟨interpreter ▸ quiet, outlook ▸ .refl _⟩

/-- However much happens, those who observe the interpreter are dealt with as they should
be. -/
theorem Becomes.follows
    (becomes : before.Becomes after)
    (quiet : before.interpreter.supervisor.outbox = []) :
    before.Follows after := by
  induction becomes with
  | refl => exact ⟨quiet, .refl _⟩
  | tail _ last ih =>
      have later := last.follows ih.quiet
      exact ⟨later.quiet, ih.outlook.trans later.outlook⟩

end Following

end World

end Statechart
