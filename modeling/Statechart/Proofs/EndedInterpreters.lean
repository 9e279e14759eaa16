import Statechart.Definition.Compile
import Statechart.Proofs.ObserverFarewells
import Statechart.Proofs.TimersEndWithActors

/-!
# Interpreters that have ended

An interpreter that was stopped, is done or has failed takes everything that is asked of it
well, and does nothing: mail is taken in and thrown away, and apart from its mailbox it stays
what it was.  It has no actors, nothing comes out of it any more, and all who observed it to
its end have been told so, each once, as the last thing.
-/

namespace Statechart

namespace Interpreter

section Asking

variable (facilities : Facilities) (nursery : Nursery) {interpreter : Interpreter}

theorem start_of_started
    (started : interpreter.status ≠ .notStarted) :
    (start facilities nursery).run interpreter = .ok () interpreter := by
  unfold start
  rw [run_get_bind, if_neg started]
  rfl

theorem send_of_terminal
    (ended : interpreter.status.isTerminal = true) (event : Event) :
    (send facilities nursery event).run interpreter = .ok () interpreter := by
  unfold send
  rw [run_get_bind]
  cases status : interpreter.status with
  | notStarted => simp [status, Status.isTerminal] at ended
  | running => simp [status, Status.isTerminal] at ended
  | stopped => rfl
  | done => rfl
  | error => rfl

theorem drain_of_terminal
    (ended : interpreter.status.isTerminal = true) (patience handled : Nat) :
    (drain facilities nursery patience handled).run interpreter =
      .ok handled interpreter.clearInbox := by
  cases patience <;>
  · rw [drain, run_get_bind, if_pos ended]
    rfl

theorem flush_of_terminal
    (ended : interpreter.status.isTerminal = true) :
    (flush facilities nursery).run interpreter = .ok 0 interpreter.clearInbox := by
  unfold flush
  rw [run_get_bind, if_neg (Status.started_of_terminal ended)]
  exact drain_of_terminal facilities nursery ended _ 0

theorem tick_of_terminal
    (ended : interpreter.status.isTerminal = true) :
    (tick facilities nursery).run interpreter = .ok .idle interpreter.clearInbox := by
  unfold tick
  rw [run_get_bind, if_neg (Status.rests_of_terminal ended),
    run_bind_of_ok (flush_of_terminal facilities nursery ended)]
  rfl

/-- Whatever is asked of the interpreter it does well, at most by throwing away its mail. -/
structure Abides (interpreter : Interpreter) : Prop where
  start : (Interpreter.start facilities nursery).run interpreter = .ok () interpreter
  send : ∀ event,
    (Interpreter.send facilities nursery event).run interpreter = .ok () interpreter
  stop : (Interpreter.stop facilities nursery).run interpreter = .ok () interpreter
  flush : (Interpreter.flush facilities nursery).run interpreter =
    .ok 0 interpreter.clearInbox
  tick : (Interpreter.tick facilities nursery).run interpreter =
    .ok .idle interpreter.clearInbox

theorem abides_of_terminal
    (ended : interpreter.status.isTerminal = true) :
    interpreter.Abides facilities nursery where
  start := start_of_started facilities nursery (Status.started_of_terminal ended)
  send := send_of_terminal facilities nursery ended
  stop := stop_run_of_terminal ended
  flush := flush_of_terminal facilities nursery ended
  tick := tick_of_terminal facilities nursery ended

/-- The same interpreter with other mail. -/
def withInbox (inbox : List Envelope) (interpreter : Interpreter) : Interpreter :=
  interpreter.onSupervisor fun supervisor => { supervisor with inbox }

end Asking

end Interpreter

namespace Operation

/-- Is it what the holder of an interpreter does, or the passing of time? -/
inductive IsDirect : Operation → Prop where
  | start : IsDirect .start
  | send (event : Event) : IsDirect (.send event)
  | flush : IsDirect .flush
  | tick : IsDirect .tick
  | stop : IsDirect .stop
  | post (envelope : Envelope) : IsDirect (.post envelope)
  | advance (span : Duration) : IsDirect (.advance span)

end Operation

namespace World

/-- Apart from mail the interpreter is the same, and nothing has been seen. -/
structure Rests (before after : World) : Prop where
  facilities : after.facilities = before.facilities
  interpreter : ∃ inbox, after.interpreter = before.interpreter.withInbox inbox
  log : after.log = before.log
  shown : after.shown = before.shown

section Resting

variable {before after world : World}

theorem Rests.refl (world : World) : world.Rests world where
  facilities := rfl
  interpreter := ⟨world.interpreter.supervisor.inbox, by
    cases world.interpreter
    rfl⟩
  log := rfl
  shown := rfl

theorem Rests.trans
    {first second third : World}
    (earlier : first.Rests second)
    (later : second.Rests third) :
    first.Rests third where
  facilities := later.facilities.trans earlier.facilities
  interpreter := by
    obtain ⟨_, same⟩ := earlier.interpreter
    obtain ⟨inbox, sameAfter⟩ := later.interpreter
    exact ⟨inbox, by rw [sameAfter, same]; rfl⟩
  log := later.log.trans earlier.log
  shown := later.shown.trans earlier.shown

/-- The interpreter has ended; it has no actors, and all that came out has been attended
to. -/
structure Ended (world : World) : Prop where
  ended : world.interpreter.status.isTerminal = true
  vacant : world.interpreter.supervisor.registry.actors = []
  quiet : world.interpreter.supervisor.outbox = []

theorem Ended.rests
    (ended : before.Ended)
    (rests : before.Rests after) :
    after.Ended := by
  obtain ⟨inbox, same⟩ := rests.interpreter
  constructor
  all_goals rw [same]
  · exact ended.ended
  · exact ended.vacant
  · exact ended.quiet

theorem takeUp_rests
    {inbox : List Envelope}
    (quiet : world.interpreter.supervisor.outbox = []) :
    world.Rests (world.takeUp (world.interpreter.withInbox inbox)) := by
  have nothing : (world.interpreter.withInbox inbox).supervisor.outbox = [] := quiet
  have drained : (world.interpreter.withInbox inbox).drained =
      world.interpreter.withInbox inbox := by
    unfold Interpreter.drained
    rw [← nothing]
    rfl
  unfold takeUp
  rw [nothing, drained]
  exact ⟨rfl, ⟨inbox, rfl⟩, rfl, rfl⟩

theorem perform_rests
    {answer : Type} {operation : Facilities → Nursery → Handling answer} {given : answer}
    {left : Interpreter}
    (quiet : world.interpreter.supervisor.outbox = [])
    (ran : (operation world.facilities world.nursery).run world.interpreter = .ok given left)
    (same : ∃ inbox, left = world.interpreter.withInbox inbox) :
    (world.perform operation).1 = .ok given ∧ world.Rests (world.perform operation).2 := by
  obtain ⟨inbox, rfl⟩ := same
  unfold perform
  rw [ran]
  exact ⟨rfl, takeUp_rests quiet⟩

/-- Everything that is asked of the interpreter goes well, and nothing comes of it. -/
structure Obliges (world : World) : Prop where
  start : (world.perform Interpreter.start).1 = .ok () ∧
    world.Rests (world.perform Interpreter.start).2
  send : ∀ event,
    (world.perform fun facilities nursery => Interpreter.send facilities nursery event).1 =
        .ok () ∧
      world.Rests
        (world.perform fun facilities nursery => Interpreter.send facilities nursery event).2
  stop : (world.perform Interpreter.stop).1 = .ok () ∧
    world.Rests (world.perform Interpreter.stop).2
  flush : (world.perform Interpreter.flush).1 = .ok 0 ∧
    world.Rests (world.perform Interpreter.flush).2
  tick : (world.perform Interpreter.tick).1 = .ok .idle ∧
    world.Rests (world.perform Interpreter.tick).2

theorem Ended.obliges
    (ended : world.Ended) :
    world.Obliges := by
  have abides := Interpreter.abides_of_terminal world.facilities world.nursery ended.ended
  have asIs : ∃ inbox, world.interpreter = world.interpreter.withInbox inbox :=
    (Rests.refl world).interpreter
  exact
    { start := perform_rests ended.quiet abides.start asIs
      send := fun event => perform_rests ended.quiet (abides.send event) asIs
      stop := perform_rests ended.quiet abides.stop asIs
      flush := perform_rests ended.quiet abides.flush ⟨[], rfl⟩
      tick := perform_rests ended.quiet abides.tick ⟨[], rfl⟩ }

theorem rouse_rests
    (world : World) :
    world.Rests world.rouse := by
  unfold rouse
  split
  · exact ⟨rfl, (Rests.refl world).interpreter, rfl, rfl⟩
  · exact .refl world

theorem Ended.deliver_rests
    (ended : world.Ended) (posting : Posting) :
    world.Rests (world.deliver posting) := by
  unfold deliver
  split
  · exact .refl world
  · split
    · rename_i grown accepted
      suffices taken : world.Rests { world with interpreter := grown } from
        taken.trans (rouse_rests _)
      refine ⟨rfl, ?_, rfl, rfl⟩
      cases path : posting.path with
      | nil =>
          rw [path] at accepted
          obtain rfl := Option.some.inj accepted
          exact ⟨_, rfl⟩
      | cons origin path =>
          have vacant : world.interpreter.supervisor.registry.actor? origin.id = none := by
            unfold Registry.actor? Table.get?
            rw [ended.vacant]
            rfl
          simp [path, Interpreter.accept?, Registry.childMachine?, vacant] at accepted
    · exact .refl world

theorem Ended.deliverAll_rests
    {entry : Type} (ended : world.Ended) (posting : entry → Posting) (entries : List entry) :
    world.Rests (entries.foldl (fun world entry => world.deliver (posting entry)) world) := by
  induction entries generalizing world with
  | nil => exact .refl world
  | cons entry entries ih =>
      have delivered := ended.deliver_rests (posting entry)
      exact delivered.trans (ih (ended.rests delivered))

theorem Ended.act_rests
    {operation : Operation}
    (ended : world.Ended)
    (direct : operation.IsDirect) :
    world.Rests (world.act operation) := by
  have obliges := ended.obliges
  cases direct with
  | start => exact obliges.start.2
  | send event => exact (obliges.send event).2
  | flush => exact obliges.flush.2
  | tick => exact obliges.tick.2
  | stop => exact obliges.stop.2
  | post envelope =>
      simp only [act]
      unfold World.post
      split
      · exact .refl world
      · exact ended.deliver_rests { path := [], holder := none, envelope }
  | advance span =>
      have moved : world.Rests { world with clock := (world.clock.advance span).2 } :=
        ⟨rfl, (Rests.refl world).interpreter, rfl, rfl⟩
      exact moved.trans ((ended.rests moved).deliverAll_rests Prod.snd _)

theorem Ended.run_rests
    {operations : List Operation}
    (ended : world.Ended)
    (direct : ∀ operation ∈ operations, operation.IsDirect) :
    world.Rests (world.run operations) := by
  induction operations generalizing world with
  | nil => exact .refl world
  | cons operation operations ih =>
      have acted := ended.act_rests (direct operation List.mem_cons_self)
      exact acted.trans (ih (ended.rests acted)
        fun other member => direct other (List.mem_cons_of_mem _ member))

end Resting

end World

namespace Machine

open Interpreter in
/-- Whoever has ended, in whatever life, has no actors, does well whatever is asked of it and
does nothing but throw away its mail.  So in every run, from the end on, whatever is done
with the interpreter, it stays as it is, its snapshot included, and nothing more is seen of it
or of any actor.  And all observers that were there before the end and have not turned away
have been told of it, each once, after all else that was seen. -/
theorem ended_for_good
    (machine : Machine ActorLogic) (facilities : Facilities) :
    (∀ (nursery : Nursery) (start ended : Interpreter),
      start.Fresh → Passes facilities nursery start ended →
      ended.status.isTerminal = true →
        ended.supervisor.registry.actors = [] ∧ ended.Abides facilities nursery) ∧
    (∀ (start : Interpreter) (before after : List Operation) (world : World),
      Begins machine start → world = (World.around facilities start).run before →
      world.interpreter.status.isTerminal = true →
      (∀ operation ∈ after, operation.IsDirect) →
        world.Rests (world.run after) ∧ (world.run after).Obliges ∧
          (world.run after).interpreter.snapshot = world.interpreter.snapshot ∧
          (world.run after).interpreter.supervisor.registry.actors = []) ∧
    (∀ (start : Interpreter) (before after : List Operation) (first second : World),
      Begins machine start → first = (World.around facilities start).run before →
      second = first.run after → first.interpreter.status.isTerminal = false →
      second.interpreter.status.isTerminal = true →
        ∃ (told : List Activity) (farewelled : List Observer),
          second.seen = told ++ farewelled.map Observer.farewell ∧
          (∀ activity ∈ told, activity.isOngoing = true) ∧
          (farewelled.map Observer.ticket).Nodup ∧
          ∀ observer ∈ first.interpreter.board.observers,
            observer.listener.hearsEnd = true →
            observer.ticket ∉ second.interpreter.board.cancelled →
              observer ∈ farewelled) := by
  refine ⟨?_, ?_, ?_⟩
  · rintro nursery start ended fresh ⟨dealings, course⟩ terminal
    exact ⟨(course.settled fresh.settled fresh.balanced).vacant terminal,
      abides_of_terminal facilities nursery terminal⟩
  · rintro start before after world begins rfl terminal direct
    have becomes := World.becomes_run before (World.around facilities start)
    obtain ⟨_, _, _, reared⟩ := becomes.lives facilities begins
    have ended : ((World.around facilities start).run before).Ended :=
      ⟨terminal, reared.lived.settled.vacant terminal, (becomes.follows begins.quiet).quiet⟩
    have further := ended.run_rests direct
    obtain ⟨inbox, same⟩ := further.interpreter
    have endedAfter := ended.rests further
    exact ⟨further, endedAfter.obliges, by rw [same]; rfl, endedAfter.vacant⟩
  · rintro start before after first second begins rfl rfl unended ended
    have toFirst := World.becomes_run before (World.around facilities start)
    have follows := toFirst.follows begins.quiet
    have onward := (World.becomes_run after ((World.around facilities start).run
      before)).follows follows.quiet
    have unseen : (World.around facilities start).outlook.seen = [] := rfl
    have sound : (World.around facilities start).outlook.board.Sound := by
      change start.board.Sound
      rw [begins.idle.2.2.2]
      exact Board.sound_empty
    obtain ⟨seen, _⟩ := follows.outlook.goesOn unended
    obtain ⟨told, farewelled, added, same, distinct, complete⟩ :=
      onward.outlook.ends unended ended (follows.outlook.sound sound)
    obtain ⟨more, all, ongoing⟩ := seen.trans added
    rw [unseen, List.nil_append] at all
    exact ⟨told, farewelled, same, all ▸ ongoing, distinct, complete⟩

end Machine

namespace MachineSpec

/-- A root that notes an event and its own exit. -/
def lodger : MachineSpec ActorLogic :=
  { root := .mk
      { key := "m"
        entry := [.spawn (some "w") (.callback fun _ =>
          { commands := [.later (.ofMillis 10) (Event.named "LATE")] }) none]
        transitions := [(.on "E", { actions := [.log none fun _ _ => "got"] })]
        exit := [.log none fun _ _ => "bye"] }
      []
    context := some fun _ => .null }

open Interpreter in
/-- The lodger is stopped while it is observed.  Whatever is asked of it then, and though the
event of its callback comes late, it does nothing, and its observer was told of the end
once. -/
theorem ended_for_good_lodger :
    let machine : Machine ActorLogic := lodger.machine fun _ => .null
    let facilities : Facilities := ⟨false, true, 1000⟩
    let start := create machine {}
    let began : List Operation := [.subscribe (.observer "o") fun _ => [], .start]
    let after : List Operation :=
      [.post (Envelope.plain (Event.named "E")), .post .stop, .start, .advance (.ofMillis 20),
       .send (Event.named "E"), .flush, .tick, .stop]
    let first := (World.around facilities start).run began
    let world := (World.around facilities start).run (began ++ [.stop])
    lodger.build = .ok machine ∧ first.interpreter.status = .running ∧
      world.interpreter.status = .stopped ∧ ⟨[], .logged "m" none "bye"⟩ ∈ world.log ∧
      world.Rests (world.run after) ∧
      (world.run after).interpreter.snapshot = world.interpreter.snapshot ∧
      first.interpreter.board.observers.map Observer.ticket = [0] ∧
      (world.seen.filter fun activity => !activity.isOngoing) = [.completed (.observer "o")] ∧
      ∃ (told : List Activity) (farewelled : List Observer),
        world.seen = told ++ farewelled.map Observer.farewell ∧
        (farewelled.map Observer.ticket).Nodup ∧
        ∀ observer ∈ first.interpreter.board.observers, observer ∈ farewelled := by
  intro machine facilities start began after first world
  obtain ⟨_, rest, farewells⟩ := Machine.ended_for_good machine facilities
  have begins : Begins machine start := .of_create machine {}
  have direct : ∀ operation ∈ after, operation.IsDirect := by
    simp only [after, List.mem_cons, List.not_mem_nil, or_false]
    rintro operation (rfl | rfl | rfl | rfl | rfl | rfl | rfl | rfl) <;> constructor
  have ended : world.interpreter.status.isTerminal = true := by decide +kernel
  have unended : first.interpreter.status.isTerminal = false := by decide +kernel
  have later : world = first.run [.stop] := World.run_append _ began [.stop]
  obtain ⟨rests, _, snapshot, _⟩ := rest start _ after world begins rfl ended direct
  obtain ⟨told, farewelled, seen, _, distinct, complete⟩ :=
    farewells start began [.stop] first world begins rfl later unended ended
  have hearers : first.interpreter.board.observers.all (fun observer =>
      observer.listener.hearsEnd && !world.interpreter.board.cancelled.contains
        observer.ticket) = true := by decide +kernel
  refine ⟨build_of_faultless (by decide +kernel) rfl, by decide +kernel, by decide +kernel,
    by decide +kernel, rests, snapshot, by decide +kernel, by decide +kernel,
    told, farewelled, seen, distinct, fun observer member => ?_⟩
  have hearer := List.all_eq_true.mp hearers observer member
  simp only [Bool.and_eq_true, Bool.not_eq_true', List.contains_eq_mem,
    decide_eq_false_iff_not] at hearer
  exact complete observer member hearer.1 hearer.2

end MachineSpec

end Statechart
