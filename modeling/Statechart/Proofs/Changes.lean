import Mathlib.Logic.Relation
import Mathlib.Tactic.SplitIfs
import Statechart.Proofs.Outcomes
import Statechart.Simulation.Handles

/-!
# What happens in a world

A run does one thing after another with a world: start, send, deal with mail, stop, let
time pass.  However much comes of one of these, it is a sequence of a few changes: the
interpreter is asked for something, mail is put into a mailbox, time passes, a task goes
on.  What holds of every change holds of every run.
-/

namespace Statechart

/-- An observer comes, or one turns away. -/
inductive Board.Alters : Board → Board → Prop where
  | subscribe (board : Board) (listener : Listener) (react : Snapshot → List Reaction) :
      Alters board (board.subscribe listener react)
  | cancel (board : Board) (ticket : Nat) : Alters board (board.cancel ticket)

namespace Interpreter

/-- What an interpreter can be asked for. -/
inductive Asked : {answer : Type} → (Facilities → Nursery → Handling answer) → Prop where
  | start : Asked start
  | send (event : Event) : Asked fun facilities nursery => send facilities nursery event
  | flush : Asked flush
  | tick : Asked tick
  | stop : Asked stop

end Interpreter

namespace World

/-- One thing that happens in a world. -/
inductive Change : World → World → Prop where
  | start (world : World) : Change world (world.perform Interpreter.start).2
  | send (world : World) (event : Event) :
      Change world
        (world.perform fun facilities nursery => Interpreter.send facilities nursery event).2
  | flush (world : World) : Change world (world.perform Interpreter.flush).2
  | tick (world : World) : Change world (world.perform Interpreter.tick).2
  | stop (world : World) : Change world (world.perform Interpreter.stop).2
  /-- Mail comes for the interpreter or for a machine below it. -/
  | accept {world : World} {interpreter : Interpreter} (envelope : Envelope)
      (path : List Origin) :
      Interpreter.accept? envelope path world.interpreter = some interpreter →
      Change world { world with interpreter }
  | watch {world : World} {board : Board} :
      world.interpreter.board.Alters board →
      Change world { world with interpreter := { world.interpreter with board } }
  /-- The clock moves; what was due is no longer set. -/
  | elapse (world : World) (span : Duration) :
      Change world { world with clock := (world.clock.advance span).2 }
  /-- Time passes for the tasks. -/
  | pass (world : World) (target : Duration) : Change world (world.passTo target)
  /-- The first task that is ready runs as far as it can. -/
  | proceed {world : World} {task : Task} {resumed : Bool} {ready : List Turn} :
      world.tasks.ready = .task task resumed :: ready →
      Change world
        { world with
          tasks := (Tasks.proceed { world.tasks with ready } task task.steps resumed).2 }
  /-- The interpreter's task has its turn. -/
  | call {world : World} {ready : List Turn} :
      world.tasks.ready = .interpreter :: ready →
      Change world { world with tasks := { world.tasks with ready } }
  /-- The interpreter's task gets another turn. -/
  | summon (world : World) (stage : Stage) :
      Change world { world with stage, tasks := world.tasks.enqueue .interpreter }
  | stage (world : World) (stage : Stage) : Change world { world with stage }
  | display (world : World) (shown : Snapshot) : Change world { world with shown }
  /-- An observer turns away from an interpreter that was replaced. -/
  | forget (world : World) (retired : List Interpreter) : Change world { world with retired }

/-- The right world comes from the left one by changes. -/
abbrev Becomes : World → World → Prop :=
  Relation.ReflTransGen Change

/-- What every change keeps is kept. -/
theorem Becomes.keeps
    {good : World → Prop} {before after : World}
    (becomes : before.Becomes after)
    (change : ∀ {before after : World}, Change before after → good before → good after)
    (isGood : good before) :
    good after := by
  induction becomes with
  | refl => exact isGood
  | tail _ last ih => exact change last ih

theorem change_ask
    {answer : Type} {operation : Facilities → Nursery → Handling answer}
    (asked : Interpreter.Asked operation) (world : World) :
    Change world (world.perform operation).2 := by
  cases asked with
  | start => exact .start world
  | send event => exact .send world event
  | flush => exact .flush world
  | tick => exact .tick world
  | stop => exact .stop world

/-- The interpreter is asked for something, mail comes for it, observers come or go, or nothing
happens to it and nothing is seen of it. -/
theorem change_cases
    {before after : World}
    (change : before.Change after) :
    (∃ (answer : Type) (operation : Facilities → Nursery → Handling answer),
      Interpreter.Asked operation ∧ after = (before.perform operation).2) ∨
    (∃ envelope path interpreter,
      Interpreter.accept? envelope path before.interpreter = some interpreter ∧
        after = { before with interpreter }) ∨
    (∃ board, before.interpreter.board.Alters board ∧
      after = { before with interpreter := { before.interpreter with board } }) ∨
    after.facilities = before.facilities ∧ after.interpreter = before.interpreter ∧
      after.log = before.log := by
  cases change with
  | start => exact .inl ⟨_, _, .start, rfl⟩
  | send event => exact .inl ⟨_, _, .send event, rfl⟩
  | flush => exact .inl ⟨_, _, .flush, rfl⟩
  | tick => exact .inl ⟨_, _, .tick, rfl⟩
  | stop => exact .inl ⟨_, _, .stop, rfl⟩
  | accept envelope path accepted => exact .inr (.inl ⟨envelope, path, _, accepted, rfl⟩)
  | watch alters => exact .inr (.inr (.inl ⟨_, alters, rfl⟩))
  | elapse span => exact .inr (.inr (.inr ⟨rfl, rfl, rfl⟩))
  | pass target => exact .inr (.inr (.inr ⟨rfl, rfl, rfl⟩))
  | proceed first => exact .inr (.inr (.inr ⟨rfl, rfl, rfl⟩))
  | call first => exact .inr (.inr (.inr ⟨rfl, rfl, rfl⟩))
  | summon stage => exact .inr (.inr (.inr ⟨rfl, rfl, rfl⟩))
  | stage stage => exact .inr (.inr (.inr ⟨rfl, rfl, rfl⟩))
  | display shown => exact .inr (.inr (.inr ⟨rfl, rfl, rfl⟩))
  | forget retired => exact .inr (.inr (.inr ⟨rfl, rfl, rfl⟩))

/-- Whether an operation goes well or fails, what it leaves is taken up. -/
theorem perform_leaves
    {answer : Type} (operation : Facilities → Nursery → Handling answer) (world : World) :
    (world.perform operation).2 =
      world.takeUp (leftBy (operation world.facilities world.nursery) world.interpreter) := by
  unfold perform leftBy
  cases (operation world.facilities world.nursery).run world.interpreter <;> rfl

/-- An errand concerns the clock and the tasks alone. -/
theorem commission_eq
    (world : World) (path : List Origin) (holder : Option Origin) (errand : Errand) :
    ∃ clock tasks, world.commission path holder errand = { world with clock, tasks } := by
  cases errand with
  | alarm delay envelope =>
      unfold commission
      split_ifs
      · exact ⟨_, _, rfl⟩
      · exact ⟨_, _, rfl⟩
      · exact ⟨_, _, rfl⟩
  | script steps => exact ⟨_, _, rfl⟩

theorem attend_interpreter
    (world : World) (emission : Emission) :
    (world.attend emission).interpreter = world.interpreter := by
  cases emission with
  | activity path activity =>
      simp only [attend]
      unfold observe
      split <;> rfl
  | upward envelope => rfl
  | commission path holder errand =>
      obtain ⟨clock, tasks, same⟩ := commission_eq world path holder errand
      rw [attend, same]
  | revoke path holder => rfl

theorem attendAll_interpreter
    (world : World) (emissions : List Emission) :
    (emissions.foldl attend world).interpreter = world.interpreter := by
  induction emissions generalizing world with
  | nil => rfl
  | cons emission emissions ih => exact (ih _).trans (attend_interpreter world emission)

theorem takeUp_interpreter
    (world : World) (interpreter : Interpreter) :
    (world.takeUp interpreter).interpreter = interpreter.drained :=
  attendAll_interpreter { world with interpreter := interpreter.drained } _

theorem attend_facilities
    (world : World) (emission : Emission) :
    (world.attend emission).facilities = world.facilities := by
  cases emission with
  | activity path activity =>
      simp only [attend]
      unfold observe
      split <;> rfl
  | upward envelope => rfl
  | commission path holder errand =>
      obtain ⟨clock, tasks, same⟩ := commission_eq world path holder errand
      rw [attend, same]
  | revoke path holder => rfl

theorem attend_stage
    (world : World) (emission : Emission) :
    (world.attend emission).stage = world.stage := by
  cases emission with
  | activity path activity =>
      simp only [attend]
      unfold observe
      split <;> rfl
  | upward envelope => rfl
  | commission path holder errand =>
      obtain ⟨clock, tasks, same⟩ := commission_eq world path holder errand
      rw [attend, same]
  | revoke path holder => rfl

theorem attendAll_stage
    (world : World) (emissions : List Emission) :
    (emissions.foldl attend world).stage = world.stage := by
  induction emissions generalizing world with
  | nil => rfl
  | cons emission emissions ih => exact (ih _).trans (attend_stage world emission)

theorem perform_of_run
    {answer : Type} {operation : Facilities → Nursery → Handling answer} {world : World}
    {given : answer} {left : Interpreter}
    (ran : (operation world.facilities world.nursery).run world.interpreter = .ok given left) :
    world.perform operation = (.ok given, world.takeUp left) := by
  unfold perform
  rw [ran]

theorem perform_eq_ok
    {answer : Type} {operation : Facilities → Nursery → Handling answer} {world : World}
    {given : answer}
    (well : (world.perform operation).1 = .ok given) :
    ∃ left, (operation world.facilities world.nursery).run world.interpreter = .ok given left ∧
      (world.perform operation).2.interpreter = left.drained := by
  unfold perform at well ⊢
  cases ran : (operation world.facilities world.nursery).run world.interpreter with
  | ok answer left =>
      rw [ran] at well
      obtain rfl := Except.ok.inj well
      exact ⟨left, rfl, takeUp_interpreter world left⟩
  | error failure left =>
      rw [ran] at well
      cases well

section Becoming

variable (world : World)

theorem becomes_rouse : world.Becomes world.rouse := by
  unfold rouse
  split
  · exact .single (.summon world .queued)
  · exact .refl

theorem becomes_deliver
    (posting : Posting) :
    world.Becomes (world.deliver posting) := by
  unfold deliver
  split
  · exact .refl
  · split
    · rename_i interpreter accepted
      have taken : world.Becomes { world with interpreter } := .single (.accept _ _ accepted)
      exact taken.trans (becomes_rouse _)
    · exact .refl

theorem becomes_deliverAll
    {item : Type} (posting : item → Posting) (items : List item) :
    world.Becomes (items.foldl (fun world item => world.deliver (posting item)) world) := by
  induction items generalizing world with
  | nil => exact .refl
  | cons item items ih => exact (becomes_deliver world (posting item)).trans (ih _)

theorem becomes_post
    (envelope : Envelope) :
    world.Becomes (world.post envelope).2 := by
  unfold post
  split
  · exact .refl
  · exact becomes_deliver world ⟨[], none, envelope⟩

theorem becomes_advance
    (span : Duration) :
    world.Becomes (world.advance span) := by
  have moved : world.Becomes { world with clock := (world.clock.advance span).2 } :=
    .single (.elapse world span)
  exact moved.trans (becomes_deliverAll _ Prod.snd (world.clock.advance span).1)

theorem becomes_serveMail
    (patience : Nat) :
    world.Becomes (serveMail patience world) := by
  induction patience generalizing world with
  | zero => exact .single (.stage world _)
  | succ patience ih =>
      have ticked : world.Becomes (world.perform Interpreter.tick).2 := .single (.tick world)
      unfold serveMail
      split
      · exact .single (.stage world _)
      · generalize world.perform Interpreter.tick = outcome at ticked ⊢
        split
        · exact ticked.tail (.stage _ _)
        · exact ticked.tail (.stage _ _)
        · exact ticked.tail (.stage _ _)
        · exact ticked.trans (ih _)

theorem becomes_takeTurn : world.Becomes world.takeTurn := by
  unfold takeTurn
  split
  · have watched : world.Becomes world.withHandle := .single (.watch (.subscribe _ _ _))
    have started : world.Becomes (world.withHandle.perform Interpreter.start).2 :=
      watched.tail (.start world.withHandle)
    generalize world.withHandle.perform Interpreter.start = outcome at started ⊢
    split
    · exact started.tail (.stage _ _)
    · exact started.trans (becomes_serveMail _ _)
  · exact becomes_serveMail world _
  · exact .single (.stage world _)
  · exact .refl

theorem becomes_runFirst
    {after : World}
    (ran : world.runFirst? = some after) :
    world.Becomes after := by
  unfold runFirst? at ran
  split at ran
  · cases ran
  · rename_i ready first
    split at ran
    · obtain rfl := Option.some.inj ran
      exact .trans (.single (.proceed first)) (becomes_deliverAll _ (fun posting => posting) _)
    · obtain rfl := Option.some.inj ran
      exact .trans (.single (.call first)) (becomes_takeTurn _)

theorem becomes_runReadyWithin
    (patience : Nat) :
    world.Becomes (runReadyWithin patience world) := by
  induction patience generalizing world with
  | zero => exact .refl
  | succ patience ih =>
      unfold runReadyWithin
      split
      · exact .refl
      · rename_i after ran
        exact (becomes_runFirst world ran).trans (ih after)

theorem becomes_runReady : world.Becomes world.runReady :=
  becomes_runReadyWithin world _

theorem becomes_sleepUntilWithin
    (target : Duration) (patience : Nat) :
    world.Becomes (sleepUntilWithin target patience world) := by
  induction patience generalizing world with
  | zero => exact .refl
  | succ patience ih =>
      have ran := becomes_runReady world
      unfold sleepUntilWithin
      dsimp only
      split
      · split
        · exact (ran.tail (.pass _ _)).trans (ih _)
        · exact ran.tail (.pass _ target)
      · exact ran.tail (.pass _ target)

theorem becomes_settleWithin
    (patience : Nat) :
    world.Becomes (settleWithin patience world).2 := by
  induction patience generalizing world with
  | zero => exact .refl
  | succ patience ih =>
      have flushed : world.Becomes (world.runReady.perform Interpreter.flush).2 :=
        (becomes_runReady world).tail (.flush world.runReady)
      unfold settleWithin
      generalize world.runReady.perform Interpreter.flush = outcome at flushed ⊢
      split
      · exact flushed
      · split
        · exact flushed
        · exact flushed.trans (ih _)

theorem becomes_awaitWithin
    {answer : Type} {look : World → Option answer × World}
    (looks : ∀ world : World, world.Becomes (look world).2)
    (limit : Duration) (patience : Nat) :
    world.Becomes (awaitWithin look limit patience world).2 := by
  induction patience generalizing world with
  | zero => exact .refl
  | succ patience ih =>
      have looked := looks world
      unfold awaitWithin
      generalize look world = outcome at looked ⊢
      split
      · exact looked
      · split
        · exact (looked.trans (becomes_runReady _)).trans (ih _)
        · split
          · split
            · exact ((looked.tail (.pass _ _)).trans (becomes_runReady _)).trans (ih _)
            · exact looked.tail (.pass _ limit)
          · exact looked.tail (.pass _ limit)

theorem becomes_lookFor
    (path : String) (patience : Nat) :
    world.Becomes (lookFor path patience world).2 := by
  induction patience generalizing world with
  | zero => exact .refl
  | succ patience ih =>
      have ticked : world.Becomes (world.perform Interpreter.tick).2 := .single (.tick world)
      unfold lookFor
      split
      · exact .refl
      · generalize world.perform Interpreter.tick = outcome at ticked ⊢
        split
        · exact ticked
        · exact ticked
        · exact ticked
        · exact ticked.trans (ih _)

theorem becomes_abort : world.Becomes world.abort := by
  unfold abort
  split
  · exact .single (.stage world _)
  · exact .single (.stage world _)
  · exact .single (.summon world _)
  · exact .refl

end Becoming

end World

/-- What can be done with a world. -/
inductive Operation where
  | start
  | send (event : Event)
  | flush
  | tick
  | stop
  /-- Put an envelope into the mailbox from outside: an event, or the order to stop. -/
  | post (envelope : Envelope)
  | sendTo (ref : ActorRef) (event : Event)
  /-- Move the simulated clock. -/
  | advance (span : Duration)
  /-- Let time pass for the tasks. -/
  | sleep (span : Duration)
  | settle
  | waitFor (span : Duration) (path : String)
  | waitForShown (span : Duration) (path : String)
  | join (span : Duration)
  | launch
  | abort
  | subscribe (listener : Listener) (react : Snapshot → List Reaction)
  | unsubscribe (subscription : Subscription)

namespace World

/-- Do one thing. -/
def act (world : World) : Operation → World
  | .start => (world.perform Interpreter.start).2
  | .send event =>
      (world.perform fun facilities nursery => Interpreter.send facilities nursery event).2
  | .flush => (world.perform Interpreter.flush).2
  | .tick => (world.perform Interpreter.tick).2
  | .stop => (world.perform Interpreter.stop).2
  | .post envelope => (world.post envelope).2
  | .sendTo ref event => (world.sendTo ref event).2
  | .advance span => world.advance span
  | .sleep span => world.sleep span
  | .settle => world.settle.2
  | .waitFor span path => (world.waitFor span path).2
  | .waitForShown span path => (world.waitForShown span path).2
  | .join span => (world.join span).2
  | .launch => world.launch
  | .abort => world.abort
  | .subscribe listener react => (world.subscribe listener react).2
  | .unsubscribe subscription => world.unsubscribe subscription

/-- Do one thing after another. -/
def run (world : World) (operations : List Operation) : World :=
  operations.foldl act world

theorem run_append
    (world : World) (before after : List Operation) :
    world.run (before ++ after) = (world.run before).run after :=
  List.foldl_append

theorem becomes_act
    (operation : Operation) (world : World) :
    world.Becomes (world.act operation) := by
  cases operation with
  | start => exact .single (.start world)
  | send event => exact .single (.send world event)
  | flush => exact .single (.flush world)
  | tick => exact .single (.tick world)
  | stop => exact .single (.stop world)
  | post envelope => exact becomes_post world envelope
  | sendTo ref event =>
      simp only [act]
      unfold sendTo
      split
      · exact becomes_post world _
      · exact .refl
  | advance span => exact becomes_advance world span
  | sleep span =>
      exact (becomes_sleepUntilWithin world _ _).trans (becomes_runReady _)
  | settle => exact becomes_settleWithin world _
  | waitFor span path =>
      exact becomes_awaitWithin world (fun world => becomes_lookFor world path _) _ _
  | waitForShown span path =>
      refine becomes_awaitWithin world (fun world => ?_) _ _
      unfold lookShown
      split
      · exact .refl
      · split <;> exact .refl
  | join span =>
      refine becomes_awaitWithin world (fun world => ?_) _ _
      unfold ending
      split <;> exact .refl
  | launch =>
      exact .trans (.single (.display world world.interpreter.snapshot))
        (.single (.summon _ .launched))
  | abort => exact becomes_abort world
  | subscribe listener react => exact .single (.watch (.subscribe _ _ _))
  | unsubscribe subscription =>
      simp only [act]
      unfold unsubscribe
      dsimp only
      split
      · exact .single (.watch (.cancel _ _))
      · exact .single (.forget world _)

/-- Whatever is done with a world one after another, it is changed by changes only. -/
theorem becomes_run
    (operations : List Operation) (world : World) :
    world.Becomes (world.run operations) := by
  induction operations generalizing world with
  | nil => exact .refl
  | cons operation operations ih => exact (becomes_act operation world).trans (ih _)

end World

end Statechart
