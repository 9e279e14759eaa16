import Statechart.Definition.Compile
import Statechart.Proofs.DrainedMailboxes
import Statechart.Proofs.TimersEndWithActors

/-!
# No mail is forgotten

Child machines never look into their mailboxes on their own.  Still, whenever an interpreter
has been started, been sent an event or been told to deal with its mail, and all went well,
no mail is left in its mailbox or in that of any machine below it, at any depth.  In between,
a child machine that has mail is known to have some: a notice lies in the mailbox above it.
-/

namespace Statechart

namespace Interpreter

/-- The right interpreter is a child machine of the left one. -/
def Parents (parent child : Interpreter) : Prop :=
  ∃ origin reported,
    parent.supervisor.registry.childMachine? origin = some (child, reported)

/-- The right interpreter is the left one, or a machine at some depth below it. -/
abbrev Heads : Interpreter → Interpreter → Prop :=
  Relation.ReflTransGen Parents

/-- There is a notice for each child machine that has mail. -/
def Knows (parent : Interpreter) : Prop :=
  ∀ origin child reported,
    parent.supervisor.registry.childMachine? origin = some (child, reported) →
    child.supervisor.inbox ≠ [] → .wake origin.id ∈ parent.supervisor.inbox

/-- Wherever in the tree a machine has mail, the one above knows. -/
def Linked (root : Interpreter) : Prop :=
  ∀ parent, root.Heads parent → parent.Knows

section Linking

variable {facilities : Facilities} {root before after : Interpreter}

theorem linked_iff :
    root.Linked ↔ root.Knows ∧ ∀ child, root.Parents child → child.Linked := by
  constructor
  · intro linked
    exact ⟨linked root .refl, fun child isChild parent heads => linked parent (.head isChild heads)⟩
  · rintro ⟨knows, below⟩ parent heads
    rcases heads.cases_head with rfl | ⟨child, isChild, further⟩
    · exact knows
    · exact below child isChild parent further

theorem linked_of_vacant
    (vacant : root.supervisor.registry.actors = []) :
    root.Linked := by
  have childless : ∀ origin, root.supervisor.registry.childMachine? origin = none :=
    Registry.childMachine?_of_vacant vacant
  rw [linked_iff]
  constructor
  · intro origin child reported found
    rw [childless origin] at found
    cases found
  · rintro child ⟨origin, reported, found⟩
    rw [childless origin] at found
    cases found

theorem linked_of_read
    (read : ∀ member, root.Heads member → member.supervisor.inbox = []) :
    root.Linked :=
  fun _ heads origin _ reported found waits =>
    absurd (read _ (heads.tail ⟨origin, reported, found⟩)) waits

theorem Linked.mono
    (linked : before.Linked)
    (registry : after.supervisor.registry = before.supervisor.registry)
    (mail : before.supervisor.inbox ⊆ after.supervisor.inbox) :
    after.Linked := by
  obtain ⟨knows, below⟩ := linked_iff.mp linked
  rw [linked_iff]
  constructor
  · intro origin child reported found waits
    rw [registry] at found
    exact mail (knows origin child reported found waits)
  · rintro child ⟨origin, reported, found⟩
    rw [registry] at found
    exact below child ⟨origin, reported, found⟩

theorem Linked.accept
    {envelope : Envelope} {path : List Origin}
    (linked : before.Linked)
    (accepted : accept? envelope path before = some after) :
    after.Linked := by
  induction path generalizing before after with
  | nil =>
      obtain rfl := Option.some.inj accepted
      exact linked.mono rfl (List.subset_append_left _ _)
  | cons first path ih =>
      obtain ⟨child, reported, grown, found, grew, rfl⟩ := accept?_cons.mp accepted
      obtain ⟨knows, below⟩ := linked_iff.mp linked
      have mail : before.supervisor.inbox ⊆ before.supervisor.inbox ++ [.wake first.id] :=
        List.subset_append_left _ _
      rw [linked_iff]
      constructor
      · intro origin other told isChild waits
        rcases Registry.childMachine?_of_update isChild with ⟨_, earlier⟩ | ⟨same, _⟩
        · exact mail (knows origin other told earlier waits)
        · rw [same]
          exact List.mem_append_right _ List.mem_cons_self
      · rintro other ⟨origin, told, isChild⟩
        rcases Registry.childMachine?_of_update isChild with ⟨_, earlier⟩ | ⟨_, _, process⟩
        · exact below other ⟨origin, told, earlier⟩
        · cases process
          exact ih (below child ⟨first, reported, found⟩) grew

theorem Reared.heads
    {generations : Nat} {member : Interpreter}
    (reared : Reared facilities generations root)
    (heads : root.Heads member) :
    ∃ generations, Reared facilities generations member := by
  induction heads with
  | refl => exact ⟨generations, reared⟩
  | tail _ isChild ih =>
      obtain ⟨_, rearedParent⟩ := ih
      obtain ⟨origin, reported, found⟩ := isChild
      exact ⟨_, (Registry.fosters_child rearedParent.fosters found).reared⟩

theorem Alert.read
    {generations : Nat} {member : Interpreter}
    (alert : root.Alert)
    (reared : Reared facilities generations root)
    (read : root.supervisor.inbox = [])
    (heads : root.Heads member) :
    member.supervisor.inbox = [] := by
  suffices both : member.supervisor.inbox = [] ∧ member.Alert from both.1
  induction heads with
  | refl => exact ⟨read, alert⟩
  | @tail parent child above isChild ih =>
      obtain ⟨origin, reported, found⟩ := isChild
      obtain ⟨readParent, alertParent⟩ := ih
      obtain ⟨_, rearedParent⟩ := reared.heads above
      cases ended : parent.status.isTerminal with
      | true =>
          have vacant := rearedParent.lived.settled.vacant ended
          rw [Registry.childMachine?_of_vacant vacant] at found
          cases found
      | false =>
          have heeded := alert_iff.mp alertParent ended origin child reported found
          rw [readParent] at heeded
          cases heeded with
          | leaving event waiting => cases waiting
          | resting wakeful empty => exact ⟨empty, wakeful.alert⟩
          | noticed _ waiting => cases waiting

end Linking

/-- What comes of a request that goes well. -/
inductive Answers (before after : Interpreter) : Prop where
  | catchesUp : after.CatchesUp Wakeful → Answers before after
  | ends : after.status.isTerminal = true → Answers before after
  /-- Nothing was to be done. -/
  | rests : after.status = before.status → after.supervisor = before.supervisor →
      Answers before after

theorem Answers.watches
    {before after : Interpreter}
    (answers : before.Answers after)
    (watches : before.Watches Wakeful) :
    after.Watches Wakeful := by
  cases answers with
  | catchesUp catchesUp => exact catchesUp.watches
  | ends ended => exact watches_of_ended ended
  | rests status supervisor =>
      intro unended
      rw [supervisor]
      exact watches (status ▸ unended)

section Asking

variable {answer : Type} {operation : Facilities → Nursery → Handling answer}
variable {facilities : Facilities} {nursery : Nursery} {interpreter : Interpreter}

theorem Asked.answers
    (asked : Asked operation)
    (attends : nursery.Attends Wakeful)
    (alert : interpreter.Alert) :
    Ends (operation facilities nursery) interpreter (fun _ after => interpreter.Answers after)
      (fun failure after => after.BreaksOff Wakeful failure) := by
  have watches := alert_iff.mp alert
  have answered : ∀ {answer : Type} {after : Interpreter} (_ : answer),
      after.CatchesUp Wakeful ∨ interpreter.Unmoved after → interpreter.Answers after := by
    rintro _ after _ (catchesUp | unmoved)
    · exact .catchesUp catchesUp
    · exact .rests unmoved.status unmoved.supervisor
  cases asked with
  | start =>
      by_cases unstarted : interpreter.status = .notStarted
      · have heeds := watches (congrArg Status.isTerminal unstarted)
        exact (start_catchesUp attends unstarted heeds).mono (fun _ _ given => .catchesUp given)
          (fun _ _ broken => broken)
      · simp only [Interpreter.start, ends_bind, ends_get]
        rw [if_neg unstarted]
        exact .rests rfl rfl
  | send event =>
      exact (send_mail attends event watches).mono (fun given _ => answered given)
        (fun _ _ broken => broken)
  | flush =>
      exact (flush_mail attends watches).mono (fun given _ => answered given)
        (fun _ _ broken => broken)
  | tick =>
      exact (tick_mail attends watches).mono (fun given _ => answered given)
        (fun _ _ broken => broken)
  | stop =>
      exact (stop_terminates interpreter).mono (fun _ _ ended => .ends ended)
        (fun _ _ ended => breaksOff_of_ended ended)

end Asking

end Interpreter

namespace World

/-- One thing that happens in a world and does not leave the interpreter in the middle of its
mail: whatever it is asked for, it does not give up. -/
inductive Proceeding : World → World → Prop where
  | ask {answer : Type} {operation : Facilities → Nursery → Handling answer} (world : World) :
      Interpreter.Asked operation → (world.perform operation).1 ≠ .error (.stalled .mailbox) →
      Proceeding world (world.perform operation).2
  | accept {world : World} {interpreter : Interpreter} (envelope : Envelope)
      (path : List Origin) :
      Interpreter.accept? envelope path world.interpreter = some interpreter →
      Proceeding world { world with interpreter }
  | watch {world : World} {board : Board} :
      world.interpreter.board.Alters board →
      Proceeding world { world with interpreter := { world.interpreter with board } }
  /-- Nothing happens to the interpreter. -/
  | around {before after : World} :
      Change before after → after.interpreter = before.interpreter → Proceeding before after

/-- The right world comes from the left one, and the interpreter is never left in the middle
of its mail. -/
abbrev Proceeds : World → World → Prop :=
  Relation.ReflTransGen Proceeding

section Proceeding

variable {before after world : World}

theorem Proceeding.change
    (proceeding : Proceeding before after) :
    Change before after := by
  cases proceeding with
  | ask _ asked => exact change_ask asked before
  | accept envelope path accepted => exact .accept envelope path accepted
  | watch alters => exact .watch alters
  | around change => exact change

theorem Proceeds.becomes
    (proceeds : before.Proceeds after) :
    before.Becomes after :=
  Relation.ReflTransGen.mono (fun _ _ => Proceeding.change) _ _ proceeds

/-- Apart from requests that are given up, everything that happens in a world leaves the
interpreter not in the middle of its mail. -/
theorem Change.proceeding
    (change : Change before after) :
    Proceeding before after ∨
      ∃ (answer : Type) (operation : Facilities → Nursery → Handling answer),
        Interpreter.Asked operation ∧ (before.perform operation).1 = .error (.stalled .mailbox) ∧
          after = (before.perform operation).2 := by
  have asking : ∀ {answer : Type} {operation : Facilities → Nursery → Handling answer},
      Interpreter.Asked operation → after = (before.perform operation).2 →
        Proceeding before after ∨
          ∃ (answer : Type) (operation : Facilities → Nursery → Handling answer),
            Interpreter.Asked operation ∧ (before.perform operation).1 = .error (.stalled .mailbox) ∧
              after = (before.perform operation).2 := by
    rintro answer operation asked rfl
    by_cases givenUp : (before.perform operation).1 = .error (.stalled .mailbox)
    · exact .inr ⟨answer, operation, asked, givenUp, rfl⟩
    · exact .inl (.ask before asked givenUp)
  rcases change_cases change with
    ⟨_, _, asked, same⟩ | ⟨envelope, path, _, accepted, rfl⟩ | ⟨_, alters, rfl⟩ | around
  · exact asking asked same
  · exact .inl (.accept envelope path accepted)
  · exact .inl (.watch alters)
  · exact .inl (.around change around.2.1)

theorem perform_ends
    {answer : Type} {operation : Facilities → Nursery → Handling answer}
    {well : answer → Interpreter → Prop} {ill : Failure → Interpreter → Prop}
    (ends : Ends (operation world.facilities world.nursery) world.interpreter well ill) :
    ∃ left, (world.perform operation).2.interpreter = left.drained ∧
      match (world.perform operation).1 with
      | .ok given => well given left
      | .error failure => ill failure left := by
  unfold Ends at ends
  unfold perform
  split at ends
  · rename_i given left ran
    rw [ran]
    exact ⟨left, takeUp_interpreter world left, ends⟩
  · rename_i failure left ran
    rw [ran]
    exact ⟨left, takeUp_interpreter world left, ends⟩

theorem ask_alert
    {answer : Type} {operation : Facilities → Nursery → Handling answer}
    (asked : Interpreter.Asked operation)
    (alert : world.interpreter.Alert) :
    (world.perform operation).2.interpreter.Alert := by
  obtain ⟨left, same, ends⟩ := perform_ends (asked.answers
    (Interpreter.attends_wakeful world.facilities world.interpreter.machine.generations) alert)
  rw [same, Interpreter.alert_iff]
  split at ends
  · exact ends.watches (Interpreter.alert_iff.mp alert)
  · exact ends.watches

theorem Change.alert
    (change : Change before after)
    (alert : before.interpreter.Alert) :
    after.interpreter.Alert := by
  rcases change.proceeding with proceeding | ⟨_, _, asked, _, rfl⟩
  · cases proceeding with
    | ask _ asked => exact ask_alert asked alert
    | accept envelope path accepted => exact alert.accept accepted
    | watch =>
        rw [Interpreter.alert_iff] at alert ⊢
        exact alert
    | around _ same => exact same ▸ alert
  · exact ask_alert asked alert

section Beginning

variable {machine : Machine ActorLogic} {facilities : Facilities} {start : Interpreter}

/-- However much happens to a new or restored interpreter, it is alert. -/
theorem Becomes.alert
    (begins : Interpreter.Begins machine start)
    (becomes : (World.around facilities start).Becomes world) :
    world.interpreter.Alert := by
  have alertAtFirst : start.Alert :=
    Interpreter.alert_of_vacant (congrArg Registry.actors begins.fresh.unstaffed)
  exact becomes.keeps Change.alert alertAtFirst

theorem Becomes.read
    (begins : Interpreter.Begins machine start)
    (becomes : (World.around facilities start).Becomes world)
    (read : world.interpreter.supervisor.inbox = [])
    (member : Interpreter)
    (heads : world.interpreter.Heads member) :
    member.supervisor.inbox = [] := by
  obtain ⟨_, _, _, reared⟩ := becomes.lives facilities begins
  exact (becomes.alert begins).read reared read heads

/-- A request that goes well and may leave no mail, unless the interpreter does not run,
leaves none if it still runs. -/
theorem Becomes.answered
    {answer : Type} {operation : Facilities → Nursery → Handling answer} {given : answer}
    {broken : Failure → Interpreter → Prop}
    (becomes : (World.around facilities start).Becomes world)
    (asked : Interpreter.Asked operation)
    (ends : Ends (operation world.facilities world.nursery) world.interpreter
      (fun _ left => left.CatchesUp Interpreter.Wakeful ∨ world.interpreter.Unmoved left) broken)
    (answered : world.perform operation = (.ok given, after))
    (running : after.interpreter.status = .running) :
    (World.around facilities start).Becomes after ∧
      after.interpreter.supervisor.inbox = [] := by
  obtain ⟨left, same, outcome⟩ := perform_ends ends
  have change := change_ask asked world
  rw [answered] at same outcome change
  refine ⟨becomes.tail change, ?_⟩
  rw [same] at running ⊢
  rcases outcome with catchesUp | unmoved
  · exact catchesUp.read
  · exact absurd (unmoved.status.symm.trans running) unmoved.rests

theorem Becomes.linked_of_ended
    (begins : Interpreter.Begins machine start)
    (becomes : (World.around facilities start).Becomes world)
    (ended : world.interpreter.status.isTerminal = true) :
    world.interpreter.Linked := by
  obtain ⟨_, _, _, reared⟩ := becomes.lives facilities begins
  exact Interpreter.linked_of_vacant (reared.lived.settled.vacant ended)

/-- After a request that is not given up each machine in the tree knows of the mail below
it. -/
theorem Becomes.ask_linked
    {answer : Type} {operation : Facilities → Nursery → Handling answer}
    (begins : Interpreter.Begins machine start)
    (becomes : (World.around facilities start).Becomes world)
    (asked : Interpreter.Asked operation)
    (notGivenUp : (world.perform operation).1 ≠ .error (.stalled .mailbox))
    (linked : world.interpreter.Linked) :
    (world.perform operation).2.interpreter.Linked := by
  have toAfter : (World.around facilities start).Becomes (world.perform operation).2 :=
    becomes.tail (change_ask asked world)
  obtain ⟨left, same, outcome⟩ := perform_ends (asked.answers
    (Interpreter.attends_wakeful world.facilities world.interpreter.machine.generations)
    (becomes.alert begins))
  have ended : left.status.isTerminal = true →
      (world.perform operation).2.interpreter.Linked := fun ended =>
    toAfter.linked_of_ended begins (by rw [same]; exact ended)
  split at outcome
  · cases outcome with
    | catchesUp catchesUp =>
        refine Interpreter.linked_of_read (toAfter.read begins ?_)
        rw [same]
        exact catchesUp.read
    | ends terminal => exact ended terminal
    | rests _ supervisor =>
        have registry : left.supervisor.registry = world.interpreter.supervisor.registry :=
          congrArg Supervisor.registry supervisor
        have inbox : world.interpreter.supervisor.inbox = left.supervisor.inbox :=
          congrArg Supervisor.inbox supervisor.symm
        rw [same]
        exact linked.mono registry fun _ member => inbox ▸ member
  · rename_i failure given
    rcases outcome.ends with rfl | terminal
    · exact absurd given notGivenUp
    · exact ended terminal

/-- As long as the interpreter is not left in the middle of its mail, each machine in the
tree knows of the mail below it. -/
theorem Proceeds.linked
    (begins : Interpreter.Begins machine start)
    (proceeds : (World.around facilities start).Proceeds world) :
    world.interpreter.Linked := by
  induction proceeds with
  | refl =>
      exact Interpreter.linked_of_vacant (congrArg Registry.actors begins.fresh.unstaffed)
  | @tail before after earlier last linked =>
      cases last with
      | ask _ asked notGivenUp =>
          exact (Proceeds.becomes earlier).ask_linked begins asked notGivenUp linked
      | accept envelope path accepted => exact linked.accept accepted
      | watch => exact linked.mono rfl (List.Subset.refl _)
      | around _ same => exact same ▸ linked

end Beginning

end Proceeding

end World

namespace Machine

open Interpreter in
/-- Whatever has happened to a new or restored interpreter, once it was started, sent an event
or told to deal with its mail, all went well and it still runs, no mail is left in its mailbox
or in that of any machine below it, at any depth.  Each of these lives its own life, and in
whatever life all mail has been dealt with, in its order, when there is none left.  And as
long as the interpreter is not left in the middle of its mail, wherever in the tree a machine
has mail, a notice lies in the mailbox above it.  Nothing that happens leaves the interpreter
in the middle of its mail except a request that is given up.  Mail from outside arrives together
with its notices, as one happening: the moment between the two is not among the worlds spoken
of here. -/
theorem no_mail_forgotten
    (machine : Machine ActorLogic) (facilities : Facilities) :
    (∀ (start : Interpreter) (world after : World),
      Begins machine start → (World.around facilities start).Becomes world →
      (world.interpreter.status = .notStarted ∧
          world.perform Interpreter.start = (.ok (), after) ∨
        (∃ event, (world.perform fun facilities nursery => send facilities nursery event) =
          (.ok (), after)) ∨
        ∃ dealt, world.perform flush = (.ok dealt, after)) →
      after.interpreter.status = .running →
        ∀ member, after.interpreter.Heads member →
          member.supervisor.inbox = [] ∧
            ∃ generations, Reared facilities generations member) ∧
    (∀ (nursery : Nursery) (first last : Interpreter) (dealings : List Dealing),
      Course facilities nursery first dealings last → last.status.isTerminal = false →
      last.supervisor.inbox = [] →
        first.supervisor.inbox <+: dealings.map Dealing.envelope) ∧
    (∀ (start : Interpreter) (world : World),
      Begins machine start → (World.around facilities start).Proceeds world →
        ∀ parent, world.interpreter.Heads parent → ∀ origin child reported,
          parent.supervisor.registry.childMachine? origin = some (child, reported) →
          child.supervisor.inbox ≠ [] → .wake origin.id ∈ parent.supervisor.inbox) ∧
    (∀ before after : World, before.Change after → before.Proceeding after ∨
      ∃ (answer : Type) (operation : Facilities → Nursery → Handling answer),
        Asked operation ∧ (before.perform operation).1 = .error (.stalled .mailbox) ∧
          after = (before.perform operation).2) := by
  refine ⟨?_, ?_, ?_, ?_⟩
  · intro start world after begins becomes asked running
    have attends : world.nursery.Attends Wakeful := attends_wakeful _ _
    have watches := alert_iff.mp (becomes.alert begins)
    have caughtUp : (World.around facilities start).Becomes after ∧
        after.interpreter.supervisor.inbox = [] := by
      rcases asked with ⟨unstarted, answered⟩ | ⟨event, answered⟩ | ⟨dealt, answered⟩
      · have heeds := watches (congrArg Status.isTerminal unstarted)
        have ends : Ends (Interpreter.start world.facilities world.nursery) world.interpreter
            (fun _ left => left.CatchesUp Wakeful)
            (fun failure left => left.BreaksOff Wakeful failure) :=
          start_catchesUp attends unstarted heeds
        exact becomes.answered .start (ends.mono (fun _ _ caughtUp => .inl caughtUp)
          (fun _ _ broken => broken)) answered running
      · exact becomes.answered (.send event) (send_mail attends event watches) answered running
      · exact becomes.answered .flush (flush_mail attends watches) answered running
    obtain ⟨becomesAfter, read⟩ := caughtUp
    obtain ⟨_, _, _, reared⟩ := becomesAfter.lives facilities begins
    exact fun member heads =>
      ⟨becomesAfter.read begins read member heads, reared.heads heads⟩
  · intro nursery first last dealings course unended read
    have mail := course.mail unended
    rwa [read, List.append_nil] at mail
  · intro start world begins proceeds
    exact proceeds.linked begins
  · exact fun before after change => change.proceeding

end Machine

namespace MachineSpec

/-- A machine that takes note of an event. -/
def listener : MachineSpec ActorLogic :=
  { root := .mk
      { key := "m"
        transitions := [(.on "E", { actions := [.log none fun _ _ => "got"] })] }
      [.mk { key := "a" } []]
    context := some fun _ => .null }

open Interpreter in
/-- To start an interpreter that runs does nothing: it answers well, and the mail stays. -/
theorem mail_stays_listener :
    let machine : Machine ActorLogic := listener.machine fun _ => .null
    let mail : Envelope := .plain (Event.named "E")
    let world := (World.around ⟨false, true, 1000⟩ (create machine {})).run [.start, .post mail]
    listener.build = .ok machine ∧ (world.perform Interpreter.start).1 = .ok () ∧
      (world.perform Interpreter.start).2.interpreter.status = .running ∧
      (world.perform Interpreter.start).2.interpreter.supervisor.inbox = [mail] := by
  intro machine mail world
  exact ⟨build_of_faultless (by decide +kernel) rfl, by decide +kernel, by decide +kernel,
    by decide +kernel⟩

/-- A machine that starts another one when it is entered. -/
def storey (key id : String) (below : Machine ActorLogic) : MachineSpec ActorLogic :=
  { root := .mk { key, entry := [.spawn (some id) (.machine below) none] } [.mk { key := "a" } []]
    context := some fun _ => .null }

/-- A machine that starts a machine that starts the listener. -/
def tower : MachineSpec ActorLogic :=
  storey "m" "b" ((storey "b" "c" (listener.machine fun _ => .null)).machine fun _ => .null)

open Interpreter in
/-- Mail comes for the machine at the bottom of the tower, with a notice to each one above;
once the topmost has dealt with its mail, no mail is left anywhere. -/
theorem no_mail_forgotten_tower :
    let machine : Machine ActorLogic := tower.machine fun _ => .null
    let facilities : Facilities := ⟨false, true, 1000⟩
    let start := create machine {}
    let begun := (World.around facilities start).run [.start]
    let mail : Envelope := .plain (Event.named "E")
    let waiting : World :=
      { begun with
        interpreter :=
          (accept? mail [⟨"b", 0⟩, ⟨"c", 0⟩] begun.interpreter).getD begun.interpreter }
    let after := (waiting.perform flush).2
    tower.build = .ok machine ∧
      (∃ middle bottom,
        waiting.interpreter.supervisor.registry.childMachine? ⟨"b", 0⟩ = some (middle, false) ∧
        middle.supervisor.registry.childMachine? ⟨"c", 0⟩ = some (bottom, false) ∧
        bottom.supervisor.inbox = [mail] ∧ .wake "c" ∈ middle.supervisor.inbox ∧
        .wake "b" ∈ waiting.interpreter.supervisor.inbox) ∧
      (waiting.perform flush).1 = .ok 1 ∧ after.interpreter.status = .running ∧
      ⟨[⟨"b", 0⟩, ⟨"c", 0⟩], .logged "m" none "got"⟩ ∈ after.log ∧
      ∀ member, after.interpreter.Heads member → member.supervisor.inbox = [] := by
  intro machine facilities start begun mail waiting after
  obtain ⟨read, _, knows, _⟩ := Machine.no_mail_forgotten machine facilities
  have begins : Begins machine start := .of_create machine {}
  have started : ((World.around facilities start).perform Interpreter.start).1 = .ok () := by
    decide +kernel
  have toBegun : (World.around facilities start).Proceeding begun := by
    refine .ask _ .start ?_
    rw [started]
    rintro ⟨⟩
  have accepted : accept? mail [⟨"b", 0⟩, ⟨"c", 0⟩] begun.interpreter =
      some waiting.interpreter := by
    have delivered : (accept? mail [⟨"b", 0⟩, ⟨"c", 0⟩] begun.interpreter).isSome = true := by
      decide +kernel
    obtain ⟨grown, grew⟩ := Option.isSome_iff_exists.mp delivered
    simp only [waiting, grew, Option.getD_some]
  have proceeds : (World.around facilities start).Proceeds waiting :=
    .tail (.single toBegun) (.accept mail _ accepted)
  have shape : (waiting.interpreter.supervisor.registry.childMachine? ⟨"b", 0⟩).map
      (fun middle => (middle.2,
        (middle.1.supervisor.registry.childMachine? ⟨"c", 0⟩).map fun bottom =>
          (bottom.2, bottom.1.supervisor.inbox))) =
        some (false, some (false, [mail])) := by decide +kernel
  obtain ⟨⟨middle, _⟩, isMiddle, shape⟩ := Option.map_eq_some_iff.mp shape
  obtain ⟨rfl, shape⟩ := Prod.mk.inj shape
  obtain ⟨⟨bottom, _⟩, isBottom, shape⟩ := Option.map_eq_some_iff.mp shape
  obtain ⟨rfl, inbox⟩ := Prod.mk.inj shape
  have notices := knows start waiting begins proceeds
  have lower : .wake "c" ∈ middle.supervisor.inbox := by
    refine notices middle (.single ⟨_, _, isMiddle⟩) _ bottom false isBottom ?_
    rw [inbox]
    exact List.cons_ne_nil _ _
  have upper : .wake "b" ∈ waiting.interpreter.supervisor.inbox :=
    notices _ .refl _ middle false isMiddle (List.ne_nil_of_mem lower)
  have dealt : (waiting.perform flush).1 = .ok 1 := by decide +kernel
  have running : after.interpreter.status = .running := by decide +kernel
  have caughtUp := read start waiting after begins proceeds.becomes
    (.inr (.inr ⟨1, Prod.ext dealt rfl⟩)) running
  exact ⟨build_of_faultless (by decide +kernel) rfl,
    ⟨middle, bottom, isMiddle, isBottom, inbox, lower, upper⟩, dealt, running,
    by decide +kernel, fun member heads => (caughtUp member heads).1⟩

end MachineSpec

end Statechart
