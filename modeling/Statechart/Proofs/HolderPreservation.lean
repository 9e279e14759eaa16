import Statechart.Proofs.ErrandHolders

/-!
# Deeds and holders

An actor that is started upholds what it has come to hold, one that is removed leaves
nothing that it held, and a child machine that is given something to do looks after what is
held below it.  So each deed of a supervisor leaves a holder to each errand that is held.
-/

namespace Statechart

/-- Whatever the nursery does with a good child machine, each errand held there still has a
holder; once stopped, the machine has no actors. -/
structure Nursery.Minds (nursery : Nursery) (good : Interpreter → Prop) : Prop
    extends nursery.Raises good where
  quiet : ∀ child, good child → child.supervisor.outbox = []
  startCovers : ∀ child held, good child → child.supervisor.Covers held →
    (leftBy nursery.start child).supervisor.Covers held
  receiveCovers : ∀ event child held, good child → child.supervisor.Covers held →
    (leftBy (nursery.receive event) child).supervisor.Covers held
  wakeCovers : ∀ child held, good child → child.supervisor.Covers held →
    (leftBy nursery.wake child).supervisor.Covers held
  stopCovers : ∀ child held, good child → child.supervisor.Covers held →
    (leftBy nursery.stop child).supervisor.Covers held
  empties : ∀ child, good child → (leftBy nursery.stop child).supervisor.registry.actors = []

namespace Supervisor

section Minding

variable {held : Holding → Prop} {before : Supervisor Interpreter} {origin : Origin}
variable {child : Interpreter} {task : Handling Unit}

/-- A child machine that was given something to do upholds what is due to it: nothing is held
by the child itself, and what is held below has a holder there. -/
theorem upholds_attended
    (reported : Bool)
    (inside : ¬ Emission.heldAfter held before.outbox ⟨[], origin⟩)
    (covers : (leftBy task child).supervisor.Covers
      (Holding.below origin (Emission.heldAfter held before.outbox)))
    {holding : Holding}
    (isOwn : holding.top = origin)
    (isHeld : Emission.heldAfter held (before.attend origin child task).2.2.outbox holding) :
    Process.Upholds (.machine (leftBy task child).drained reported) holding := by
  rw [attend_eq, heldAfter_absorb] at isHeld
  obtain ⟨path, holder⟩ := holding
  cases path with
  | nil =>
      obtain rfl : holder = origin := isOwn
      exact absurd isHeld inside
  | cons first path =>
      obtain rfl : first = origin := isOwn
      have isBelow := (if_pos rfl).mp isHeld
      exact ⟨_, reported, rfl, covers ⟨path, holder⟩ isBelow⟩

theorem attended_of_ne
    {holding : Holding}
    (other : holding.top ≠ origin) :
    Emission.heldAfter held (before.attend origin child task).2.2.outbox holding ↔
      Emission.heldAfter held before.outbox holding := by
  rw [attend_eq, heldAfter_absorb]
  exact Holding.graft_of_ne other

theorem update_covers
    {actor : Actor Interpreter} {reported told : Bool} {attending : Supervisor Interpreter}
    (covers : before.Covers held)
    (found : before.registry.actor? origin.id = some actor)
    (serial : actor.serial = origin.serial)
    (process : actor.process = .machine child reported)
    (quiet : child.supervisor.outbox = [])
    (keeps : ∀ held, child.supervisor.Covers held → (leftBy task child).supervisor.Covers held)
    (outbox : Emission.heldAfter held attending.outbox =
      Emission.heldAfter held (before.attend origin child task).2.2.outbox)
    (registry : attending.registry = before.registry) :
    (attending.update origin.id (.machine (leftBy task child).drained told)).Covers held := by
  have upholds : ∀ holding, holding.top = origin →
      Emission.heldAfter held before.outbox holding →
        Process.Upholds (.machine child reported) holding := by
    intro holding isOwn
    rw [← process]
    exact covers.upholds (isOwn ▸ found)
  have inside := not_held_of_upholds upholds
  have updated : ∀ id, (attending.update origin.id
      (.machine (leftBy task child).drained told)).registry.actor? id =
        (before.registry.actor? id).map fun actor =>
          if id = origin.id then
            { actor with process := .machine (leftBy task child).drained told }
          else actor := by
    intro id
    rw [← registry]
    exact Registry.actor?_update origin.id id _
  apply covers.around
  · intro holding other
    exact (iff_of_eq (congrFun outbox holding)).trans (attended_of_ne other)
  · intro other isOther
    obtain rfl := Option.some.inj (found.symm.trans isOther)
    exact serial
  · intro id other
    rw [updated]
    simp [other]
  · intro holding isOwn isHeld
    have isAttended := (iff_of_eq (congrFun outbox holding)).mp isHeld
    refine ⟨{ actor with process := .machine (leftBy task child).drained told }, ?_, serial, ?_⟩
    · rw [updated, found]
      simp
    · exact upholds_attended told inside (keeps _ (covers_of_upholds upholds quiet)) isOwn
        isAttended

theorem tend_covers
    {actor : Actor Interpreter} {reported : Bool} (blame : Failure → ActorError)
    (covers : before.Covers held)
    (found : before.registry.actor? origin.id = some actor)
    (serial : actor.serial = origin.serial)
    (process : actor.process = .machine child reported)
    (quiet : child.supervisor.outbox = [])
    (keeps : ∀ held, child.supervisor.Covers held → (leftBy task child).supervisor.Covers held) :
    (before.tend origin child reported task blame).2.Covers held := by
  have registry := (hears_attend before origin child task).registry
  have left : (before.attend origin child task).2.1 = (leftBy task child).drained := by
    rw [attend_eq]
  unfold tend
  split
  · rename_i grown attending attended
    rw [attended] at registry left
    obtain rfl : grown = _ := left
    exact update_covers covers found serial process quiet keeps (by rw [attended]) registry
  · rename_i grown attending attended
    rw [attended] at registry left
    obtain rfl : grown = _ := left
    obtain ⟨told, reports⟩ := reportEnd_process attending origin (leftBy task child).drained
      reported
    have reporting := hears_reportEnd attending origin (leftBy task child).drained reported
    dsimp only
    rw [reports]
    apply update_covers covers found serial process quiet keeps
    · rw [heldAfter_reportEnd, attended]
    · exact reporting.registry.trans registry

/-- At most what is due to one actor has changed, and what now is due to it is as
described. -/
structure Confines (origin : Origin) (before after : Holding → Prop)
    (own : Holding → Prop) : Prop where
  others : ∀ holding, holding.top ≠ origin → (after holding ↔ before holding)
  own : ∀ holding, holding.top = origin → after holding → own holding

variable {good : Interpreter → Prop} {nursery : Nursery} (minds : nursery.Minds good)

include minds

omit minds in
theorem revoke_confines
    {process : Process Interpreter}
    (outside : process.isOutside = true)
    (upholds : ∀ holding, holding.top = origin →
      Emission.heldAfter held before.outbox holding → process.Upholds holding) :
    Confines origin (Emission.heldAfter held before.outbox)
      (Emission.heldAfter held (before.emit (.revoke [] origin)).outbox) fun _ => False := by
  rw [heldAfter_emit]
  constructor
  · intro holding other
    refine and_iff_left fun same => other ?_
    rw [same]
    rfl
  · intro holding isOwn isHeld
    obtain ⟨path, holder⟩ := holding
    cases path with
    | nil =>
        obtain rfl : holder = origin := isOwn
        exact isHeld.2 rfl
    | cons first path =>
        obtain ⟨child, reported, rfl, _⟩ := upholds _ isOwn isHeld.1
        cases outside

theorem stop_confines
    {reported : Bool}
    (isGood : good child)
    (upholds : ∀ holding, holding.top = origin →
      Emission.heldAfter held before.outbox holding →
        Process.Upholds (.machine child reported) holding) :
    Confines origin (Emission.heldAfter held before.outbox)
      (Emission.heldAfter held (before.attend origin child nursery.stop).2.2.outbox)
      fun _ => False := by
  have inside := not_held_of_upholds upholds
  have stopped := minds.stopCovers child _ isGood
    (covers_of_upholds upholds (minds.quiet child isGood))
  constructor
  · exact fun holding other => attended_of_ne other
  · intro holding isOwn isHeld
    have upheld := upholds_attended reported inside stopped isOwn isHeld
    obtain ⟨path, holder⟩ := holding
    cases path with
    | nil => cases (upheld : _ = true)
    | cons first path =>
        obtain ⟨machine, told, same, hasHolder⟩ := upheld
        obtain ⟨rfl, rfl⟩ := Process.machine.inj same
        exact Registry.not_hasHolder_of_vacant (minds.empties child isGood) ⟨path, holder⟩
          hasHolder

theorem release_confines
    {process : Process Interpreter}
    (fosters : process.Fosters good)
    (upholds : ∀ holding, holding.top = origin →
      Emission.heldAfter held before.outbox holding → process.Upholds holding) :
    Confines origin (Emission.heldAfter held before.outbox)
      (Emission.heldAfter held (release nursery before origin process).outbox)
      fun _ => False := by
  have idle : ∀ commands : List ActorCommand, (∀ holding, ¬ process.Upholds holding) →
      Confines origin (Emission.heldAfter held before.outbox)
        (Emission.heldAfter held (before.obeyAll origin commands).outbox) fun _ => False := by
    intro commands nothing
    rw [heldAfter_obeyAll]
    exact ⟨fun _ _ => Iff.rfl, fun holding isOwn isHeld =>
      nothing holding (upholds holding isOwn isHeld)⟩
  cases process with
  | machine child reported => exact stop_confines minds (fosters child reported rfl) upholds
  | callback setup heard =>
      exact idle _ (Process.not_upholds rfl fun _ _ same => by cases same)
  | custom logic input heard =>
      exact idle _ (Process.not_upholds rfl fun _ _ same => by cases same)
  | promise => exact revoke_confines rfl upholds
  | stream => exact revoke_confines rfl upholds
  | timer => exact revoke_confines rfl upholds

theorem dismiss_covers
    (covers : before.Covers held)
    (fosters : before.registry.Fosters good)
    (status : ActorStatus) (id : String) :
    (before.dismiss nursery status id).Covers held := by
  have registry : (before.dismiss nursery status id).registry =
      before.registry.dismissed status id :=
    registry_dismiss before status id
  cases found : before.registry.actor? id with
  | none =>
      have same : before.dismiss nursery status id = before := by
        unfold dismiss
        rw [found]
      rw [same]
      exact covers
  | some actor =>
      let origin : Origin := ⟨id, actor.serial⟩
      let cleared : Supervisor Interpreter :=
        { before with registry := before.registry.remove id }
      have upholds : ∀ holding, holding.top = origin →
          Emission.heldAfter held cleared.outbox holding → actor.process.Upholds holding := by
        intro holding isOwn
        have bears : before.registry.actor? holding.top.id = some actor := isOwn ▸ found
        exact covers.upholds bears
      have confines := release_confines minds (fosters _ (Table.mem_of_get? found)) upholds
      have outbox : (before.dismiss nursery status id).outbox =
          (release nursery cleared origin actor.process).outbox := by
        unfold dismiss
        rw [found]
      rw [← outbox] at confines
      apply covers.around confines.others
      · intro other isOther
        obtain rfl := Option.some.inj (found.symm.trans isOther)
        rfl
      · intro other apart
        rw [registry, Registry.actor?_dismissed]
        exact if_neg apart
      · exact fun holding isOwn isHeld => (confines.own holding isOwn isHeld).elim

section Launching

variable (fresh : ∀ holding, holding.top = origin →
  ¬ Emission.heldAfter held before.outbox holding)

include fresh

omit minds in
theorem idle_confines
    {after : Supervisor Interpreter} {process : Process Interpreter}
    (same : Emission.heldAfter held after.outbox = Emission.heldAfter held before.outbox) :
    Confines origin (Emission.heldAfter held before.outbox)
      (Emission.heldAfter held after.outbox) process.Upholds := by
  rw [same]
  exact ⟨fun _ _ => Iff.rfl, fun holding isOwn isHeld => absurd isHeld (fresh holding isOwn)⟩

omit minds in
theorem commission_confines
    (errand : Errand) {process : Process Interpreter}
    (outside : process.isOutside = true) :
    Confines origin (Emission.heldAfter held before.outbox)
      (Emission.heldAfter held (before.emit (.commission [] (some origin) errand)).outbox)
      process.Upholds := by
  rw [heldAfter_emit]
  constructor
  · intro holding other
    refine or_iff_left fun same => other ?_
    rw [same]
    rfl
  · intro holding isOwn isHeld
    rcases isHeld with earlier | rfl
    · exact absurd earlier (fresh holding isOwn)
    · exact outside

omit minds in
theorem launchTask_confines
    (facilities : Facilities) {process : Process Interpreter}
    (outside : process.isOutside = true) (script : List (Option Duration × Envelope)) :
    Confines origin (Emission.heldAfter held before.outbox)
      (Emission.heldAfter held (launchTask facilities before origin process script).2.outbox)
      (launchTask facilities before origin process script).1.process.Upholds := by
  unfold launchTask
  split
  · exact commission_confines fresh _ outside
  · exact idle_confines fresh rfl

theorem launchMachine_confines
    (machine : Machine ActorLogic) (input : Json) :
    Confines origin (Emission.heldAfter held before.outbox)
      (Emission.heldAfter held (launchMachine nursery before origin machine input).2.outbox)
      (launchMachine nursery before origin machine input).1.process.Upholds := by
  let child := Interpreter.child machine origin input
  have newborn : child.supervisor.Covers
      (Holding.below origin (Emission.heldAfter held before.outbox)) :=
    fun holding isHeld => absurd isHeld (fresh _ rfl)
  have started := minds.startCovers child _ (minds.newborn machine origin input) newborn
  have left : (before.attend origin child nursery.start).2.1 =
      (leftBy nursery.start child).drained := by rw [attend_eq]
  have confines : ∀ told, Confines origin (Emission.heldAfter held before.outbox)
      (Emission.heldAfter held (before.attend origin child nursery.start).2.2.outbox)
      (Process.Upholds (.machine (leftBy nursery.start child).drained told)) := by
    intro told
    exact ⟨fun holding other => attended_of_ne other,
      fun holding isOwn isHeld => upholds_attended told (fresh _ rfl) started isOwn isHeld⟩
  unfold launchMachine
  split
  · rename_i grown attending attended
    rw [attended] at left confines
    obtain rfl : grown = _ := left
    exact confines true
  · rename_i grown attending attended
    rw [attended] at left confines
    obtain rfl : grown = _ := left
    obtain ⟨told, reports⟩ := reportEnd_process attending origin
      (leftBy nursery.start child).drained false
    dsimp only
    rw [reports, heldAfter_reportEnd]
    exact confines told

theorem launch_confines
    (facilities : Facilities) (input : Json) (job : Job) :
    Confines origin (Emission.heldAfter held before.outbox)
      (Emission.heldAfter held
        (launch facilities nursery before origin input job).2.outbox)
      (launch facilities nursery before origin input job).1.process.Upholds := by
  cases job with
  | timer delay delivery =>
      simp only [launch]
      split
      · exact commission_confines fresh _ rfl
      · exact idle_confines fresh rfl
  | logic logic =>
      cases logic with
      | machine machine => exact launchMachine_confines minds fresh machine input
      | callback setup => exact idle_confines fresh (heldAfter_obeyAll before origin _)
      | custom logic => exact idle_confines fresh (heldAfter_obeyAll before origin _)
      | promise plan => exact launchTask_confines fresh facilities rfl _
      | stream items => exact launchTask_confines fresh facilities rfl _

end Launching

theorem spawn_covers
    (facilities : Facilities)
    (covers : before.Covers held)
    (fosters : before.registry.Fosters good)
    (order : SpawnOrder) :
    (before.spawn facilities nursery order).Covers held := by
  let vacated := before.dismiss nursery .stopped order.id
  let readied : Supervisor Interpreter :=
    { vacated with registry := (vacated.registry.register order.id).2 }
  let self : Origin := ⟨order.id, vacated.registry.nextSerial⟩
  have dismissed : vacated.Covers held := dismiss_covers minds covers fosters .stopped order.id
  have registry : vacated.registry = before.registry.dismissed .stopped order.id :=
    registry_dismiss before .stopped order.id
  have vacant : vacated.registry.actor? order.id = none := by
    rw [registry, Registry.actor?_dismissed]
    exact if_pos rfl
  have fresh : ∀ holding, holding.top = self →
      ¬ Emission.heldAfter held readied.outbox holding := by
    intro holding isOwn isHeld
    obtain ⟨actor, found, _⟩ := Registry.hasHolder_iff.mp (dismissed holding isHeld)
    rw [isOwn] at found
    cases vacant.symm.trans found
  have confines : Confines self (Emission.heldAfter held readied.outbox)
      (Emission.heldAfter held
        (readied.launch facilities nursery self order.input order.job).2.outbox)
      (readied.launch facilities nursery self order.input order.job).1.process.Upholds :=
    launch_confines minds fresh facilities order.input order.job
  have outbox : Emission.heldAfter held (before.spawn facilities nursery order).outbox =
      Emission.heldAfter held
        (readied.launch facilities nursery self order.input order.job).2.outbox := by
    unfold spawn
    dsimp only
    split
    · exact heldAfter_post _ _
    · rfl
  rw [← outbox] at confines
  apply dismissed.around confines.others
  · intro other isOther
    cases vacant.symm.trans isOther
  · intro other apart
    have different : other ≠ order.id := apart
    rw [registry, actor?_spawn, Registry.actor?_dismissed, if_neg different, if_neg different]
  · intro holding isOwn isHeld
    have bears : (before.spawn facilities nursery order).registry.actor? order.id =
        some ⟨before.registry.nextSerial, order.owner, order.depth,
          (before.launched facilities nursery order).1.process⟩ := by
      rw [actor?_spawn]
      exact if_pos rfl
    have serial : vacated.registry.nextSerial = before.registry.nextSerial := by
      rw [registry, Registry.nextSerial_dismissed]
    exact ⟨_, bears, serial.symm, confines.own holding isOwn isHeld⟩

omit minds in
theorem Covers.heard
    {after : Supervisor Interpreter} {id : String} {actor : Actor Interpreter}
    (covers : before.Covers held)
    (found : before.registry.actor? id = some actor)
    (event : Event)
    (outbox : Emission.heldAfter held after.outbox = Emission.heldAfter held before.outbox)
    (registry : after.registry = before.registry) :
    (after.update id (actor.process.hear event).2).Covers held := by
  have updated : ∀ other,
      (after.update id (actor.process.hear event).2).registry.actor? other =
        (before.registry.actor? other).map fun bearer =>
          if other = id then { bearer with process := (actor.process.hear event).2 }
          else bearer := by
    intro other
    rw [← registry]
    exact Registry.actor?_update id other _
  have others : ∀ holding : Holding, holding.top ≠ (⟨id, actor.serial⟩ : Origin) →
      (Emission.heldAfter held (after.update id (actor.process.hear event).2).outbox holding ↔
        Emission.heldAfter held before.outbox holding) :=
    fun holding _ => iff_of_eq (congrFun outbox holding)
  apply covers.around others
  · intro other isOther
    obtain rfl := Option.some.inj (found.symm.trans isOther)
    rfl
  · intro other apart
    rw [updated]
    simp [show other ≠ id from apart]
  · intro holding isOwn isHeld
    have isUpheld : Emission.heldAfter held before.outbox holding :=
      (iff_of_eq (congrFun outbox holding)).mp isHeld
    have bears : before.registry.actor? holding.top.id = some actor := isOwn ▸ found
    refine ⟨{ actor with process := (actor.process.hear event).2 }, ?_, rfl,
      Process.upholds_hear event (covers.upholds bears isUpheld)⟩
    rw [updated, found]
    simp

theorem deliver_covers
    (covers : before.Covers held)
    (fosters : before.registry.Fosters good)
    (id : String) (event : Event) :
    (before.deliver nursery id event).2.Covers held := by
  cases found : before.registry.actor? id with
  | none =>
      unfold deliver
      rw [found]
      exact covers
  | some actor =>
      rcases actor.process.machine_or_not with ⟨child, reported, isMachine⟩ | noMachine
      · have isGood : good child := fosters _ (Table.mem_of_get? found) _ _ isMachine
        rw [deliver_machine found isMachine]
        exact tend_covers _ covers found rfl isMachine (minds.quiet child isGood)
          fun held => minds.receiveCovers event child held isGood
      · rw [deliver_of_noMachine found noMachine]
        exact covers.heard found event (heldAfter_obeyAll before _ _)
          (hears_obeyAll before _ _).registry

theorem wake_covers
    (covers : before.Covers held)
    (fosters : before.registry.Fosters good)
    (id : String) :
    (before.wake nursery id).2.Covers held := by
  unfold wake
  split
  · rename_i serial owner depth child reported found
    have isGood : good child := fosters _ (Table.mem_of_get? found) _ _ rfl
    exact tend_covers _ covers found rfl rfl (minds.quiet child isGood)
      fun held => minds.wakeCovers child held isGood
  · exact covers

theorem Deed.covers
    {facilities : Facilities} {after : Supervisor Interpreter}
    (deed : Deed facilities nursery before after)
    (covers : before.Covers held)
    (fosters : before.registry.Fosters good) :
    after.Covers held := by
  cases deed with
  | keep envelope => exact covers
  | post envelope =>
      exact covers.idle (heldAfter_post before envelope)
        (congrArg Registry.actors (hears_post before envelope).registry)
  | sendUp event =>
      exact covers.idle (heldAfter_sendUp before event)
        (congrArg Registry.actors (hears_sendUp before event).registry)
  | reveal activity => exact covers.idle (heldAfter_emit before _) rfl
  | name stem => exact covers.idle rfl rfl
  | dismiss id ended => exact dismiss_covers minds covers fosters _ id
  | spawn order => exact spawn_covers minds facilities covers fosters order
  | deliver id event => exact deliver_covers minds covers fosters id event
  | wake id => exact wake_covers minds covers fosters id

theorem Works.covers
    {facilities : Facilities} {after : Supervisor Interpreter}
    (works : Works facilities nursery before after)
    (covers : before.Covers held)
    (fosters : before.registry.Fosters good) :
    after.Covers held := by
  induction works with
  | refl => exact covers
  | tail earlier last ih =>
      exact last.covers minds ih (Works.fosters minds.toRaises facilities earlier fosters)

end Minding

end Supervisor

end Statechart
