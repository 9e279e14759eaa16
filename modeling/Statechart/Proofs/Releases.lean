import Statechart.Proofs.ChildMachines

/-!
# Who is started and who is released

An actor is released when it is taken out of the registry: it is told to stop, and how it
ended is noted.  What being told to stop comes to is said for each kind of actor, and nothing
else that a supervisor does tells an actor to.  A turnover lists, for any stretch of a
supervisor's work, the actors that were started and those that were released meanwhile, each
time that this happened.  If no actor ran at its beginning and none runs at its end, the two
lists hold the same actors, and none twice.
-/

namespace Statechart

namespace Registry

variable {ι : Type} {registry : Registry ι}

/-- All actors that there ever were, running or removed. -/
def origins (registry : Registry ι) : List Origin :=
  (registry.actors.map fun entry => { id := entry.1, serial := entry.2.serial }) ++
    registry.closed.map Prod.fst

theorem origins_update
    (id : String) (process : Process ι) :
    (registry.update id process).origins = registry.origins := by
  simp only [origins, update, Table.modify, List.map_map]
  congr 1
  refine List.map_congr_left fun entry _ => ?_
  simp only [Function.comp_apply]
  split <;> rfl

theorem origins_dismissed
    (balanced : registry.Balanced)
    (status : ActorStatus) (id : String) :
    (registry.dismissed status id).origins.Perm registry.origins := by
  cases found : registry.actor? id with
  | none => rw [dismissed_of_none status found]
  | some actor =>
      rw [dismissed_of_some status found]
      have taken := Table.perm_erase balanced.distinct (Table.mem_of_get? found)
      refine List.perm_middle.trans ?_
      exact ((taken.map fun entry => Origin.mk entry.1 entry.2.serial).symm.append_right _)

theorem origins_staffed
    {id : String}
    (vacant : registry.actor? id = none)
    (owner : Option StateId) (depth : Nat) (process : Process ι) :
    (registry.staffed id owner depth process).origins.Perm
      (registry.origins ++ [{ id, serial := registry.nextSerial }]) := by
  unfold staffed
  rw [dismissed_of_none .stopped vacant]
  have placed : (Table.insert id ⟨registry.nextSerial, owner, depth, process⟩
      registry.actors).Perm ((id, ⟨registry.nextSerial, owner, depth, process⟩) ::
        registry.actors) :=
    Table.insert_perm (Table.get?_eq_none_iff.mp vacant)
  refine ((placed.map fun entry => Origin.mk entry.1 entry.2.serial).append_right _).trans ?_
  exact (List.perm_append_singleton _ _).symm

end Registry

namespace Supervisor

/-- An actor is told to stop, once: what it runs, what is left of that, and its supervisor
before and after.  A machine stops as any interpreter does, and what it lets out then comes
out above it; a callback cleans up, and an actor of its own kind does what it has to do at
its end; a task and a timer are called off. -/
inductive Stops (nursery : Nursery) (self : Origin) (before : Supervisor Interpreter) :
    Process Interpreter → Process Interpreter → Supervisor Interpreter → Prop where
  | machine (child : Interpreter) (reported : Bool) :
      Stops nursery self before (.machine child reported)
        (.machine (leftBy nursery.stop child).drained true)
        (before.absorb self (leftBy nursery.stop child).supervisor.outbox)
  | callback (setup : CallbackSetup) (heard : List Event) :
      Stops nursery self before (.callback setup heard) (.callback setup heard)
        (before.obeyAll self (setup.cleanup heard))
  | custom (logic : CustomLogic) (input : Json) (heard : List Event) :
      Stops nursery self before (.custom logic input heard) (.custom logic input heard)
        (before.obeyAll self (logic.stop input heard))
  | promise : Stops nursery self before .promise .promise (before.emit (.revoke [] self))
  | stream : Stops nursery self before .stream .stream (before.emit (.revoke [] self))
  | timer : Stops nursery self before .timer .timer (before.emit (.revoke [] self))

/-- Ending what an actor does is telling it to stop. -/
theorem release_stops
    (nursery : Nursery) (before : Supervisor Interpreter) (self : Origin)
    (process : Process Interpreter) :
    ∃ remains, Stops nursery self before process remains
      (before.release nursery self process) := by
  cases process with
  | machine child reported =>
      have told : (before.attend self child nursery.stop).2.2 =
          before.absorb self (leftBy nursery.stop child).supervisor.outbox := by
        unfold attend leftBy
        cases nursery.stop.run child <;> rfl
      simp only [release, told]
      exact ⟨_, .machine child reported⟩
  | callback setup heard => exact ⟨_, .callback setup heard⟩
  | custom logic input heard => exact ⟨_, .custom logic input heard⟩
  | promise => exact ⟨_, .promise⟩
  | stream => exact ⟨_, .stream⟩
  | timer => exact ⟨_, .timer⟩

theorem Stops.left
    {nursery : Nursery} {self : Origin} {before after : Supervisor Interpreter}
    {process : Process Interpreter} {left : Interpreter} {told : Bool}
    (stops : Stops nursery self before process (.machine left told) after) :
    ∃ child reported, process = .machine child reported ∧
      left = (leftBy nursery.stop child).drained := by
  cases stops with
  | machine child reported => exact ⟨child, reported, rfl, rfl⟩

/-- Something happens, the actors stay the same ones, and none is told to stop. -/
inductive Retains (facilities : Facilities) (nursery : Nursery) :
    Supervisor Interpreter → Supervisor Interpreter → Prop where
  /-- Mail comes or goes. -/
  | mail (before : Supervisor Interpreter) (inbox : List Envelope) :
      Retains facilities nursery before { before with inbox }
  | post (before : Supervisor Interpreter) (envelope : Envelope) :
      Retains facilities nursery before (before.post envelope)
  | sendUp (before : Supervisor Interpreter) (event : Event) :
      Retains facilities nursery before (before.sendUp event)
  | reveal (before : Supervisor Interpreter) (activity : Activity) :
      Retains facilities nursery before (before.reveal activity)
  /-- What has come out is taken away. -/
  | unload (before : Supervisor Interpreter) :
      Retains facilities nursery before { before with outbox := [] }
  | name (before : Supervisor Interpreter) (stem : String) :
      Retains facilities nursery before
        { before with registry := (before.registry.freshId stem).2 }
  | deliver (before : Supervisor Interpreter) (id : String) (event : Event) :
      Retains facilities nursery before (before.deliver nursery id event).2
  | wake (before : Supervisor Interpreter) (id : String) :
      Retains facilities nursery before (before.wake nursery id).2
  /-- Mail comes for a machine below. -/
  | accept {before : Supervisor Interpreter} {origin : Origin} {child grown : Interpreter}
      {reported : Bool} (envelope : Envelope) (path : List Origin) :
      before.registry.childMachine? origin = some (child, reported) →
      Interpreter.accept? envelope path child = some grown →
      Retains facilities nursery before (before.update origin.id (.machine grown reported))

/-- An actor that was released: how it ended, what it ran until then, and what is left of
that. -/
structure Discharge where
  origin : Origin
  status : ActorStatus
  process : Process Interpreter
  remains : Process Interpreter

/-- The right supervisor comes from the left one.  Meanwhile the actors in the first list
were started, and those in the second were released, in this order. -/
inductive Turnover (facilities : Facilities) (nursery : Nursery)
    (start : Supervisor Interpreter) :
    List Origin → List Discharge → Supervisor Interpreter → Prop where
  | rest : Turnover facilities nursery start [] [] start
  | retain {started : List Origin} {released : List Discharge}
      {before after : Supervisor Interpreter} :
      Turnover facilities nursery start started released before →
      Retains facilities nursery before after →
      Turnover facilities nursery start started released after
  /-- An actor is started, under an id that nobody bears. -/
  | hire {started : List Origin} {released : List Discharge}
      {before : Supervisor Interpreter} (order : SpawnOrder) :
      Turnover facilities nursery start started released before →
      before.registry.actor? order.id = none →
      Turnover facilities nursery start
        (started ++ [{ id := order.id, serial := before.registry.nextSerial }]) released
        (before.spawn facilities nursery order)
  /-- An actor is taken out and told to stop, and how it ended is noted. -/
  | release {started : List Origin} {released : List Discharge}
      {before stopped : Supervisor Interpreter} {actor : Actor Interpreter}
      {discharge : Discharge} :
      Turnover facilities nursery start started released before →
      before.registry.actor? discharge.origin.id = some actor →
      actor.serial = discharge.origin.serial → actor.process = discharge.process →
      discharge.status ≠ .active →
      Stops nursery discharge.origin
        { before with registry := before.registry.remove discharge.origin.id }
        discharge.process discharge.remains stopped →
      Turnover facilities nursery start started (released ++ [discharge])
        { stopped with
          registry := stopped.registry.close discharge.origin discharge.status }

section Turning

variable {facilities : Facilities} {nursery : Nursery}
variable {start before after : Supervisor Interpreter}
variable {started hired : List Origin} {released freed : List Discharge}

theorem Stops.hears
    {self : Origin} {process remains : Process Interpreter}
    (stops : Stops nursery self before process remains after) :
    before.Hears after := by
  cases stops with
  | machine child reported => exact hears_absorb before self _
  | callback setup heard => exact hears_obeyAll before self _
  | custom logic input heard => exact hears_obeyAll before self _
  | promise => exact hears_emit before rfl
  | stream => exact hears_emit before rfl
  | timer => exact hears_emit before rfl

theorem Stops.dismissed
    {actor : Actor Interpreter} {discharge : Discharge}
    (stops : Stops nursery discharge.origin
      { before with registry := before.registry.remove discharge.origin.id }
      discharge.process discharge.remains after)
    (found : before.registry.actor? discharge.origin.id = some actor)
    (serial : actor.serial = discharge.origin.serial) :
    after.registry.close discharge.origin discharge.status =
      before.registry.dismissed discharge.status discharge.origin.id := by
  have removed : after.registry = before.registry.remove discharge.origin.id :=
    stops.hears.registry
  rw [Registry.dismissed_of_some discharge.status found, removed, serial]

theorem Retains.turns
    (retains : Retains facilities nursery before after) :
    before.registry.Turns after.registry ∧
      after.registry.origins = before.registry.origins ∧
      after.registry.nextSerial = before.registry.nextSerial ∧
      after.registry.closed = before.registry.closed := by
  have told : ∀ {registry : Registry Interpreter}, (registry = before.registry ∨
      ∃ id process, registry = before.registry.update id process) →
        after.registry = registry →
      before.registry.Turns after.registry ∧
        after.registry.origins = before.registry.origins ∧
        after.registry.nextSerial = before.registry.nextSerial ∧
        after.registry.closed = before.registry.closed := by
    intro registry turned same
    rw [same]
    rcases turned with rfl | ⟨id, process, rfl⟩
    · exact ⟨.stay _, rfl, rfl, rfl⟩
    · exact ⟨.update _ id process, Registry.origins_update id process, rfl, rfl⟩
  cases retains with
  | mail inbox => exact told (.inl rfl) rfl
  | post envelope => exact told (.inl rfl) (hears_post before envelope).registry
  | sendUp event => exact told (.inl rfl) (hears_sendUp before event).registry
  | reveal activity => exact told (.inl rfl) rfl
  | unload => exact told (.inl rfl) rfl
  | name stem => exact ⟨.name _ stem, rfl, rfl, rfl⟩
  | deliver id event =>
      obtain ⟨registry, turned, hears⟩ := deliver_turns before nursery id event
      exact told (turned.imp_right fun ⟨process, same⟩ => ⟨id, process, same⟩) hears.registry
  | wake id =>
      obtain ⟨registry, turned, hears⟩ := wake_turns before nursery id
      exact told (turned.imp_right fun ⟨process, same⟩ => ⟨id, process, same⟩) hears.registry
  | accept envelope path found grew => exact told (.inr ⟨_, _, rfl⟩) rfl

theorem Turnover.trans
    {middle : Supervisor Interpreter}
    (earlier : Turnover facilities nursery start started released middle)
    (later : Turnover facilities nursery middle hired freed after) :
    Turnover facilities nursery start (started ++ hired) (released ++ freed) after := by
  induction later with
  | rest => rwa [List.append_nil, List.append_nil]
  | retain _ retains ih => exact .retain ih retains
  | hire order _ vacant ih =>
      rw [← List.append_assoc]
      exact .hire order ih vacant
  | release _ found serial process ended stops ih =>
      rw [← List.append_assoc]
      exact .release ih found serial process ended stops

/-- Whoever was there before or was started is there or has been noted as removed, and
nobody else. -/
theorem Turnover.origins
    (turnover : Turnover facilities nursery start started released after)
    (balanced : start.registry.Balanced) :
    after.registry.Balanced ∧
      after.registry.origins.Perm (start.registry.origins ++ started) := by
  induction turnover with
  | rest => exact ⟨balanced, by rw [List.append_nil]⟩
  | retain _ retains ih =>
      obtain ⟨turns, origins, _⟩ := retains.turns
      exact ⟨turns.balanced ih.1, origins ▸ ih.2⟩
  | @hire started released before order _ vacant ih =>
      have registry := (spawn_turns before facilities nursery order).registry
      rw [registry, ← List.append_assoc]
      exact ⟨Registry.balanced_staffed ih.1 _ _ _ _,
        (Registry.origins_staffed vacant _ _ _).trans (ih.2.append_right _)⟩
  | @release started released before stopped actor discharge _ found serial _ ended stops ih =>
      rw [stops.dismissed found serial]
      exact ⟨Registry.balanced_dismissed ih.1 ended discharge.origin.id,
        (Registry.origins_dismissed ih.1 discharge.status discharge.origin.id).trans ih.2⟩

theorem Turnover.ended
    (turnover : Turnover facilities nursery start started released after) :
    ∀ discharge ∈ released, discharge.status ≠ .active := by
  induction turnover with
  | rest => exact fun _ member => by cases member
  | retain _ _ ih => exact ih
  | hire _ _ _ ih => exact ih
  | release _ _ _ _ ended _ ih =>
      exact List.forall_mem_append.mpr ⟨ih, List.forall_mem_singleton.mpr ended⟩

/-- Some actors are started and some released from the left supervisor to the right one. -/
def TurnsOver (facilities : Facilities) (nursery : Nursery)
    (before after : Supervisor Interpreter) : Prop :=
  ∃ started released, Turnover facilities nursery before started released after

theorem TurnsOver.refl (supervisor : Supervisor Interpreter) :
    TurnsOver facilities nursery supervisor supervisor :=
  ⟨[], [], .rest⟩

theorem TurnsOver.trans
    {first second third : Supervisor Interpreter}
    (earlier : TurnsOver facilities nursery first second)
    (later : TurnsOver facilities nursery second third) :
    TurnsOver facilities nursery first third := by
  obtain ⟨started, released, toSecond⟩ := earlier
  obtain ⟨hired, freed, toThird⟩ := later
  exact ⟨started ++ hired, released ++ freed, toSecond.trans toThird⟩

theorem Retains.turnsOver
    (retains : Retains facilities nursery before after) :
    TurnsOver facilities nursery before after :=
  ⟨[], [], .retain .rest retains⟩

theorem dismiss_of_none
    {id : String} (status : ActorStatus)
    (vacant : before.registry.actor? id = none) :
    before.dismiss nursery status id = before := by
  unfold dismiss
  rw [vacant]

theorem dismiss_turnsOver
    {status : ActorStatus} (id : String)
    (ended : status ≠ .active) :
    TurnsOver facilities nursery before (before.dismiss nursery status id) := by
  cases found : before.registry.actor? id with
  | none =>
      rw [dismiss_of_none status found]
      exact .refl before
  | some actor =>
      obtain ⟨remains, stops⟩ := release_stops nursery
        { before with registry := before.registry.remove id } ⟨id, actor.serial⟩ actor.process
      unfold dismiss
      rw [found]
      let discharge : Discharge := ⟨⟨id, actor.serial⟩, status, actor.process, remains⟩
      have released : Turnover facilities nursery before [] [discharge] _ :=
        .release .rest found rfl rfl ended stops
      exact ⟨[], [discharge], released⟩

theorem spawn_turnsOver
    (order : SpawnOrder) :
    TurnsOver facilities nursery before (before.spawn facilities nursery order) := by
  let vacated := before.dismiss nursery .stopped order.id
  have vacant : vacated.registry.actor? order.id = none := by
    rw [registry_dismiss, Registry.actor?_dismissed]
    exact if_pos rfl
  have same : vacated.spawn facilities nursery order = before.spawn facilities nursery order := by
    have again : vacated.dismiss nursery .stopped order.id = vacated :=
      dismiss_of_none .stopped vacant
    unfold spawn
    rw [again]
  have hired : TurnsOver facilities nursery vacated (vacated.spawn facilities nursery order) :=
    ⟨_, _, .hire order .rest vacant⟩
  exact (dismiss_turnsOver order.id (by decide)).trans (same ▸ hired)

/-- Each deed of a supervisor has its turnover. -/
theorem Deed.turnsOver
    (deed : Deed facilities nursery before after) :
    TurnsOver facilities nursery before after := by
  cases deed with
  | keep envelope => exact (Retains.mail before _).turnsOver
  | post envelope => exact (Retains.post before envelope).turnsOver
  | sendUp event => exact (Retains.sendUp before event).turnsOver
  | reveal activity => exact (Retains.reveal before activity).turnsOver
  | name stem => exact (Retains.name before stem).turnsOver
  | dismiss id ended => exact dismiss_turnsOver id ended
  | spawn order => exact spawn_turnsOver order
  | deliver id event => exact (Retains.deliver before id event).turnsOver
  | wake id => exact (Retains.wake before id).turnsOver

theorem Works.turnsOver
    (works : Works facilities nursery before after) :
    TurnsOver facilities nursery before after :=
  fulfils_of_steps TurnsOver.refl TurnsOver.trans Deed.turnsOver works

section Fostering

variable {good : Interpreter → Prop} (raises : nursery.Raises good)

include raises

theorem Retains.fosters
    (retains : Retains facilities nursery before after)
    (fosters : before.registry.Fosters good) :
    after.registry.Fosters good := by
  cases retains with
  | mail inbox => exact fosters
  | post envelope => exact (hears_post before envelope).registry ▸ fosters
  | sendUp event => exact (hears_sendUp before event).registry ▸ fosters
  | reveal activity => exact fosters
  | unload => exact fosters
  | name stem => exact fosters
  | deliver id event => exact (Deed.deliver before id event).fosters raises facilities fosters
  | wake id => exact (Deed.wake before id).fosters raises facilities fosters
  | accept envelope path found grew =>
      refine Registry.fosters_update fosters _ ?_
      rintro _ _ ⟨⟩
      exact raises.accept envelope path _ _ (Registry.fosters_child fosters found) grew

theorem Turnover.fosters
    (turnover : Turnover facilities nursery start started released after)
    (fosters : start.registry.Fosters good) :
    after.registry.Fosters good ∧
      ∀ discharge ∈ released, ∀ left told, discharge.remains = .machine left told →
        ∃ child, good child ∧ left = (leftBy nursery.stop child).drained := by
  induction turnover with
  | rest => exact ⟨fosters, fun _ member => by cases member⟩
  | retain _ retains ih => exact ⟨retains.fosters raises ih.1, ih.2⟩
  | @hire started released before order _ vacant ih =>
      exact ⟨(Deed.spawn before order).fosters raises facilities ih.1, ih.2⟩
  | @release started released before stopped actor discharge _ found serial holds _ stops ih =>
      refine ⟨?_, List.forall_mem_append.mpr ⟨ih.2, List.forall_mem_singleton.mpr ?_⟩⟩
      · rw [stops.dismissed found serial]
        exact Registry.fosters_dismissed ih.1 discharge.status discharge.origin.id
      · intro left told same
        rw [same] at stops
        obtain ⟨child, reported, isMachine, isLeft⟩ := stops.left
        have isGood : good child :=
          ih.1 _ (Table.mem_of_get? found) child reported (holds.trans isMachine)
        exact ⟨child, isGood, isLeft⟩

end Fostering

end Turning

end Supervisor

namespace Interpreter

section Turning

variable {facilities : Facilities} {nursery : Nursery} {start before after : Interpreter}
variable {dealings : List Dealing}

theorem accept_turnsOver
    {envelope : Envelope} {path : List Origin}
    (accepted : accept? envelope path before = some after) :
    Supervisor.TurnsOver facilities nursery before.supervisor after.supervisor := by
  cases path with
  | nil =>
      obtain rfl := Option.some.inj accepted
      exact (Supervisor.Retains.mail before.supervisor _).turnsOver
  | cons origin path =>
      obtain ⟨child, reported, grown, found, grew, rfl⟩ := accept?_cons.mp accepted
      exact (Supervisor.Retains.accept envelope path found grew).turnsOver.trans
        (Supervisor.Retains.mail _ _).turnsOver

theorem Interlude.turnsOver
    (interlude : Interlude facilities nursery before after) :
    Supervisor.TurnsOver facilities nursery before.supervisor after.supervisor := by
  cases interlude with
  | begin => exact (firstStep_works _ { before with status := .running }).works.turnsOver
  | resume => exact (resume_works _ { before with status := .running }).works.turnsOver
  | redeem => exact (recallDeferred_works before).works.turnsOver
  | defer event => exact .refl _
  | accept envelope path accepted => exact accept_turnsOver accepted
  | stop => exact (stop_works before).leftBy.works.turnsOver
  | clear => exact (Supervisor.Retains.mail before.supervisor []).turnsOver
  | watch board => exact .refl _

/-- However an interpreter lives, actors are started and released one after another. -/
theorem Course.turnsOver
    (course : Course facilities nursery start dealings after) :
    Supervisor.TurnsOver facilities nursery start.supervisor after.supervisor := by
  induction course with
  | rest => exact .refl _
  | @deal _ before taken envelope _ _ found ih =>
      have dealt : Works facilities nursery taken
          (leftBy (dispatch facilities nursery envelope) taken) :=
        dispatch_works taken envelope
      have took : Supervisor.TurnsOver facilities nursery before.supervisor taken.supervisor := by
        rw [(nextEnvelope?_eq found).2]
        exact (Supervisor.Retains.mail before.supervisor _).turnsOver
      exact (ih.trans took).trans dealt.works.turnsOver
  | pause _ interlude ih => exact ih.trans interlude.turnsOver
  | unload _ ih => exact ih.trans (Supervisor.Retains.unload _).turnsOver

end Turning

end Interpreter

end Statechart
