import Statechart.Proofs.ChildMachines

/-!
# Errands and their holders

What goes on outside for an actor, a timer or a task, is an errand that the actor holds.
Each errand that is held belongs to an actor that runs, however deep in the tree of
machines: it is commissioned when the actor starts, and revoked when the actor is removed.
-/

namespace Statechart

/-- An actor that holds an errand: who it is, and the path of child machines that leads to
its interpreter. -/
structure Holding where
  path : List Origin
  holder : Origin

namespace Holding

/-- The actor of the interpreter itself that the errand is due to. -/
def top (holding : Holding) : Origin :=
  match holding.path with
  | [] => holding.holder
  | child :: _ => child

/-- What is held below a child machine. -/
def below (child : Origin) (held : Holding → Prop) : Holding → Prop :=
  fun holding => held { holding with path := child :: holding.path }

/-- What is held when something else is held below a child machine. -/
def graft (child : Origin) (held inner : Holding → Prop) (holding : Holding) : Prop :=
  match holding.path with
  | [] => held holding
  | origin :: path => if origin = child then inner { holding with path } else held holding

theorem graft_below
    (child : Origin) (held : Holding → Prop) :
    graft child held (below child held) = held := by
  funext holding
  obtain ⟨path, holder⟩ := holding
  cases path with
  | nil => rfl
  | cons origin path =>
      by_cases same : origin = child
      · subst same
        exact if_pos rfl
      · exact if_neg same

theorem graft_of_ne
    {child : Origin} {held inner : Holding → Prop} {holding : Holding}
    (other : holding.top ≠ child) :
    graft child held inner holding ↔ held holding := by
  obtain ⟨path, holder⟩ := holding
  cases path with
  | nil => exact Iff.rfl
  | cons origin path =>
      have apart : origin ≠ child := other
      simp [graft, apart]

end Holding

namespace Emission

/-- What is held after an emission. -/
def held (before : Holding → Prop) : Emission → Holding → Prop
  | .commission path (some holder) _ => fun holding => before holding ∨ holding = ⟨path, holder⟩
  | .revoke path holder => fun holding => before holding ∧ holding ≠ ⟨path, holder⟩
  | .commission _ none _ => before
  | .activity _ _ => before
  | .upward _ => before

/-- What is held after all that has come out. -/
def heldAfter (before : Holding → Prop) (emissions : List Emission) : Holding → Prop :=
  emissions.foldl held before

theorem held_mono
    {before more : Holding → Prop}
    (grows : ∀ holding, before holding → more holding)
    (emission : Emission) {holding : Holding}
    (isHeld : emission.held before holding) :
    emission.held more holding := by
  cases emission with
  | activity path activity => exact grows holding isHeld
  | upward envelope => exact grows holding isHeld
  | commission path holder errand =>
      cases holder with
      | none => exact grows holding isHeld
      | some holder => exact isHeld.imp_left (grows holding)
  | revoke path holder => exact isHeld.imp_left (grows holding)

theorem heldAfter_append
    (before : Holding → Prop) (earlier later : List Emission) :
    heldAfter before (earlier ++ later) = heldAfter (heldAfter before earlier) later :=
  List.foldl_append

end Emission

namespace Process

/-- Does what the actor does go on outside? -/
def isOutside {ι : Type} : Process ι → Bool
  | .promise => true
  | .stream => true
  | .timer => true
  | .machine _ _ => false
  | .callback _ _ => false
  | .custom _ _ _ => false

end Process

namespace Registry

/-- The actor that holds the errand runs, at the end of the path of child machines, and what
it does goes on outside. -/
def HasHolder : List Origin → Origin → Registry Interpreter → Prop
  | [], holder, registry =>
      ∃ actor, registry.actor? holder.id = some actor ∧ actor.serial = holder.serial ∧
        actor.process.isOutside = true
  | child :: path, holder, registry =>
      ∃ machine reported, registry.childMachine? child = some (machine, reported) ∧
        HasHolder path holder machine.supervisor.registry

end Registry

/-- The errand is due to what the process itself does, or to an actor of its child
machine. -/
def Process.Upholds (process : Process Interpreter) (holding : Holding) : Prop :=
  match holding.path with
  | [] => process.isOutside = true
  | _ :: path =>
      ∃ child reported, process = .machine child reported ∧
        child.supervisor.registry.HasHolder path holding.holder

theorem Process.not_upholds
    {process : Process Interpreter}
    (inside : process.isOutside = false)
    (noMachine : ∀ child reported, process ≠ .machine child reported) (holding : Holding) :
    ¬ process.Upholds holding := by
  intro upheld
  obtain ⟨path, holder⟩ := holding
  cases path with
  | nil =>
      have outside : process.isOutside = true := upheld
      rw [inside] at outside
      cases outside
  | cons first path =>
      obtain ⟨child, reported, same, _⟩ := upheld
      exact noMachine child reported same

theorem Process.upholds_hear
    {process : Process Interpreter} {holding : Holding}
    (event : Event)
    (upholds : process.Upholds holding) :
    (process.hear event).2.Upholds holding := by
  cases process with
  | callback setup heard =>
      exact absurd upholds (not_upholds rfl (fun _ _ same => by cases same) holding)
  | custom logic input heard =>
      exact absurd upholds (not_upholds rfl (fun _ _ same => by cases same) holding)
  | _ => exact upholds

namespace Registry

/-- Of the actors of an interpreter only the one that the errand is due to matters. -/
theorem hasHolder_iff
    {registry : Registry Interpreter} {holding : Holding} :
    registry.HasHolder holding.path holding.holder ↔
      ∃ actor, registry.actor? holding.top.id = some actor ∧
        actor.serial = holding.top.serial ∧ actor.process.Upholds holding := by
  obtain ⟨path, holder⟩ := holding
  cases path with
  | nil => exact Iff.rfl
  | cons child path =>
      constructor
      · intro found
        obtain ⟨machine, reported, bears, below⟩ := found
        obtain ⟨actor, isActor, same, process⟩ := childMachine?_eq_some.mp bears
        exact ⟨actor, isActor, same, machine, reported, process, below⟩
      · intro found
        obtain ⟨actor, isActor, same, machine, reported, process, below⟩ := found
        exact ⟨machine, reported, childMachine?_eq_some.mpr ⟨actor, isActor, same, process⟩,
          below⟩

theorem not_hasHolder_of_vacant
    {registry : Registry Interpreter}
    (vacant : registry.actors = []) (holding : Holding) :
    ¬ registry.HasHolder holding.path holding.holder := by
  intro found
  obtain ⟨actor, bears, _⟩ := hasHolder_iff.mp found
  unfold actor? at bears
  rw [vacant] at bears
  cases bears

end Registry

namespace Supervisor

section Emitting

variable {held : Holding → Prop} (supervisor : Supervisor Interpreter)
variable (facilities : Facilities) (origin : Origin)

theorem heldAfter_emit
    (emission : Emission) :
    Emission.heldAfter held (supervisor.emit emission).outbox =
      emission.held (Emission.heldAfter held supervisor.outbox) :=
  Emission.heldAfter_append held supervisor.outbox [emission]

theorem heldAfter_post
    (envelope : Envelope) :
    Emission.heldAfter held (supervisor.post envelope).outbox =
      Emission.heldAfter held supervisor.outbox := by
  unfold post
  dsimp only
  split
  · rfl
  · exact heldAfter_emit _ _

theorem heldAfter_sendUp
    (event : Event) :
    Emission.heldAfter held (supervisor.sendUp event).outbox =
      Emission.heldAfter held supervisor.outbox := by
  unfold sendUp
  split
  · rfl
  · exact heldAfter_emit _ _

theorem heldAfter_foldl
    {item : Type} {step : Supervisor Interpreter → item → Supervisor Interpreter}
    (idle : ∀ (supervisor : Supervisor Interpreter) (next : item),
      Emission.heldAfter held (step supervisor next).outbox =
        Emission.heldAfter held supervisor.outbox)
    (items : List item) :
    Emission.heldAfter held (items.foldl step supervisor).outbox =
      Emission.heldAfter held supervisor.outbox := by
  induction items generalizing supervisor with
  | nil => rfl
  | cons next items ih => exact (ih (step supervisor next)).trans (idle supervisor next)

theorem heldAfter_reportEnd
    (child : Interpreter) (reported : Bool) :
    Emission.heldAfter held (supervisor.reportEnd origin child reported).2.outbox =
      Emission.heldAfter held supervisor.outbox := by
  unfold reportEnd
  split
  · exact heldAfter_post supervisor _
  · rfl

theorem heldAfter_obeyAll
    (commands : List ActorCommand) :
    Emission.heldAfter held (supervisor.obeyAll origin commands).outbox =
      Emission.heldAfter held supervisor.outbox := by
  apply heldAfter_foldl
  intro supervisor command
  cases command with
  | send event => exact heldAfter_post supervisor _
  | later delay event => exact heldAfter_emit supervisor _
  | complete output => exact heldAfter_post supervisor _
  | fail message => exact heldAfter_post supervisor _
  | note text => exact heldAfter_emit supervisor _

theorem heldAfter_absorbOne
    {outer inner : Holding → Prop}
    (begun : Emission.heldAfter held supervisor.outbox = Holding.graft origin outer inner)
    (emission : Emission) :
    Emission.heldAfter held (absorbOne origin supervisor emission).outbox =
      Holding.graft origin outer (emission.held inner) := by
  cases emission with
  | activity path activity => exact (heldAfter_emit supervisor _).trans begun
  | upward envelope => exact (heldAfter_post supervisor envelope).trans begun
  | commission path holder errand =>
      rw [absorbOne, heldAfter_emit, begun]
      cases holder with
      | none => rfl
      | some holder =>
          funext holding
          obtain ⟨other, bearer⟩ := holding
          cases other with
          | nil => simp [Holding.graft, Emission.held]
          | cons first other =>
              by_cases same : first = origin <;> simp [Holding.graft, Emission.held, same]
  | revoke path holder =>
      rw [absorbOne, heldAfter_emit, begun]
      funext holding
      obtain ⟨other, bearer⟩ := holding
      cases other with
      | nil => simp [Holding.graft, Emission.held]
      | cons first other =>
          by_cases same : first = origin <;> simp [Holding.graft, Emission.held, same]

/-- What a child machine lets out changes what is held below it, and nothing else. -/
theorem heldAfter_absorb
    (emissions : List Emission) :
    Emission.heldAfter held (supervisor.absorb origin emissions).outbox =
      Holding.graft origin (Emission.heldAfter held supervisor.outbox)
        (Emission.heldAfter
          (Holding.below origin (Emission.heldAfter held supervisor.outbox)) emissions) := by
  have grafted : ∀ (supervisor : Supervisor Interpreter) (outer inner : Holding → Prop),
      Emission.heldAfter held supervisor.outbox = Holding.graft origin outer inner →
        Emission.heldAfter held (supervisor.absorb origin emissions).outbox =
          Holding.graft origin outer (Emission.heldAfter inner emissions) := by
    induction emissions with
    | nil => exact fun _ _ _ begun => begun
    | cons emission emissions ih =>
        intro supervisor outer inner begun
        exact ih _ outer _ (heldAfter_absorbOne supervisor origin begun emission)
  exact grafted supervisor _ _ (Holding.graft_below origin _).symm

theorem attend_eq
    (child : Interpreter) (task : Handling Unit) :
    (supervisor.attend origin child task).2 =
      ((leftBy task child).drained,
        supervisor.absorb origin (leftBy task child).supervisor.outbox) := by
  unfold attend leftBy
  cases task.run child <;> rfl

end Emitting

/-- Each errand that is held after all that has come out has a holder. -/
def Covers (held : Holding → Prop) (supervisor : Supervisor Interpreter) : Prop :=
  ∀ holding, Emission.heldAfter held supervisor.outbox holding →
    supervisor.registry.HasHolder holding.path holding.holder

section Covering

variable {held : Holding → Prop} {before after : Supervisor Interpreter} {origin : Origin}

/-- If nothing has changed for any other actor, only what is due to one has to be looked
at. -/
theorem Covers.around
    (covers : before.Covers held)
    (outbox : ∀ holding, holding.top ≠ origin →
      (Emission.heldAfter held after.outbox holding ↔
        Emission.heldAfter held before.outbox holding))
    (bears : ∀ actor, before.registry.actor? origin.id = some actor →
      actor.serial = origin.serial)
    (others : ∀ id, id ≠ origin.id → after.registry.actor? id = before.registry.actor? id)
    (own : ∀ holding, holding.top = origin → Emission.heldAfter held after.outbox holding →
      ∃ actor, after.registry.actor? origin.id = some actor ∧
        actor.serial = origin.serial ∧ actor.process.Upholds holding) :
    after.Covers held := by
  intro holding isHeld
  rw [Registry.hasHolder_iff]
  by_cases isOwn : holding.top = origin
  · rw [isOwn]
    exact own holding isOwn isHeld
  · have found := Registry.hasHolder_iff.mp (covers holding ((outbox holding isOwn).mp isHeld))
    rw [others]
    · exact found
    · intro sameId
      obtain ⟨actor, isActor, serial, _⟩ := found
      rw [sameId] at isActor
      have sameSerial := serial.symm.trans (bears actor isActor)
      have same : (⟨holding.top.id, holding.top.serial⟩ : Origin) =
          ⟨origin.id, origin.serial⟩ := by rw [sameId, sameSerial]
      exact isOwn same

theorem Covers.idle
    (covers : before.Covers held)
    (outbox : Emission.heldAfter held after.outbox = Emission.heldAfter held before.outbox)
    (registry : after.registry.actors = before.registry.actors) :
    after.Covers held := by
  intro holding isHeld
  rw [outbox] at isHeld
  have found := Registry.hasHolder_iff.mp (covers holding isHeld)
  rw [Registry.hasHolder_iff]
  unfold Registry.actor? at found ⊢
  rwa [registry]

theorem Covers.upholds
    {actor : Actor Interpreter} {holding : Holding}
    (covers : before.Covers held)
    (found : before.registry.actor? holding.top.id = some actor)
    (isHeld : Emission.heldAfter held before.outbox holding) :
    actor.process.Upholds holding := by
  obtain ⟨other, bears, _, upholds⟩ := Registry.hasHolder_iff.mp (covers holding isHeld)
  obtain rfl := Option.some.inj (found.symm.trans bears)
  exact upholds

theorem covers_of_upholds
    {outer : Holding → Prop} {child : Interpreter} {reported : Bool}
    (upholds : ∀ holding, holding.top = origin → outer holding →
      Process.Upholds (.machine child reported) holding)
    (quiet : child.supervisor.outbox = []) :
    child.supervisor.Covers (Holding.below origin outer) := by
  intro holding isHeld
  rw [quiet] at isHeld
  obtain ⟨machine, told, same, below⟩ :=
    upholds { holding with path := origin :: holding.path } rfl isHeld
  obtain ⟨rfl, rfl⟩ := Process.machine.inj same
  exact below

theorem not_held_of_upholds
    {outer : Holding → Prop} {child : Interpreter} {reported : Bool}
    (upholds : ∀ holding, holding.top = origin → outer holding →
      Process.Upholds (.machine child reported) holding) :
    ¬ outer ⟨[], origin⟩ := by
  intro isHeld
  cases (upholds ⟨[], origin⟩ rfl isHeld : false = true)

end Covering

end Supervisor

end Statechart
