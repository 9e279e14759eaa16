import Mathlib.Data.List.Nodup
import Statechart.Proofs.ActorEffects
import Statechart.Proofs.SupervisorDeeds
import Statechart.Proofs.Tables

/-!
# The books of a registry

A registry keeps books on all actors that it ever had: each serial number that has been
given out belongs to one actor, which either runs or is noted as removed.  Whatever a
supervisor does, its books stay in balance, and who has been removed stays removed.
-/

namespace Statechart

namespace Registry

variable {ι : Type} {registry before after : Registry ι} {origin : Origin}

/-- The serial numbers of all actors, running or removed. -/
def serials (registry : Registry ι) : List Nat :=
  (registry.actors.map fun entry => entry.2.serial) ++
    registry.closed.map fun entry => entry.1.serial

/-- Is the actor of an origin noted as removed? -/
def HasClosed (registry : Registry ι) (origin : Origin) : Prop :=
  ∃ status, (origin, status) ∈ registry.closed

/-- No id is borne by two actors, and each serial number given out so far belongs to
exactly one actor, which runs or has been removed. -/
structure Balanced (registry : Registry ι) : Prop where
  distinct : (Table.keys registry.actors).Nodup
  issued : registry.serials.Perm (List.range registry.nextSerial)
  ended : ∀ entry ∈ registry.closed, entry.2 ≠ .active

/-- Time goes by for a registry: whoever has been removed stays removed, whoever runs goes
on or is noted as removed, and whoever is new has a new serial number. -/
structure Ages (before after : Registry ι) : Prop where
  issued : before.nextSerial ≤ after.nextSerial
  closed : before.closed <:+ after.closed
  leaves : ∀ origin, before.accepts origin = true →
    after.accepts origin = true ∨ after.HasClosed origin
  newcomer : ∀ origin, after.accepts origin = true → origin.serial < before.nextSerial →
    before.accepts origin = true

theorem accepts_iff :
    registry.accepts origin = true ↔
      ∃ actor, registry.actor? origin.id = some actor ∧ actor.serial = origin.serial := by
  unfold accepts
  cases registry.actor? origin.id <;> simp

theorem serial_mem_of_accepts
    (accepted : registry.accepts origin = true) :
    origin.serial ∈ registry.serials := by
  obtain ⟨actor, found, same⟩ := accepts_iff.mp accepted
  exact List.mem_append_left _ (List.mem_map.mpr ⟨_, Table.mem_of_get? found, same⟩)

theorem balanced_empty : (Registry.empty : Registry ι).Balanced where
  distinct := List.nodup_nil
  issued := .refl _
  ended := fun _ member => by cases member

namespace Balanced

theorem nodup_serials
    (balanced : registry.Balanced) :
    registry.serials.Nodup :=
  balanced.issued.nodup_iff.mpr List.nodup_range

theorem serial_lt
    {serial : Nat}
    (balanced : registry.Balanced)
    (member : serial ∈ registry.serials) :
    serial < registry.nextSerial :=
  List.mem_range.mp (balanced.issued.mem_iff.mp member)

theorem not_accepts
    (balanced : registry.Balanced)
    (closed : registry.HasClosed origin) :
    registry.accepts origin = false := by
  obtain ⟨status, noted⟩ := closed
  rw [Bool.eq_false_iff]
  intro accepted
  obtain ⟨actor, found, same⟩ := accepts_iff.mp accepted
  have running : origin.serial ∈ registry.actors.map fun entry => entry.2.serial :=
    List.mem_map.mpr ⟨_, Table.mem_of_get? found, same⟩
  have removed : origin.serial ∈ registry.closed.map fun entry => entry.1.serial :=
    List.mem_map.mpr ⟨_, noted, rfl⟩
  exact (List.nodup_append.mp balanced.nodup_serials).2.2 _ running _ removed rfl

/-- Nobody is removed twice. -/
theorem nodup_closed
    (balanced : registry.Balanced) :
    (registry.closed.map Prod.fst).Nodup := by
  have serials : ((registry.closed.map Prod.fst).map Origin.serial).Nodup := by
    rw [List.map_map]
    exact (List.nodup_append.mp balanced.nodup_serials).2.1
  exact serials.of_map _

end Balanced

theorem Ages.refl (registry : Registry ι) : registry.Ages registry :=
  ⟨le_refl _, List.suffix_rfl, fun _ accepted => .inl accepted, fun _ accepted _ => accepted⟩

theorem Ages.hasClosed
    (ages : before.Ages after)
    (closed : before.HasClosed origin) :
    after.HasClosed origin := by
  obtain ⟨status, noted⟩ := closed
  exact ⟨status, ages.closed.subset noted⟩

theorem Ages.trans
    {first second third : Registry ι}
    (earlier : first.Ages second)
    (later : second.Ages third) :
    first.Ages third where
  issued := earlier.issued.trans later.issued
  closed := earlier.closed.trans later.closed
  leaves := by
    intro origin accepted
    rcases earlier.leaves origin accepted with goesOn | closed
    · exact later.leaves origin goesOn
    · exact .inr (later.hasClosed closed)
  newcomer := by
    intro origin accepted old
    exact earlier.newcomer origin
      (later.newcomer origin accepted (old.trans_le earlier.issued)) old

section Turning

theorem dismissed_of_none
    {id : String} (status : ActorStatus)
    (vacant : registry.actor? id = none) :
    registry.dismissed status id = registry := by
  unfold dismissed
  rw [vacant]

theorem dismissed_of_some
    {id : String} {actor : Actor ι} (status : ActorStatus)
    (found : registry.actor? id = some actor) :
    registry.dismissed status id =
      (registry.remove id).close { id, serial := actor.serial } status := by
  unfold dismissed
  rw [found]

theorem balanced_dismissed
    (balanced : registry.Balanced)
    {status : ActorStatus}
    (ended : status ≠ .active) (id : String) :
    (registry.dismissed status id).Balanced := by
  cases found : registry.actor? id with
  | none => exact (dismissed_of_none status found).symm ▸ balanced
  | some actor =>
      rw [dismissed_of_some status found]
      have taken := Table.perm_erase balanced.distinct (Table.mem_of_get? found)
      constructor
      · exact balanced.distinct.sublist (List.filter_sublist.map Prod.fst)
      · refine List.Perm.trans ?_ balanced.issued
        refine List.perm_middle.trans ?_
        exact ((taken.map fun entry => entry.2.serial).symm.append_right _)
      · intro entry member
        rcases List.mem_cons.mp member with rfl | earlier
        · exact ended
        · exact balanced.ended entry earlier

theorem actor?_dismissed
    (status : ActorStatus) (id other : String) :
    (registry.dismissed status id).actor? other =
      if other = id then none else registry.actor? other := by
  cases found : registry.actor? id with
  | none =>
      rw [dismissed_of_none status found]
      split
      · rename_i same
        rw [same, found]
      · rfl
  | some actor =>
      rw [dismissed_of_some status found]
      simp only [actor?, close, remove, Table.get?, Table.erase, List.find?_filter]
      split
      · rename_i same
        subst same
        simp
      · rename_i different
        congr 2
        funext entry
        by_cases same : entry.1 = other <;> simp [same, different]

theorem actors_dismissed
    (status : ActorStatus) (id : String) :
    (registry.dismissed status id).actors = Table.erase registry.actors id := by
  cases found : registry.actor? id with
  | none =>
      rw [dismissed_of_none status found]
      refine (List.filter_eq_self.mpr fun entry member => ?_).symm
      rw [decide_eq_true_iff]
      intro same
      exact Table.get?_eq_none_iff.mp found (List.mem_map.mpr ⟨entry, member, same⟩)
  | some actor =>
      rw [dismissed_of_some status found]
      rfl

theorem nextSerial_dismissed
    (status : ActorStatus) (id : String) :
    (registry.dismissed status id).nextSerial = registry.nextSerial := by
  unfold dismissed
  cases registry.actor? id <;> rfl

theorem accepts_of_dismissed
    {status : ActorStatus} {id : String} {origin : Origin}
    (accepted : (registry.dismissed status id).accepts origin = true) :
    registry.accepts origin = true := by
  rw [accepts_iff, actor?_dismissed] at accepted
  obtain ⟨actor, found, serial⟩ := accepted
  split at found
  · cases found
  · exact accepts_iff.mpr ⟨actor, found, serial⟩

theorem ages_dismissed
    (status : ActorStatus) (id : String) :
    registry.Ages (registry.dismissed status id) := by
  refine ⟨(nextSerial_dismissed status id).ge, ?_, ?_,
    fun _ accepted _ => accepts_of_dismissed accepted⟩
  · unfold dismissed
    cases registry.actor? id with
    | none => exact List.suffix_rfl
    | some actor => exact List.suffix_cons _ _
  · intro origin accepted
    by_cases same : origin.id = id
    · obtain ⟨actor, found, serial⟩ := accepts_iff.mp accepted
      subst same
      right
      refine ⟨status, ?_⟩
      rw [dismissed_of_some status found, serial]
      exact List.mem_cons_self
    · left
      rw [accepts_iff, actor?_dismissed, if_neg same]
      exact accepts_iff.mp accepted

theorem balanced_staffed
    (balanced : registry.Balanced)
    (id : String) (owner : Option StateId) (depth : Nat) (process : Process ι) :
    (registry.staffed id owner depth process).Balanced := by
  have vacant : id ∉ Table.keys (registry.dismissed .stopped id).actors := by
    rw [← Table.get?_eq_none_iff]
    exact (actor?_dismissed .stopped id id).trans (if_pos rfl)
  have dismissed : (registry.dismissed .stopped id).Balanced :=
    balanced_dismissed balanced (by decide) id
  unfold staffed
  generalize registry.dismissed .stopped id = vacated at vacant dismissed ⊢
  have placed : (Table.insert id ⟨vacated.nextSerial, owner, depth, process⟩
      vacated.actors).Perm ((id, ⟨vacated.nextSerial, owner, depth, process⟩) ::
        vacated.actors) :=
    Table.insert_perm vacant
  constructor
  · refine (placed.map Prod.fst).nodup_iff.mpr ?_
    exact List.nodup_cons.mpr ⟨vacant, dismissed.distinct⟩
  · refine ((placed.map fun entry => entry.2.serial).append_right _).trans ?_
    refine (dismissed.issued.cons vacated.nextSerial).trans ?_
    change List.Perm _ (List.range (vacated.nextSerial + 1))
    rw [List.range_succ]
    exact (List.perm_append_singleton _ _).symm
  · exact dismissed.ended

theorem actor?_staffed
    (id other : String) (owner : Option StateId) (depth : Nat) (process : Process ι) :
    (registry.staffed id owner depth process).actor? other =
      if other = id then some { serial := registry.nextSerial, owner, depth, process }
      else registry.actor? other := by
  unfold staffed
  simp only [register, enroll, actor?, nextSerial_dismissed, Table.get?_insert]
  split
  · rfl
  · rename_i different
    exact (actor?_dismissed .stopped id other).trans (if_neg different)

theorem ages_staffed
    (id : String) (owner : Option StateId) (depth : Nat) (process : Process ι) :
    registry.Ages (registry.staffed id owner depth process) := by
  have dismissed : registry.Ages (registry.dismissed .stopped id) := ages_dismissed _ id
  refine ⟨dismissed.issued.trans (Nat.le_succ _), dismissed.closed, ?_, ?_⟩
  · intro origin accepted
    by_cases same : origin.id = id
    · rcases dismissed.leaves origin accepted with goesOn | closed
      · obtain ⟨actor, found, _⟩ := accepts_iff.mp goesOn
        rw [actor?_dismissed, if_pos same] at found
        cases found
      · exact .inr closed
    · left
      rw [accepts_iff, actor?_staffed, if_neg same]
      exact accepts_iff.mp accepted
  · intro origin accepted old
    rw [accepts_iff, actor?_staffed] at accepted
    obtain ⟨actor, found, serial⟩ := accepted
    split at found
    · obtain rfl := Option.some.inj found
      exact absurd (serial.symm ▸ old) (lt_irrefl _)
    · exact accepts_iff.mpr ⟨actor, found, serial⟩

theorem balanced_update
    (balanced : registry.Balanced)
    (id : String) (process : Process ι) :
    (registry.update id process).Balanced := by
  have serials : (registry.update id process).serials = registry.serials := by
    simp only [Registry.serials, update, Table.modify, List.map_map]
    congr 1
    refine List.map_congr_left fun entry _ => ?_
    simp only [Function.comp_apply]
    split <;> rfl
  refine ⟨?_, ?_, balanced.ended⟩
  · have keys : Table.keys (registry.update id process).actors = Table.keys registry.actors :=
      Table.keys_modify fun actor : Actor ι => { actor with process }
    exact keys ▸ balanced.distinct
  · exact serials ▸ balanced.issued

theorem actor?_update
    (id other : String) (process : Process ι) :
    (registry.update id process).actor? other =
      (registry.actor? other).map fun actor =>
        if other = id then { actor with process } else actor :=
  Table.get?_modify (fun actor : Actor ι => { actor with process }) other

theorem accepts_update
    (id : String) (process : Process ι) (origin : Origin) :
    (registry.update id process).accepts origin = registry.accepts origin := by
  rw [Bool.eq_iff_iff, accepts_iff, accepts_iff, actor?_update]
  constructor
  · rintro ⟨_, found, serial⟩
    obtain ⟨actor, bears, rfl⟩ := Option.map_eq_some_iff.mp found
    refine ⟨actor, bears, ?_⟩
    split at serial <;> exact serial
  · rintro ⟨actor, found, serial⟩
    rw [found]
    refine ⟨_, rfl, ?_⟩
    split <;> exact serial

theorem ages_update
    (id : String) (process : Process ι) :
    registry.Ages (registry.update id process) := by
  refine ⟨le_refl _, List.suffix_rfl, fun origin accepted => .inl ?_, ?_⟩
  · rw [accepts_update]
    exact accepted
  · intro origin accepted _
    rwa [accepts_update] at accepted

theorem Turns.balanced
    (turns : before.Turns after)
    (balanced : before.Balanced) :
    after.Balanced := by
  cases turns with
  | stay => exact balanced
  | name stem => exact ⟨balanced.distinct, balanced.issued, balanced.ended⟩
  | dismiss id ended => exact balanced_dismissed balanced ended id
  | staff id owner depth process => exact balanced_staffed balanced id owner depth process
  | update id process => exact balanced_update balanced id process

theorem Turns.ages
    (turns : before.Turns after) :
    before.Ages after := by
  cases turns with
  | stay => exact .refl before
  | name stem =>
      exact ⟨le_refl _, List.suffix_rfl, fun _ accepted => .inl accepted,
        fun _ accepted _ => accepted⟩
  | dismiss id ended => exact ages_dismissed _ id
  | staff id owner depth process => exact ages_staffed id owner depth process
  | update id process => exact ages_update id process

end Turning

section Telling

theorem status_of_accepts
    (accepted : registry.accepts origin = true) :
    registry.status origin = .active := by
  unfold status
  rw [if_pos accepted]

theorem status_of_closed
    {status : ActorStatus}
    (balanced : registry.Balanced)
    (noted : (origin, status) ∈ registry.closed) :
    registry.status origin = status := by
  unfold Registry.status
  rw [balanced.not_accepts ⟨status, noted⟩]
  cases found : registry.closed.find? fun entry => entry.1 = origin with
  | none =>
      have unnoted := List.find?_eq_none.mp found _ noted
      simp at unnoted
  | some entry =>
      have same : entry.1 = origin := by simpa using List.find?_some found
      have distinct : (registry.closed.map Prod.fst).Nodup := balanced.nodup_closed
      have once := List.inj_on_of_nodup_map distinct (List.mem_of_find?_eq_some found) noted same
      exact congrArg Prod.snd once

theorem status_of_hasClosed
    (balanced : registry.Balanced)
    (closed : registry.HasClosed origin) :
    registry.status origin ≠ .active := by
  obtain ⟨status, noted⟩ := closed
  rw [status_of_closed balanced noted]
  exact balanced.ended _ noted

/-- Once no actor runs, none that ever ran is active. -/
theorem Ages.status
    (ages : before.Ages after)
    (balanced : after.Balanced)
    (vacant : after.actors = [])
    (accepted : before.accepts origin = true) :
    after.status origin ≠ .active := by
  rcases ages.leaves origin accepted with goesOn | closed
  · obtain ⟨actor, found, _⟩ := accepts_iff.mp goesOn
    have member := Table.mem_of_get? found
    rw [vacant] at member
    cases member
  · exact status_of_hasClosed balanced closed

/-- The status that an actor has ended with is its last. -/
theorem Ages.lasting
    (ages : before.Ages after)
    (balanced : after.Balanced)
    (ended : before.status origin ≠ .active) :
    after.status origin = before.status origin := by
  have rejected : before.accepts origin = false :=
    Bool.eq_false_iff.mpr fun accepted => ended (status_of_accepts accepted)
  unfold Registry.status at ended ⊢
  rw [if_neg (Bool.eq_false_iff.mp rejected)] at ended ⊢
  cases found : before.closed.find? fun entry => entry.1 = origin with
  | none => simp [found] at ended
  | some entry =>
      have noted := List.mem_of_find?_eq_some found
      have same : entry.1 = origin := by simpa using List.find?_some found
      obtain ⟨newer, closed⟩ := ages.closed
      have gone : after.HasClosed origin :=
        ⟨entry.2, closed ▸ List.mem_append_right _ (same ▸ noted)⟩
      -- Nobody is noted twice, so what has been noted since is about others.
      have others : newer.find? (fun entry => entry.1 = origin) = none := by
        rw [List.find?_eq_none]
        intro other member isSame
        have distinct := balanced.nodup_closed
        rw [← closed, List.map_append] at distinct
        refine (List.nodup_append.mp distinct).2.2 _ (List.mem_map_of_mem member) _
          (List.mem_map_of_mem noted) ?_
        exact (of_decide_eq_true isSame).trans same.symm
      rw [balanced.not_accepts gone, ← closed, List.find?_append, others, found]
      rfl

end Telling

end Registry

namespace Supervisor

variable {facilities : Facilities} {nursery : Nursery}
variable {before after : Supervisor Interpreter}

/-- What each deed makes of registry and mailbox: the registry takes one turn, and mail is
only added. -/
theorem Deed.turns
    (deed : Deed facilities nursery before after) :
    before.registry.Turns after.registry ∧ before.inbox <+: after.inbox := by
  have heard : ∀ {registry after : _},
      before.registry.Turns registry →
        Hears ({ before with registry } : Supervisor Interpreter) after →
          before.registry.Turns after.registry ∧ before.inbox <+: after.inbox := by
    intro registry after turns hears
    exact ⟨hears.registry ▸ turns, hears.inbox⟩
  cases deed with
  | keep envelope => exact heard (.stay _) (hears_keep before envelope)
  | post envelope => exact heard (.stay _) (hears_post before envelope)
  | sendUp event => exact heard (.stay _) (hears_sendUp before event)
  | reveal activity => exact ⟨.stay _, List.prefix_rfl⟩
  | name stem => exact ⟨.name _ stem, List.prefix_rfl⟩
  | dismiss id ended => exact heard (.dismiss _ id ended) (dismiss_turns before nursery _ id)
  | spawn order =>
      exact heard (.staff _ order.id order.owner order.depth _)
        (spawn_turns before facilities nursery order)
  | deliver id event =>
      obtain ⟨_, rfl | ⟨process, rfl⟩, hears⟩ := deliver_turns before nursery id event
      · exact heard (.stay _) hears
      · exact heard (.update _ id process) hears
  | wake id =>
      obtain ⟨_, rfl | ⟨process, rfl⟩, hears⟩ := wake_turns before nursery id
      · exact heard (.stay _) hears
      · exact heard (.update _ id process) hears

/-- Whatever a supervisor does, its books stay in balance, time only goes on for its
registry, and mail is only added. -/
structure Proceeds (before after : Supervisor Interpreter) : Prop where
  balanced : before.registry.Balanced → after.registry.Balanced
  ages : before.registry.Ages after.registry
  inbox : before.inbox <+: after.inbox

theorem Proceeds.refl (supervisor : Supervisor Interpreter) : supervisor.Proceeds supervisor :=
  ⟨fun balanced => balanced, .refl _, List.prefix_rfl⟩

theorem Proceeds.trans
    {first second third : Supervisor Interpreter}
    (earlier : first.Proceeds second)
    (later : second.Proceeds third) :
    first.Proceeds third :=
  ⟨fun balanced => later.balanced (earlier.balanced balanced),
    earlier.ages.trans later.ages, earlier.inbox.trans later.inbox⟩

theorem Works.proceeds
    (works : Works facilities nursery before after) :
    before.Proceeds after := by
  refine fulfils_of_steps Proceeds.refl Proceeds.trans (fun deed => ?_) works
  obtain ⟨turns, inbox⟩ := deed.turns
  exact ⟨turns.balanced, turns.ages, inbox⟩

theorem registry_dismiss
    (supervisor : Supervisor Interpreter) (status : ActorStatus) (id : String) :
    (supervisor.dismiss nursery status id).registry = supervisor.registry.dismissed status id :=
  (dismiss_turns supervisor nursery status id).registry

/-- The actor that has just been started bears its id; all others bear theirs as before. -/
theorem actor?_spawn
    (supervisor : Supervisor Interpreter) (order : SpawnOrder) (other : String) :
    (supervisor.spawn facilities nursery order).registry.actor? other =
      if other = order.id then
        some
          { serial := supervisor.registry.nextSerial
            owner := order.owner
            depth := order.depth
            process := (supervisor.launched facilities nursery order).1.process }
      else supervisor.registry.actor? other := by
  rw [(spawn_turns supervisor facilities nursery order).registry, Registry.actor?_staffed]

theorem mem_foldl_dismiss
    {ids : List String} {supervisor : Supervisor Interpreter} {status : ActorStatus}
    {entry : String × Actor Interpreter} :
    entry ∈ (ids.foldl (dismiss nursery status) supervisor).registry.actors ↔
      entry ∈ supervisor.registry.actors ∧ entry.1 ∉ ids := by
  induction ids generalizing supervisor with
  | nil => simp
  | cons id ids ih =>
      rw [List.foldl_cons, ih, registry_dismiss, Registry.actors_dismissed, Table.mem_erase]
      simp only [List.mem_cons, not_or, and_assoc]

/-- Stopping certain actors leaves all others as they are. -/
theorem mem_stopWhere
    {supervisor : Supervisor Interpreter} {chosen : Actor Interpreter → Bool}
    (distinct : (Table.keys supervisor.registry.actors).Nodup)
    {entry : String × Actor Interpreter} :
    entry ∈ (supervisor.stopWhere nursery chosen).registry.actors ↔
      entry ∈ supervisor.registry.actors ∧ chosen entry.2 = false := by
  have doomed : ∀ entry ∈ supervisor.registry.actors,
      entry.1 ∈ supervisor.registry.doomed chosen ↔ chosen entry.2 = true := by
    intro entry member
    unfold Registry.doomed
    simp only [List.mem_map, (sortStably_perm _ _).mem_iff, List.mem_filter]
    constructor
    · rintro ⟨other, ⟨isMember, isChosen⟩, same⟩
      rwa [List.inj_on_of_nodup_map distinct isMember member same] at isChosen
    · exact fun isChosen => ⟨entry, ⟨member, isChosen⟩, rfl⟩
  unfold stopWhere
  rw [mem_foldl_dismiss]
  refine and_congr_right fun member => ?_
  rw [doomed entry member, Bool.not_eq_true]

end Supervisor

end Statechart
