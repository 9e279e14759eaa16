import Mathlib.Data.List.Nodup
import Statechart.Proofs.ActorEffects
import Statechart.Proofs.Changes

/-!
# What observers may expect

As long as an interpreter has not ended, nobody who observes it is told that nothing more
will come, and whoever does not turn away stays.  When it ends, all that are there are told
so, each once, and this is the last that is seen of it.  These expectations are stated here
for any two moments, in such a way that they can be put together.
-/

namespace Statechart

/-- Is more to come after it? -/
def Activity.isOngoing : Activity → Bool
  | .completed _ => false
  | _ => true

namespace Emission

/-- Is it anything but a farewell to somebody who observes the interpreter itself? -/
def isOngoing : Emission → Bool
  | .activity [] told => told.isOngoing
  | _ => true

/-- What is seen of the interpreter itself; what the handle is shown is not noted. -/
def seen? : Emission → Option Activity
  | .activity [] (.published .handle _) => none
  | .activity [] told => some told
  | _ => none

theorem isOngoing_of_actors
    (emission : Emission)
    (isOfActors : emission.isOfActors = true) :
    emission.isOngoing = true := by
  cases emission with
  | activity path activity =>
      cases path with
      | nil =>
          cases activity with
          | completed listener => cases isOfActors
          | _ => rfl
      | cons origin path => rfl
  | upward envelope => rfl
  | commission path holder errand => rfl
  | revoke path holder => rfl

theorem seen_isOngoing
    {emission : Emission} {activity : Activity}
    (isOngoing : emission.isOngoing = true)
    (seen : emission.seen? = some activity) :
    activity.isOngoing = true := by
  unfold seen? at seen
  split at seen
  · cases seen
  · obtain rfl := Option.some.inj seen
    exact isOngoing
  · cases seen

end Emission

namespace Observer

def farewell (observer : Observer) : Activity := .completed observer.listener

end Observer

namespace Board

/-- Each ticket was given to one observer, and new ones are given to new observers. -/
structure Sound (board : Board) : Prop where
  distinct : (board.observers.map Observer.ticket).Nodup
  issued : ∀ observer ∈ board.observers, observer.ticket < board.nextTicket

/-- Whoever has turned away has done so for good, and everybody else stays. -/
structure Keeps (before after : Board) : Prop where
  sound : before.Sound → after.Sound
  cancelled : before.cancelled ⊆ after.cancelled
  stays : ∀ observer ∈ before.observers, observer.ticket ∉ after.cancelled →
    observer ∈ after.observers

theorem Keeps.refl (board : Board) : board.Keeps board :=
  ⟨fun sound => sound, List.Subset.refl _, fun _ member _ => member⟩

theorem Keeps.trans
    {first second third : Board}
    (earlier : first.Keeps second)
    (later : second.Keeps third) :
    first.Keeps third where
  sound := fun sound => later.sound (earlier.sound sound)
  cancelled := List.Subset.trans earlier.cancelled later.cancelled
  stays := fun observer member loyal =>
    later.stays observer
      (earlier.stays observer member fun cancelled => loyal (later.cancelled cancelled)) loyal

theorem isActive_iff
    {board : Board} {ticket : Nat} :
    board.isActive ticket = true ↔ ticket ∉ board.cancelled := by
  simp [isActive]

variable (board : Board)

theorem sound_empty : ({} : Board).Sound :=
  ⟨List.nodup_nil, fun _ member => by cases member⟩

theorem keeps_cancel
    (ticket : Nat) :
    board.Keeps (board.cancel ticket) :=
  ⟨fun sound => ⟨sound.distinct, sound.issued⟩, List.subset_cons_self _ _,
    fun _ member _ => member⟩

theorem keeps_prune : board.Keeps board.prune where
  sound := fun sound =>
    ⟨sound.distinct.sublist (List.filter_sublist.map Observer.ticket),
      fun observer member => sound.issued observer (List.mem_filter.mp member).1⟩
  cancelled := List.Subset.refl _
  stays := fun _ member loyal => List.mem_filter.mpr ⟨member, isActive_iff.mpr loyal⟩

theorem sound_clear : board.clear.Sound :=
  ⟨List.nodup_nil, fun _ member => by cases member⟩

theorem Alters.keeps
    {before after : Board}
    (alters : before.Alters after) :
    before.Keeps after := by
  cases alters with
  | subscribe listener react =>
      refine ⟨fun sound => ⟨?_, ?_⟩, List.Subset.refl _,
        fun observer member _ => List.mem_append_left _ member⟩
      · refine List.map_append ▸ List.nodup_append.mpr ⟨sound.distinct, List.nodup_singleton _, ?_⟩
        intro ticket member other isNew
        obtain ⟨observer, isMember, rfl⟩ := List.mem_map.mp member
        obtain rfl := List.mem_singleton.mp isNew
        exact (sound.issued observer isMember).ne
      · intro observer member
        rcases List.mem_append.mp member with earlier | new
        · exact (sound.issued observer earlier).trans (Nat.lt_succ_self _)
        · obtain rfl := List.mem_singleton.mp new
          exact Nat.lt_succ_self _
  | cancel ticket => exact keeps_cancel before ticket

/-- Those who have not turned away and want to hear of the end. -/
def audience : List Observer :=
  board.observers.filter fun observer =>
    board.isActive observer.ticket && observer.listener.hearsEnd

end Board

/-- What matters to those who observe an interpreter: whether it has ended, who they are, and
what has been seen of it so far. -/
structure Outlook where
  ended : Bool
  board : Board
  seen : List Activity

/-- What has been seen of an interpreter that goes from the first outlook to the second.  The
last thing is a farewell to each of those who were there and have not turned away. -/
structure Outlook.Follows (first second : Outlook) : Prop where
  sound : first.board.Sound → second.board.Sound
  cancelled : first.board.cancelled ⊆ second.board.cancelled
  /-- After the end nothing is seen. -/
  silent : first.ended = true → second.ended = true ∧ second.seen = first.seen
  /-- Before the end there are no farewells, and those who do not turn away stay. -/
  goesOn : second.ended = false → Added Activity.isOngoing first.seen second.seen ∧
    ∀ observer ∈ first.board.observers, observer.ticket ∉ second.board.cancelled →
      observer ∈ second.board.observers
  ends : first.ended = false → second.ended = true → first.board.Sound →
    ∃ (told : List Activity) (farewelled : List Observer),
      Added Activity.isOngoing first.seen told ∧
      second.seen = told ++ farewelled.map Observer.farewell ∧
      (farewelled.map Observer.ticket).Nodup ∧
      ∀ observer ∈ first.board.observers, observer.listener.hearsEnd = true →
        observer.ticket ∉ second.board.cancelled → observer ∈ farewelled

namespace Outlook

theorem Follows.refl (outlook : Outlook) : outlook.Follows outlook where
  sound := fun sound => sound
  cancelled := List.Subset.refl _
  silent := fun ended => ⟨ended, rfl⟩
  goesOn := fun _ => ⟨.refl _, fun _ member _ => member⟩
  ends := fun unended ended => absurd (unended.symm.trans ended) (by decide)

theorem Follows.trans
    {first second third : Outlook}
    (earlier : first.Follows second)
    (later : second.Follows third) :
    first.Follows third where
  sound := fun sound => later.sound (earlier.sound sound)
  cancelled := List.Subset.trans earlier.cancelled later.cancelled
  silent := by
    intro ended
    obtain ⟨stillEnded, same⟩ := earlier.silent ended
    obtain ⟨endedAfter, sameAfter⟩ := later.silent stillEnded
    exact ⟨endedAfter, sameAfter.trans same⟩
  goesOn := by
    intro unended
    have wasUnended : second.ended = false :=
      Bool.eq_false_iff.mpr fun ended =>
        absurd ((later.silent ended).1.symm.trans unended) (by decide)
    obtain ⟨seen, stays⟩ := earlier.goesOn wasUnended
    obtain ⟨seenAfter, staysAfter⟩ := later.goesOn unended
    refine ⟨seen.trans seenAfter, fun observer member loyal => ?_⟩
    exact staysAfter observer
      (stays observer member fun cancelled => loyal (later.cancelled cancelled)) loyal
  ends := by
    intro unended ended sound
    cases between : second.ended with
    | false =>
        obtain ⟨seen, stays⟩ := earlier.goesOn between
        obtain ⟨told, farewelled, added, same, distinct, complete⟩ :=
          later.ends between ended (earlier.sound sound)
        refine ⟨told, farewelled, seen.trans added, same, distinct, ?_⟩
        intro observer member hears loyal
        have stayed := stays observer member fun cancelled => loyal (later.cancelled cancelled)
        exact complete observer stayed hears loyal
    | true =>
        obtain ⟨told, farewelled, added, same, distinct, complete⟩ :=
          earlier.ends unended between sound
        refine ⟨told, farewelled, added, (later.silent between).2.trans same, distinct, ?_⟩
        intro observer member hears loyal
        exact complete observer member hears fun cancelled => loyal (later.cancelled cancelled)

/-- The same outlook with more that was seen before. -/
def since (earlier : List Activity) (outlook : Outlook) : Outlook :=
  { outlook with seen := earlier ++ outlook.seen }

theorem added_since
    {before after : List Activity}
    (earlier : List Activity)
    (added : Added Activity.isOngoing before after) :
    Added Activity.isOngoing (earlier ++ before) (earlier ++ after) := by
  obtain ⟨more, rfl, ongoing⟩ := added
  exact ⟨more, (List.append_assoc _ _ _).symm, ongoing⟩

theorem Follows.since
    {first second : Outlook}
    (follows : first.Follows second) (earlier : List Activity) :
    (first.since earlier).Follows (second.since earlier) where
  sound := follows.sound
  cancelled := follows.cancelled
  silent := fun ended =>
    (follows.silent ended).imp_right fun same => congrArg (earlier ++ ·) same
  goesOn := fun unended => (follows.goesOn unended).imp_left (added_since earlier)
  ends := by
    intro unended ended sound
    obtain ⟨told, farewelled, added, same, rest⟩ := follows.ends unended ended sound
    refine ⟨earlier ++ told, farewelled, added_since earlier added, ?_, rest⟩
    exact (congrArg (earlier ++ ·) same).trans (List.append_assoc _ _ _).symm

end Outlook

end Statechart
