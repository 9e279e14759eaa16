import Mathlib.Data.Fintype.Card
import Statechart.Proofs.Records

/-!
# What settles

What a history state restores may again be history states.  A target settles if this comes
to an end, whichever way is followed.  As there are only so many states it then ends after
as many rounds as there are states.  Sound records restore no history states, so with them
every target settles.
-/

namespace Statechart.Chart

/-- An ordinary state settles, and a state settles that stands for states that do. -/
inductive Settles (chart : Chart) (records : HistoryRecords) : StateId → Prop where
  | ordinary {state : StateId} :
      chart.isHistory state = false → Settles chart records state
  | restoring {state : StateId} :
      (∀ restored ∈ chart.standsFor records state, Settles chart records restored) →
      Settles chart records state

/-- The states that settle when records are followed for so many rounds. -/
def SettlesIn (chart : Chart) (records : HistoryRecords) : Nat → StateId → Prop
  | 0, state => chart.isHistory state = false
  | rounds + 1, state =>
      chart.isHistory state = false ∨
        ∀ restored ∈ chart.standsFor records state, SettlesIn chart records rounds restored

section Rounds

variable {chart : Chart} {records : HistoryRecords} {state : StateId}

theorem SettlesIn.ordinary
    (rounds : Nat)
    (ordinary : chart.isHistory state = false) :
    chart.SettlesIn records rounds state := by
  cases rounds with
  | zero => exact ordinary
  | succ rounds => exact .inl ordinary

theorem SettlesIn.succ
    {rounds : Nat}
    (settles : chart.SettlesIn records rounds state) :
    chart.SettlesIn records (rounds + 1) state := by
  induction rounds generalizing state with
  | zero => exact .inl settles
  | succ rounds ih => exact settles.imp_right fun all restored member => ih (all restored member)

theorem SettlesIn.mono
    {fewer rounds : Nat}
    (settles : chart.SettlesIn records fewer state)
    (further : fewer ≤ rounds) :
    chart.SettlesIn records rounds state := by
  induction further with
  | refl => exact settles
  | step _ ih => exact ih.succ

/-- At the latest after as many rounds as there are states, one more adds nothing. -/
theorem exists_last_round (chart : Chart) (records : HistoryRecords) :
    ∃ rounds ≤ chart.size, ∀ state,
      chart.SettlesIn records (rounds + 1) state → chart.SettlesIn records rounds state := by
  by_contra none
  push Not at none
  -- Otherwise each of too many rounds would settle a state of its own.
  choose settled isSettled notBefore using none
  let pick (round : Fin (chart.size + 1)) : Fin chart.size :=
    ⟨settled round (Nat.le_of_lt_succ round.isLt), by
      refine history_in_range (Bool.eq_true_of_not_eq_false fun ordinary => ?_)
      exact notBefore round (Nat.le_of_lt_succ round.isLt) (.ordinary _ ordinary)⟩
  have injective : Function.Injective pick := by
    have apart : ∀ first second : Fin (chart.size + 1), first < second →
        pick first ≠ pick second := by
      intro first second before same
      refine notBefore second (Nat.le_of_lt_succ second.isLt) ?_
      have early := (isSettled first (Nat.le_of_lt_succ first.isLt)).mono
        (Nat.succ_le_of_lt before)
      rwa [show settled first _ = settled second _ from congrArg Fin.val same] at early
    intro first second same
    rcases lt_trichotomy first second with before | equal | after
    · exact absurd same (apart first second before)
    · exact equal
    · exact absurd same.symm (apart second first after)
  have few := Fintype.card_le_of_injective pick injective
  rw [Fintype.card_fin, Fintype.card_fin] at few
  exact Nat.not_succ_le_self _ few

theorem Settles.settlesIn
    (settles : chart.Settles records state) :
    chart.SettlesIn records chart.size state := by
  obtain ⟨rounds, few, last⟩ := exists_last_round chart records
  refine SettlesIn.mono ?_ few
  induction settles with
  | ordinary ordinary => exact .ordinary rounds ordinary
  | restoring _ ih => exact last _ (.inr ih)

/-- What does not settle is a history state that restores something that does not. -/
theorem exists_unsettled
    (unsettled : ¬ chart.Settles records state) :
    chart.isHistory state = true ∧
      ∃ restored ∈ chart.standsFor records state, ¬ chart.Settles records restored := by
  constructor
  · exact Bool.eq_true_of_not_eq_false fun ordinary => unsettled (.ordinary ordinary)
  · by_contra none
    push Not at none
    exact unsettled (.restoring none)

theorem settles_of_sound
    (formed : chart.WellFormed)
    (sound : chart.Sound records)
    (state : StateId) :
    chart.Settles records state :=
  .restoring fun _ member => .ordinary (standsFor_not_history formed sound member)

end Rounds

end Statechart.Chart
