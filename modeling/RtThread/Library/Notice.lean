import Mathlib.Logic.Basic

/-!
# Waiting for notices

A consumer works until it finds nothing left, forgets the notices that have come so far and waits
for the next one.
-/

inductive Notice.Phase where
  | working
  | armed
  | waiting
  deriving DecidableEq

structure Notice where
  phase : Notice.Phase
  notices : Nat
  stored : Prop
  owed : Prop

namespace Notice

inductive Step : Notice → Notice → Prop where
  | store {before after : Notice} (phase : after.phase = before.phase)
      (notices : after.notices = before.notices) (owed : after.owed) : Step before after
  | remove {before after : Notice} (phase : after.phase = before.phase)
      (notices : after.notices = before.notices) (stored : after.stored → before.stored)
      (owed : before.owed → after.owed) : Step before after
  | wake {before after : Notice} (phase : after.phase = .working) : Step before after
  | keep {before after : Notice} (phase : before.phase ≠ .waiting)
      (sameOrWorking : after.phase = before.phase)
      (notices : before.phase = .armed → after.notices ≠ 0) : Step before after
  | forget {before after : Notice} (owed : before.stored → before.owed)
      (sameStored : after.stored → before.stored) (sameOwed : before.owed → after.owed) :
      Step before after
  | wait {before after : Notice} (phase : before.phase = .armed) (none : before.notices = 0)
      (sameStored : after.stored → before.stored) (sameOwed : before.owed → after.owed) :
      Step before after

def Sound (notice : Notice) : Prop :=
  notice.phase ≠ .working → notice.notices = 0 → notice.stored → notice.owed

theorem Sound.of_working {notice : Notice} (phase : notice.phase = .working) : notice.Sound :=
  fun away => absurd phase away

theorem Step.sound {before s' : Notice} (inv : before.Sound) (step : Step before s') :
    s'.Sound := by
  intro away none stored
  cases step with
  | store _ _ owed => exact owed
  | remove phase notices sameStored sameOwed =>
    rw [phase] at away
    rw [notices] at none
    exact sameOwed (inv away none (sameStored stored))
  | wake phase => exact absurd phase away
  | keep waits phase notices =>
    rw [phase] at away
    cases isPhase : before.phase with
    | working => exact absurd isPhase away
    | armed => exact absurd none (notices isPhase)
    | waiting => exact absurd isPhase waits
  | forget owed sameStored sameOwed => exact sameOwed (owed (sameStored stored))
  | wait phase isNone sameStored sameOwed =>
    have away : before.phase ≠ .working := by
      rw [phase]
      decide
    exact sameOwed (inv away isNone (sameStored stored))

theorem Sound.nothing_stored {notice : Notice} (inv : notice.Sound)
    (waits : notice.phase = .waiting) (none : notice.notices = 0) (settled : ¬ notice.owed) :
    ¬ notice.stored := by
  intro stored
  refine settled (inv ?_ none stored)
  rw [waits]
  decide

end Notice
