import Mathlib.Logic.Function.Basic

/-!
# Resources that are in one place each

`isAt home resource` says that a resource is at a home: in a list, in somebody's hands.
-/

open Function (update update_of_ne update_self update_eq_self)

section

universe u v

variable {Resource : Type u} {Home : Type v}

structure Homed (isResource : Resource → Prop) (isAt : Home → Resource → Prop) : Prop where
  home : ∀ resource, isResource resource → ∃! home, isAt home resource
  resource : ∀ home resource, isAt home resource → isResource resource

namespace Homed

variable {isResource : Resource → Prop} {isAt after : Home → Resource → Prop}
  {home other : Home} {resource : Resource}

section

variable (homed : Homed isResource isAt)

include homed

theorem unique (isHere : isAt home resource) (isThere : isAt other resource) : home = other :=
  (homed.home resource (homed.resource home resource isHere)).unique isHere isThere

theorem not_at (isHere : isAt home resource) (ne : other ≠ home) : ¬ isAt other resource :=
  fun isThere => ne (homed.unique isThere isHere)

theorem move (target : Home) (moves : isResource resource)
    (isAfter : ∀ home other, after home other ↔ (other ≠ resource ∧ isAt home other) ∨
      (other = resource ∧ home = target)) : Homed isResource after where
  home other isOther := by
    by_cases same : other = resource
    · subst same
      exact ⟨target, (isAfter target other).mpr (.inr ⟨rfl, rfl⟩), fun home isHere =>
        (((isAfter home other).mp isHere).resolve_left fun both => both.1 rfl).2⟩
    · obtain ⟨home, isHere, unique⟩ := homed.home other isOther
      exact ⟨home, (isAfter home other).mpr (.inl ⟨same, isHere⟩), fun elsewhere isThere =>
        unique elsewhere (((isAfter elsewhere other).mp isThere).resolve_right
          fun both => same both.1).2⟩
  resource home other isHere := by
    rcases (isAfter home other).mp isHere with ⟨-, before⟩ | ⟨rfl, -⟩
    · exact homed.resource home other before
    · exact moves

end

end Homed

end

/-!
## Resources with exactly one owner

Owners hold at most one resource each.
-/

structure Exactly {Owner Resource : Type} (isOpen : Resource → Prop)
    (owns : Owner → Option Resource) : Prop where
  opened : ∀ owner resource, owns owner = some resource → isOpen resource
  owned : ∀ resource, isOpen resource → ∃ owner, owns owner = some resource
  single : ∀ owner other resource, owns owner = some resource → owns other = some resource →
    owner = other

namespace Exactly

variable {Owner Resource : Type} {isOpen after : Resource → Prop}
  {owns : Owner → Option Resource} {owner : Owner} {old new : Resource}

theorem congr (exact : Exactly isOpen owns) (same : ∀ resource, after resource ↔ isOpen resource) :
    Exactly after owns where
  opened owner resource isOwned := (same resource).mpr (exact.opened owner resource isOwned)
  owned resource isOpen := exact.owned resource ((same resource).mp isOpen)
  single := exact.single

variable [DecidableEq Owner]

theorem acquire (exact : Exactly isOpen owns) (free : owns owner = none) (fresh : ¬ isOpen new)
    (opens : ∀ resource, after resource ↔ isOpen resource ∨ resource = new) :
    Exactly after (update owns owner (some new)) where
  opened other resource isOwned := by
    rw [opens]
    by_cases same : other = owner
    · subst same
      rw [update_self] at isOwned
      exact .inr (Option.some.inj isOwned).symm
    · rw [update_of_ne same] at isOwned
      exact .inl (exact.opened other resource isOwned)
  owned resource isAfter := by
    rcases (opens resource).mp isAfter with before | rfl
    · obtain ⟨other, isOwned⟩ := exact.owned resource before
      have ne : other ≠ owner := by
        rintro rfl
        simp [free] at isOwned
      exact ⟨other, by rwa [update_of_ne ne]⟩
    · exact ⟨owner, update_self ..⟩
  single a second resource isFirst isSecond := by
    by_cases atFirst : a = owner
    · by_cases atSecond : second = owner
      · rw [atFirst, atSecond]
      · subst atFirst
        rw [update_self] at isFirst
        rw [update_of_ne atSecond] at isSecond
        cases isFirst
        exact absurd (exact.opened _ _ isSecond) fresh
    · by_cases atSecond : second = owner
      · subst atSecond
        rw [update_of_ne atFirst] at isFirst
        rw [update_self] at isSecond
        cases isSecond
        exact absurd (exact.opened _ _ isFirst) fresh
      · rw [update_of_ne atFirst] at isFirst
        rw [update_of_ne atSecond] at isSecond
        exact exact.single a second resource isFirst isSecond

theorem release (exact : Exactly isOpen owns) (holds : owns owner = some old)
    (closes : ∀ resource, after resource ↔ isOpen resource ∧ resource ≠ old) :
    Exactly after (update owns owner none) where
  opened other resource isOwned := by
    have ne : other ≠ owner := by
      rintro rfl
      simp at isOwned
    rw [update_of_ne ne] at isOwned
    refine (closes resource).mpr ⟨exact.opened other resource isOwned, ?_⟩
    rintro rfl
    exact ne (exact.single other owner resource isOwned holds)
  owned resource isAfter := by
    obtain ⟨before, notOld⟩ := (closes resource).mp isAfter
    obtain ⟨other, isOwned⟩ := exact.owned resource before
    have ne : other ≠ owner := by
      rintro rfl
      rw [holds] at isOwned
      exact notOld (Option.some.inj isOwned).symm
    exact ⟨other, by rwa [update_of_ne ne]⟩
  single a second resource isFirst isSecond := by
    have atFirst : a ≠ owner := by
      rintro rfl
      simp at isFirst
    have atSecond : second ≠ owner := by
      rintro rfl
      simp at isSecond
    rw [update_of_ne atFirst] at isFirst
    rw [update_of_ne atSecond] at isSecond
    exact exact.single a second resource isFirst isSecond

theorem without (exact : Exactly isOpen owns) (free : owns owner = none) :
    Exactly isOpen (update owns owner none) := by
  rwa [← free, update_eq_self]

end Exactly
