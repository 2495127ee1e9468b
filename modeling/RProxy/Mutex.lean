import Mathlib

/-!
The invariant of a lock. `claim who` is what `who` knows about the protected
data where it stands inside the section, and `none` outside of it; `free` is
what holds of the data while nobody has the lock.
-/

namespace RProxy

structure Guarded {Who : Type} (mutex : Option Who) (free : Prop) (claim : Who → Option Prop) :
    Prop where
  free : mutex = none → free
  held : ∀ who, mutex = some who → ∃ known ∈ claim who, known
  inside : ∀ who, (claim who).isSome → mutex = some who

namespace Guarded

variable {Who : Type} {mutex : Option Who} {who : Who} {before after known : Prop}
variable {claim next : Who → Option Prop}

theorem knows (guarded : Guarded mutex before claim) (inside : claim who = some known) :
    mutex = some who ∧ known := by
  have mine := guarded.inside who (by rw [inside]; rfl)
  obtain ⟨other, member, holds⟩ := guarded.held who mine
  rw [inside] at member
  cases member
  exact ⟨mine, holds⟩

/-- Taking the lock: what is free becomes known. -/
theorem enter (guarded : Guarded none before claim) (entered : next who = some known)
    (others : ∀ other, other ≠ who → (next other).isSome → (claim other).isSome)
    (learn : before → known) : Guarded (some who) after next := by
  constructor
  · intro wrong
    cases wrong
  · intro other same
    cases same
    exact ⟨known, entered, learn (guarded.free rfl)⟩
  · intro other inside
    by_cases same : other = who
    · rw [same]
    · cases guarded.inside other (others other same inside)

/-- A step inside the section may change the data. -/
theorem stay (guarded : Guarded (some who) before claim) (moved : next who = some known)
    (others : ∀ other, other ≠ who → (next other).isSome → (claim other).isSome)
    (holds : known) : Guarded (some who) after next := by
  constructor
  · intro wrong
    cases wrong
  · intro other same
    cases same
    exact ⟨known, moved, holds⟩
  · intro other inside
    by_cases same : other = who
    · rw [same]
    · exact guarded.inside other (others other same inside)

theorem leave (guarded : Guarded (some who) before claim) (gone : next who = none)
    (others : ∀ other, other ≠ who → (next other).isSome → (claim other).isSome)
    (holds : after) : Guarded none after next := by
  constructor
  · intro _
    exact holds
  · intro other wrong
    cases wrong
  · intro other inside
    by_cases same : other = who
    · rw [same, gone] at inside
      cases inside
    · have mine := guarded.inside other (others other same inside)
      exact absurd (Option.some.inj mine).symm same

/-- A step outside the section leaves the data alone. -/
theorem aside (guarded : Guarded mutex before claim) (left : claim who = none)
    (right : next who = none) (others : ∀ other, other ≠ who → next other = claim other) :
    Guarded mutex before next := by
  have same : next = claim := by
    funext other
    by_cases here : other = who
    · rw [here, left, right]
    · exact others other here
  rw [same]
  exact guarded

end Guarded
end RProxy
