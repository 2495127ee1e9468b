import Mathlib

/-!
Numbers drawn from counters that wrap around at `size`, one counter for each
source. A list of draws has its latest draw first.
-/

namespace RProxy.Ticket

universe u

variable {Source : Type u} [DecidableEq Source] {size : Nat}

def issued (size : Nat) : List Source → List Nat
  | [] => []
  | source :: earlier => earlier.count source % size :: issued size earlier

theorem issued_length (draws : List Source) : (issued size draws).length = draws.length := by
  induction draws with
  | nil => rfl
  | cons source earlier ih => simp [issued, ih]

theorem issued_lt_size (positive : 0 < size) (draws : List Source) :
    ∀ ticket ∈ issued size draws, ticket < size := by
  induction draws with
  | nil => simp [issued]
  | cons source earlier ih =>
      intro ticket member
      rcases List.mem_cons.mp member with rfl | later
      · exact Nat.mod_lt _ positive
      · exact ih ticket later

theorem issued_lt_length (draws : List Source) :
    ∀ ticket ∈ issued size draws, ticket < draws.length := by
  induction draws with
  | nil => simp [issued]
  | cons source earlier ih =>
      intro ticket member
      rw [List.length_cons]
      rcases List.mem_cons.mp member with rfl | later
      · have bound := (Nat.mod_le (earlier.count source) size).trans List.count_le_length
        omega
      · have bound := ih ticket later
        omega

/-- Every counter starts with the same number. -/
theorem zero_issued {draws : List Source} (nonempty : draws ≠ []) : 0 ∈ issued size draws := by
  induction draws with
  | nil => exact absurd rfl nonempty
  | cons source earlier ih =>
      by_cases first : earlier = []
      · subst first
        simp [issued]
      · exact List.mem_cons_of_mem _ (ih first)

/-- A source has drawn the tickets below the number of its draws. -/
theorem mem_issued_iff (positive : 0 < size) (draws : List Source) (source : Source)
    (ticket : Nat) :
    (source, ticket) ∈ draws.zip (issued size draws) ↔
      ticket < size ∧ ticket < draws.count source := by
  induction draws with
  | nil => simp
  | cons latest earlier ih =>
      rw [issued, List.zip_cons_cons, List.mem_cons, ih, List.count_cons, Prod.mk.injEq]
      by_cases same : latest = source
      · subst same
        have below := Nat.mod_lt (earlier.count latest) positive
        have bound := Nat.mod_le (earlier.count latest) size
        simp only [true_and, beq_self_eq_true, ↓reduceIte]
        constructor
        · rintro (rfl | ⟨inside, old⟩)
          · exact ⟨below, by omega⟩
          · exact ⟨inside, by omega⟩
        · rintro ⟨inside, old⟩
          by_cases last : ticket = earlier.count latest
          · left
            rw [last, Nat.mod_eq_of_lt (last ▸ inside)]
          · right
            exact ⟨inside, by omega⟩
      · simp [same, Ne.symm same]

/-- Two sources clash at once. -/
theorem single_source {draws : List Source} (distinct : (issued size draws).Nodup) :
    ∀ first ∈ draws, ∀ second ∈ draws, first = second := by
  induction draws with
  | nil => simp
  | cons source earlier ih =>
      obtain ⟨fresh, later⟩ := List.nodup_cons.mp distinct
      have same := ih later
      have agrees : ∀ other ∈ earlier, other = source := by
        intro other member
        by_contra different
        -- all earlier draws are of the other source, so this one is a first draw too
        have unused : earlier.count source = 0 := by
          apply List.count_eq_zero.mpr
          intro present
          exact different (same other member source present)
        rw [unused, Nat.zero_mod] at fresh
        exact fresh (zero_issued (List.ne_nil_of_mem member))
      have all : ∀ other ∈ source :: earlier, other = source := by
        intro other member
        rcases List.mem_cons.mp member with rfl | present
        · rfl
        · exact agrees other present
      intro first left second right
      rw [all first left, all second right]

theorem issued_nodup {draws : List Source} (single : ∀ first ∈ draws, ∀ second ∈ draws, first = second)
    (few : draws.length ≤ size) : (issued size draws).Nodup := by
  induction draws with
  | nil => exact List.nodup_nil
  | cons source earlier ih =>
      have all : earlier.count source = earlier.length := by
        apply List.count_eq_length.mpr
        intro other member
        exact single source List.mem_cons_self other (List.mem_cons_of_mem _ member)
      rw [List.length_cons] at few
      apply List.nodup_cons.mpr
      constructor
      · rw [all, Nat.mod_eq_of_lt (by omega)]
        intro member
        exact Nat.lt_irrefl _ (issued_lt_length earlier _ member)
      · apply ih
        · intro first left second right
          exact single first (List.mem_cons_of_mem _ left) second (List.mem_cons_of_mem _ right)
        · omega

/-- Tickets are unique exactly for at most `size` draws from one source. -/
theorem issued_nodup_iff (positive : 0 < size) (draws : List Source) :
    (issued size draws).Nodup ↔
      (∀ first ∈ draws, ∀ second ∈ draws, first = second) ∧ draws.length ≤ size := by
  constructor
  · intro distinct
    constructor
    · exact single_source distinct
    · have inside : issued size draws ⊆ List.range size := by
        intro ticket member
        exact List.mem_range.mpr (issued_lt_size positive draws ticket member)
      have bound := (distinct.subperm inside).length_le
      rwa [issued_length, List.length_range] at bound
  · rintro ⟨single, few⟩
    exact issued_nodup single few

end RProxy.Ticket
