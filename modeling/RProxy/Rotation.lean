import RProxy.Group
import RProxy.Machine

/-!
`LoopThreadGroup::registerFd` called by any number of threads: the section under
`mx_` moves the cursor, and the descriptor goes to the demultiplexer it was on
after the lock is released. The cursor is a position that may leave the vector.
-/

namespace RProxy.Rotation

/-- A call that has left the section under `mx_`, with its copy of the cursor. -/
structure Call (Thread : Type) where
  thread : Thread
  i : Nat
  fd : Fd
  deriving DecidableEq

/-- `dmpes` has what `demultiplexRegister` was called with; `selected` is the
history of the sections under `mx_`, each with the descriptor of its call. -/
structure Group (Thread : Type) where
  dmpes : List (List Fd)
  iter : Nat
  calls : List (Call Thread)
  selected : List (Nat × Fd)
  fault : Option Fault

inductive Action (Thread : Type) where
  | select (thread : Thread) (fd : Fd)
  | register (call : Call Thread)

section Steps

variable {Thread : Type} [DecidableEq Thread]

def init (n : Nat) : Group Thread where
  dmpes := List.replicate n []
  iter := 0
  calls := []
  selected := []
  fault := none

/-- `iter_++`, and back to `begin()` where that is the end. -/
def advance (size iter : Nat) : Nat := if iter + 1 = size then 0 else iter + 1

namespace Group

variable (group : Group Thread)

/-- `i = iter_++` and the test of `iter_`, under the lock. The end has no
successor. -/
def select (thread : Thread) (fd : Fd) : Group Thread :=
  if group.iter < group.dmpes.length then
    { group with
      iter := advance group.dmpes.length group.iter
      calls := group.calls ++ [⟨thread, group.iter, fd⟩]
      selected := group.selected ++ [(group.iter, fd)] }
  else { group with fault := some .undefined }

/-- `(*i)->demultiplexRegister(fd)` -/
def register (call : Call Thread) : Group Thread :=
  if call.i < group.dmpes.length then
    { group with
      dmpes := group.dmpes.modify call.i (· ++ [call.fd])
      calls := group.calls.erase call }
  else { group with fault := some .undefined }

end Group

/-- A thread is in one call at a time. -/
def group : Machine (Group Thread) (Action Thread) where
  step state action :=
    if state.fault.isSome then none
    else
      match action with
      | .select thread fd =>
          if thread ∈ state.calls.map Call.thread then none else some (state.select thread fd)
      | .register call => if call ∈ state.calls then some (state.register call) else none

end Steps

section Results

variable {Thread : Type} {n : Nat}

/-- Two of the loops differ by at most one in what they were given. -/
def Level (n : Nat) (given : Nat → Nat) : Prop := ∀ i < n, ∀ j < n, given i ≤ given j + 1

/-- What demultiplexer `i` was given and the calls under way are about to give it. -/
def Group.due (state : Group Thread) (i : Nat) : List Fd :=
  state.dmpes.getD i [] ++ (state.calls.filter fun call => call.i = i).map Call.fd

/-- The descriptors whose calls selected demultiplexer `i`. -/
def Group.meant (state : Group Thread) (i : Nat) : List Fd :=
  (state.selected.filter fun turn => turn.1 = i).map Prod.snd

/-- The `k`-th selection, counted from 0, is of demultiplexer `k % n`, and what
the loops were given is level; so is what they have once no call is under way. By
`balance` a selected demultiplexer, and no other, gets the descriptor of the call. -/
structure Spread (n : Nat) (state : Group Thread) : Prop where
  fault : state.fault = none
  cursor : state.iter < state.dmpes.length
  order : ∀ k turn, state.selected[k]? = some turn → turn.1 = k % n
  given : Level n fun i => (state.meant i).length
  registered : state.calls = [] → Level n fun i => (state.dmpes.getD i []).length
  balance : ∀ i < n, (state.due i).Perm (state.meant i)

/-- What the steps keep. -/
structure Turning (n : Nat) (state : Group Thread) : Prop where
  fault : state.fault = none
  size : state.dmpes.length = n
  cursor : state.iter = state.selected.length % n
  order : state.selected.map Prod.fst = (List.range state.selected.length).map (· % n)
  inside : ∀ call ∈ state.calls, call.i < n
  balance : ∀ i < n, (state.due i).Perm (state.meant i)

theorem Group.meant_length (state : Group Thread) (i : Nat) :
    (state.meant i).length = (state.selected.map Prod.fst).count i := by
  rw [meant, List.length_map, ← List.countP_eq_length_filter, List.count, List.countP_map]
  exact List.countP_congr fun turn _ => by simp

theorem advance_mod (positive : 0 < n) (k : Nat) : advance n (k % n) = (k + 1) % n := by
  have inside := Nat.mod_lt k positive
  rw [advance, ← Nat.mod_add_mod k n 1]
  split
  · next last => rw [last, Nat.mod_self]
  · exact (Nat.mod_eq_of_lt (by omega)).symm

/-- The cursor of the group that watches descriptors moves in the same way. -/
theorem advance_agrees (iter : Fin n) :
    (LoopThreadGroup.advance iter).val = advance n iter.val := by
  have inside := iter.isLt
  rw [LoopThreadGroup.advance, advance]
  split
  · next more => rw [if_neg (by omega)]
  · next last => rw [if_pos (by omega)]

theorem count_mod (k i : Nat) :
    ((List.range k).map (· % n)).count i = k.count fun j => j % n = i := by
  induction k with
  | zero => rfl
  | succ k ih =>
      rw [List.range_succ, List.map_append, List.count_append, ih, Nat.count_succ, List.map_singleton,
        List.count_singleton]
      simp only [beq_iff_eq]

theorem count_selected (k i : Nat) (inside : i < n) :
    ((List.range k).map (· % n)).count i = k / n + if i < k % n then 1 else 0 := by
  have counted := Nat.count_modEq_card k (Nat.zero_lt_of_lt inside) i
  simp only [Nat.ModEq, Nat.mod_eq_of_lt inside] at counted
  rw [count_mod, counted]

theorem level_selected (k : Nat) :
    Level n fun i => ((List.range k).map (· % n)).count i := by
  intro i inside j otherInside
  simp only [count_selected k _ inside, count_selected k _ otherInside]
  split <;> split <;> omega

theorem spread_of_turning (positive : 0 < n) {state : Group Thread} (turning : Turning n state) :
    Spread n state := by
  have given : Level n fun i => (state.meant i).length := by
    simp only [Group.meant_length, turning.order]
    exact level_selected _
  refine ⟨turning.fault, ?_, ?_, given, ?_, turning.balance⟩
  · rw [turning.size, turning.cursor]
    exact Nat.mod_lt _ positive
  · intro k turn found
    have listed : (state.selected.map Prod.fst)[k]? = some turn.1 := by
      rw [List.getElem?_map, found, Option.map_some]
    rw [turning.order, List.getElem?_map, Option.map_eq_some_iff] at listed
    obtain ⟨j, inRange, same⟩ := listed
    rw [List.getElem?_eq_some_iff] at inRange
    obtain ⟨_, rfl⟩ := inRange
    rw [← same, List.getElem_range]
  · intro idle i inside j otherInside
    have here := (turning.balance i inside).length_eq
    have there := (turning.balance j otherInside).length_eq
    simp only [Group.due, idle, List.filter_nil, List.map_nil, List.append_nil] at here there
    simp only [here, there]
    exact given i inside j otherInside

theorem init_turning (n : Nat) : Turning n (init n : Group Thread) := by
  refine ⟨rfl, List.length_replicate, (Nat.zero_mod n).symm, rfl, by simp [init], ?_⟩
  intro i inside
  simp [init, Group.due, Group.meant, inside]

theorem modify_getD (dmpes : List (List Fd)) {i : Nat} (inside : i < dmpes.length) (j : Nat)
    (fd : Fd) : (dmpes.modify i (· ++ [fd])).getD j [] =
      dmpes.getD j [] ++ if i = j then [fd] else [] := by
  rw [List.getD_eq_getElem?_getD, List.getD_eq_getElem?_getD]
  by_cases here : i = j
  · subst here
    rw [List.getElem?_modify_eq, List.getElem?_eq_getElem inside, if_pos rfl]
    simp
  · rw [List.getElem?_modify_ne _ _ here, if_neg here, List.append_nil]

theorem select_turning (positive : 0 < n) {state : Group Thread} (turning : Turning n state)
    (thread : Thread) (fd : Fd) : Turning n (state.select thread fd) := by
  have valid : state.iter < state.dmpes.length := (spread_of_turning positive turning).cursor
  rw [Group.select, if_pos valid]
  constructor
  · exact turning.fault
  · exact turning.size
  · simp only [List.length_append, List.length_singleton]
    rw [turning.size, turning.cursor, advance_mod positive]
  · simp only [List.length_append, List.length_singleton, List.map_append, List.map_singleton]
    rw [List.range_succ, List.map_append, ← turning.order, turning.cursor]
    rfl
  · intro call listed
    rcases List.mem_append.mp listed with earlier | now
    · exact turning.inside call earlier
    · rw [List.mem_singleton] at now
      rw [now, ← turning.size]
      exact valid
  · intro i inside
    have before := turning.balance i inside
    simp only [Group.due, Group.meant, List.filter_append, List.map_append] at before ⊢
    rw [← List.append_assoc]
    refine before.append ?_
    -- the call under way and the selection carry the same descriptor
    by_cases here : state.iter = i <;> simp [here]

variable [DecidableEq Thread]

theorem register_turning {state : Group Thread} (turning : Turning n state) {call : Call Thread}
    (listed : call ∈ state.calls) : Turning n (state.register call) := by
  have valid : call.i < state.dmpes.length := turning.size ▸ turning.inside call listed
  rw [Group.register, if_pos valid]
  constructor
  · exact turning.fault
  · rw [List.length_modify]
    exact turning.size
  · exact turning.cursor
  · exact turning.order
  · intro other left
    exact turning.inside other (List.mem_of_mem_erase left)
  · intro i inside
    have left := ((List.perm_cons_erase listed).filter fun other => other.i = i).map Call.fd
    refine List.Perm.trans ?_ (turning.balance i inside)
    simp only [Group.due]
    rw [modify_getD state.dmpes valid i call.fd, List.append_assoc]
    refine List.Perm.append_left _ (List.Perm.trans ?_ left.symm)
    -- what the demultiplexer has now the call was about to give it
    by_cases here : call.i = i <;> simp [here]

theorem step_turning (positive : 0 < n) (state : Group Thread) (action : Action Thread)
    (next : Group Thread) (turning : Turning n state)
    (stepped : group.step state action = some next) : Turning n next := by
  simp only [group, turning.fault, Option.isSome_none, Bool.false_eq_true, ↓reduceIte] at stepped
  cases action with
  | select thread fd =>
      simp only at stepped
      split at stepped
      · cases stepped
      · cases stepped
        exact select_turning positive turning thread fd
  | register call =>
      simp only at stepped
      split at stepped
      · next listed =>
          cases stepped
          exact register_turning turning listed
      · cases stepped

/-- In every interleaving of calls the selections go round the demultiplexers,
the cursor is on one of them, and the descriptors are spread evenly. -/
theorem registrations_spread (positive : 0 < n) (actions : List (Action Thread)) :
    group.Always (Spread n) (init n) actions :=
  group.always_preserves (step_turning positive) (fun _ => spread_of_turning positive)
    (init_turning n) actions

theorem two_threads_spread : (group : Machine (Group Bool) (Action Bool)).Always (Spread 2) (init 2)
    [.select true 5, .select false 6, .register ⟨false, 1, 6⟩, .select false 7,
      .register ⟨true, 0, 5⟩, .register ⟨false, 0, 7⟩] :=
  registrations_spread (by decide) _

end Results
end RProxy.Rotation
