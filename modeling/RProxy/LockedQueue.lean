import RProxy.Basic
import RProxy.Machine

/-!
`LockedQueue` under any interleaving of its threads. `push`, `empty` and the
first part of `pop` hold the lock; `queue_.pop()` comes after it is released,
and removes whatever is at the front then. What `pop` returns is copied after
that through the reference `ret`.
-/

namespace RProxy.LockedQueue

/-- Two pushes of equal values are told apart by their number. -/
structure Item (T : Type) where
  ticket : Nat
  value : T
  deriving DecidableEq

/-- A thread in `pop`, with the element that its `ret` refers to. -/
structure Call (T Thread : Type) where
  thread : Thread
  ret : Item T
  deriving DecidableEq

/-- `popping` are the calls before their `queue_.pop()`, `copying` those after it.
`picked` has the elements referred to in the order of the locked steps, `returned`
each with the value that was copied through the reference. -/
structure Queue (T Thread : Type) where
  queue : List (Item T)
  size : UInt64
  popping : List (Call T Thread)
  copying : List (Call T Thread)
  pushed : List (Item T)
  picked : List (Item T)
  returned : List (Item T × T)
  fault : Option Fault

inductive Action (T Thread : Type) where
  | push (v : T)
  | pop (thread : Thread)
  | remove (thread : Thread)
  | copy (thread : Thread) (read : T)
  | empty

section Steps

variable {T Thread : Type}

/-- The constructor does not initialise `size_`, which holds `garbage`. -/
def start (garbage : UInt64) : Queue T Thread where
  queue := []
  size := garbage
  popping := []
  copying := []
  pushed := []
  picked := []
  returned := []
  fault := none

def Call.isOf [DecidableEq Thread] (thread : Thread) (call : Call T Thread) : Bool :=
  call.thread = thread

namespace Queue

variable (state : Queue T Thread)

def push (v : T) : Queue T Thread :=
  let item : Item T := ⟨state.pushed.length, v⟩
  { state with
    queue := state.queue ++ [item]
    size := state.size + 1
    pushed := state.pushed ++ [item] }

/-- The part of `pop` under the lock, which waits for an element; `ret` refers to
the one at the front. -/
def pop (thread : Thread) : Option (Queue T Thread) :=
  match state.queue with
  | [] => none
  | ret :: _ => some { state with
      size := state.size - 1
      popping := state.popping ++ [⟨thread, ret⟩]
      picked := state.picked ++ [ret] }

/-- `queue_.pop()` of the call, which an empty queue does not have. It destroys the
element that `ret` refers to, unless another call has done so. -/
def remove [DecidableEq Thread] (call : Call T Thread) : Queue T Thread :=
  match state.queue with
  | [] => { state with fault := some .undefined }
  | _ :: rest => { state with
      queue := rest
      popping := state.popping.eraseP (Call.isOf call.thread)
      copying := state.copying ++ [call] }

/-- `return ret;` where the element is destroyed already: what is `read` there may be
anything. -/
def copy [DecidableEq Thread] (call : Call T Thread) (read : T) : Queue T Thread :=
  { state with
    copying := state.copying.eraseP (Call.isOf call.thread)
    returned := state.returned ++ [(call.ret, read)] }

/-- `size_.load()` as a `bool` -/
def empty : Bool := state.size != 0

/-- How many elements are pushed and not popped. -/
def left : Nat := state.pushed.length - state.picked.length

/-- What the calls that have not returned refer to. -/
def underWay : List (Item T) := (state.popping ++ state.copying).map Call.ret

end Queue

/-- A thread is in one call at a time. -/
def lockedQueue [DecidableEq Thread] : Machine (Queue T Thread) (Action T Thread) where
  step state action :=
    if state.fault.isSome then none
    else
      match action with
      | .push v => some (state.push v)
      | .pop thread =>
          if (state.popping ++ state.copying).any (Call.isOf thread) then none else state.pop thread
      | .remove thread => (state.popping.find? (Call.isOf thread)).map state.remove
      | .copy thread read =>
          (state.copying.find? (Call.isOf thread)).map fun call => state.copy call read
      | .empty => some state

/-- The locked steps of `pop` pick the elements in the order of the pushes, the others
are still in the queue, and what is picked is returned once, with its value. -/
structure HandsOut (state : Queue T Thread) : Prop where
  inOrder : state.picked = state.pushed.take state.picked.length
  kept : ∀ item ∈ state.pushed.drop state.picked.length, item ∈ state.queue
  once : (state.returned.map Prod.fst ++ state.underWay).Perm state.picked
  values : ∀ result ∈ state.returned, result.2 = result.1.value

/-- `empty()` is true exactly where nothing is left. -/
def Answers (state : Queue T Thread) : Action T Thread → Prop
  | .empty => state.empty = true ↔ state.left = 0
  | _ => True

/-- No thread enters `pop` while another one is about to remove, the memory of the
destroyed element still has its value when that is copied, and `empty()` is called
where what `size_` started with makes up for its inverted test. A thread that is in
`pop` does not enter it. -/
def Apart [DecidableEq Thread] (garbage : UInt64) (state : Queue T Thread) :
    Action T Thread → Prop
  | .pop thread => state.popping = [] ∨ (state.popping ++ state.copying).any (Call.isOf thread)
  | .copy thread read => ∀ call, state.copying.find? (Call.isOf thread) = some call →
      read = call.ret.value
  | .empty => (state.left = 0 ∧ garbage ≠ 0) ∨
      (state.left ≠ 0 ∧ garbage + UInt64.ofNat state.left = 0)
  | _ => True

end Steps

section Results

variable {T Thread : Type} {garbage : UInt64} {state : Queue T Thread}

/-- The elements pushed: those that are removed, those that a thread is about to
remove, and the others. -/
structure Cut (state : Queue T Thread) (removed pending rest : List (Item T)) : Prop where
  pushed : state.pushed = removed ++ pending ++ rest
  picked : state.picked = removed ++ pending
  queue : state.queue = pending ++ rest
  popping : state.popping.map Call.ret = pending
  single : pending.length ≤ 1

structure Orderly (garbage : UInt64) (state : Queue T Thread) : Prop where
  fault : state.fault = none
  tickets : ∀ (k : Nat) (item : Item T), state.pushed[k]? = some item → item.ticket = k
  size : state.size = garbage + UInt64.ofNat state.left
  once : (state.returned.map Prod.fst ++ state.underWay).Perm state.picked
  values : ∀ result ∈ state.returned, result.2 = result.1.value
  cut : ∃ removed pending rest, Cut state removed pending rest

theorem Cut.left {removed pending rest : List (Item T)} (cut : Cut state removed pending rest) :
    state.left = rest.length := by
  rw [Queue.left, cut.pushed, cut.picked]
  simp only [List.length_append]
  omega

/-- At most one call is before its removal, and what it refers to is at the front. -/
theorem Cut.front {removed pending rest : List (Item T)} (cut : Cut state removed pending rest)
    {call : Call T Thread} (busy : call ∈ state.popping) :
    pending = [call.ret] ∧ state.popping = [call] := by
  have length : state.popping.length = pending.length := by rw [← cut.popping, List.length_map]
  have single : state.popping.length = 1 :=
    Nat.le_antisymm (length ▸ cut.single) (List.length_pos_of_mem busy)
  obtain ⟨only, listed⟩ := List.length_eq_one_iff.mp single
  have same : call = only := by simpa [listed] using busy
  subst same
  refine ⟨?_, listed⟩
  rw [← cut.popping, listed, List.map_singleton]

theorem orderly_hands_out (orderly : Orderly garbage state) : HandsOut state := by
  obtain ⟨removed, pending, rest, cut⟩ := orderly.cut
  refine ⟨?_, ?_, orderly.once, orderly.values⟩
  · rw [cut.pushed, cut.picked, List.take_left]
  · intro item waiting
    rw [cut.pushed, cut.picked, List.drop_left] at waiting
    rw [cut.queue]
    exact List.mem_append_right _ waiting

theorem start_orderly (garbage : UInt64) : Orderly garbage (start garbage : Queue T Thread) := by
  refine ⟨rfl, ?_, ?_, List.Perm.refl _, ?_, [], [], [], rfl, rfl, rfl, rfl, Nat.zero_le _⟩
  · intro k item found
    cases found
  · simp [start, Queue.left]
  · intro result member
    cases member

theorem push_orderly (orderly : Orderly garbage state) (v : T) :
    Orderly garbage (state.push v) := by
  obtain ⟨removed, pending, rest, cut⟩ := orderly.cut
  have next : Cut (state.push v) removed pending (rest ++ [⟨state.pushed.length, v⟩]) := by
    refine ⟨?_, cut.picked, ?_, cut.popping, cut.single⟩
    · rw [Queue.push]
      simp only
      rw [cut.pushed, List.append_assoc]
    · rw [Queue.push]
      simp only
      rw [cut.queue, List.append_assoc]
  refine ⟨orderly.fault, ?_, ?_, orderly.once, orderly.values, removed, pending, _, next⟩
  · intro k item found
    rw [Queue.push, List.getElem?_append] at found
    split at found
    · exact orderly.tickets k item found
    · next past =>
        obtain ⟨here, rfl⟩ := List.getElem?_eq_some_iff.mp found
        rw [List.length_singleton] at here
        simp only [List.getElem_singleton]
        omega
  · rw [next.left, List.length_append, List.length_singleton, UInt64.ofNat_add, ← add_assoc,
      ← cut.left, ← orderly.size]
    rfl

theorem pop_orderly {thread : Thread} {next : Queue T Thread} (orderly : Orderly garbage state)
    (idle : state.popping = []) (popped : state.pop thread = some next) :
    Orderly garbage next := by
  obtain ⟨removed, pending, rest, cut⟩ := orderly.cut
  have nobody : pending = [] := by
    rw [← cut.popping, idle]
    rfl
  subst nobody
  have queue : state.queue = rest := cut.queue
  cases rest with
  | nil => simp [Queue.pop, queue] at popped
  | cons ret rest =>
      simp only [Queue.pop, queue, Option.some.injEq] at popped
      have later : Cut next removed [ret] rest := by
        subst popped
        refine ⟨?_, ?_, rfl, ?_, Nat.le_refl _⟩
        · simpa using cut.pushed
        · simp [cut.picked]
        · simp [idle]
      have size : state.size = garbage + (UInt64.ofNat rest.length + 1) := by
        rw [orderly.size, cut.left, List.length_cons, UInt64.ofNat_add]
        rfl
      refine ⟨popped ▸ orderly.fault, popped ▸ orderly.tickets, ?_, ?_, popped ▸ orderly.values,
        removed, [ret], rest, later⟩
      · rw [later.left, ← popped]
        simp only
        rw [size, ← add_assoc, add_sub_cancel_right]
      · subst popped
        have before := orderly.once
        simp only [Queue.underWay, idle, List.nil_append, List.singleton_append] at before ⊢
        exact List.perm_middle.trans ((before.cons ret).trans (List.perm_append_singleton _ _).symm)

/-- A second thread in `pop` gets the element of the first. -/
theorem pop_twice {thread : Thread} {other : Call T Thread} {next : Queue T Thread}
    (orderly : Orderly garbage state) (busy : other ∈ state.popping)
    (popped : state.pop thread = some next) : ¬ HandsOut next := by
  obtain ⟨removed, pending, rest, cut⟩ := orderly.cut
  obtain ⟨rfl, _⟩ := cut.front busy
  simp only [Queue.pop, cut.queue, List.singleton_append, Option.some.injEq] at popped
  subst popped
  intro handsOut
  have twice := handsOut.inOrder
  simp only [cut.picked] at twice
  have first : state.pushed[removed.length]? = some other.ret := by simp [cut.pushed]
  have second : state.pushed[removed.length + 1]? = some other.ret := by
    have here := congrArg (·[removed.length + 1]?) twice
    simpa [List.getElem?_take] using here.symm
  have early := orderly.tickets _ _ first
  have late := orderly.tickets _ _ second
  omega

/-- A copy that is not the value of the element stays wrong. -/
theorem copy_values [DecidableEq Thread] {call : Call T Thread} {read : T}
    (handsOut : HandsOut (state.copy call read)) : read = call.ret.value :=
  handsOut.values (call.ret, read) (by simp [Queue.copy])

variable [DecidableEq Thread]

theorem found_perm {calls : List (Call T Thread)} {thread : Thread} {call : Call T Thread}
    (found : calls.find? (Call.isOf thread) = some call) :
    call.thread = thread ∧ calls.Perm (call :: calls.eraseP (Call.isOf thread)) := by
  obtain ⟨isOf, before, after, shape, others⟩ := List.find?_eq_some_iff_append.mp found
  refine ⟨of_decide_eq_true isOf, ?_⟩
  have passed : ∀ other ∈ before, ¬ Call.isOf thread other = true := by
    intro other member
    simpa using others other member
  rw [shape, List.eraseP_append_right _ passed, List.eraseP_cons_of_pos isOf]
  exact List.perm_middle

theorem answers_iff_apart (orderly : Orderly garbage state) :
    Answers state .empty ↔ Apart garbage state .empty := by
  have size := orderly.size
  by_cases nothing : state.left = 0
  · rw [nothing] at size
    simp [Answers, Apart, Queue.empty, nothing, size]
  · simp [Answers, Apart, Queue.empty, nothing, size]

theorem remove_orderly {thread : Thread} {call : Call T Thread} (orderly : Orderly garbage state)
    (found : state.popping.find? (Call.isOf thread) = some call) :
    Orderly garbage (state.remove call) := by
  obtain ⟨removed, pending, rest, cut⟩ := orderly.cut
  obtain ⟨rfl, only⟩ := cut.front (List.mem_of_find?_eq_some found)
  have gone : state.popping.eraseP (Call.isOf call.thread) = [] := by
    rw [only, List.eraseP_cons_of_pos (by simp [Call.isOf])]
  simp only [Queue.remove, cut.queue, List.singleton_append, gone]
  refine ⟨orderly.fault, orderly.tickets, orderly.size, ?_, orderly.values, removed ++ [call.ret],
    [], rest, ?_⟩
  · have before := orderly.once
    simp only [Queue.underWay, only, List.singleton_append, List.map_cons] at before
    simp only [Queue.underWay, List.nil_append, List.map_append, List.map_singleton]
    exact ((List.perm_append_singleton _ _).append_left _).trans before
  · refine ⟨?_, ?_, rfl, rfl, Nat.zero_le _⟩
    · simpa using cut.pushed
    · simpa using cut.picked

theorem copy_orderly {thread : Thread} {call : Call T Thread} {read : T}
    (orderly : Orderly garbage state)
    (found : state.copying.find? (Call.isOf thread) = some call) (kept : read = call.ret.value) :
    Orderly garbage (state.copy call read) := by
  obtain ⟨rfl, moved⟩ := found_perm found
  obtain ⟨removed, pending, rest, cut⟩ := orderly.cut
  refine ⟨orderly.fault, orderly.tickets, orderly.size, ?_, ?_, removed, pending, rest,
    ⟨cut.pushed, cut.picked, cut.queue, cut.popping, cut.single⟩⟩
  · refine List.Perm.trans ?_ orderly.once
    simp only [Queue.copy, Queue.underWay, List.map_append, List.map_singleton, List.append_assoc,
      List.singleton_append]
    refine List.Perm.append_left _ (List.perm_middle.symm.trans ?_)
    exact ((moved.map Call.ret).symm).append_left _
  · intro result member
    simp only [Queue.copy, List.mem_append, List.mem_singleton] at member
    rcases member with earlier | rfl
    · exact orderly.values result earlier
    · exact kept

theorem step_orderly (state : Queue T Thread) (action : Action T Thread) (next : Queue T Thread)
    (orderly : Orderly garbage state) (apart : Apart garbage state action)
    (stepped : lockedQueue.step state action = some next) : Orderly garbage next := by
  simp only [lockedQueue, orderly.fault, Option.isSome_none, Bool.false_eq_true, ↓reduceIte]
    at stepped
  cases action with
  | push v =>
      cases stepped
      exact push_orderly orderly v
  | pop thread =>
      simp only at stepped
      split at stepped
      · cases stepped
      · next outside =>
          exact pop_orderly orderly (apart.resolve_right outside) stepped
  | remove thread =>
      obtain ⟨call, found, rfl⟩ := Option.map_eq_some_iff.mp stepped
      exact remove_orderly orderly found
  | copy thread read =>
      obtain ⟨call, found, rfl⟩ := Option.map_eq_some_iff.mp stepped
      exact copy_orderly orderly found (apart call found)
  | empty =>
      cases stepped
      exact orderly

theorem apart_of_hands_out (state : Queue T Thread) (action : Action T Thread)
    (next : Queue T Thread) (orderly : Orderly garbage state)
    (stepped : lockedQueue.step state action = some next) (handsOut : HandsOut next)
    (answers : Answers state action) : Apart garbage state action := by
  simp only [lockedQueue, orderly.fault, Option.isSome_none, Bool.false_eq_true, ↓reduceIte]
    at stepped
  cases action with
  | push v => trivial
  | pop thread =>
      simp only at stepped
      split at stepped
      · cases stepped
      · left
        rw [List.eq_nil_iff_forall_not_mem]
        intro call busy
        exact pop_twice orderly busy stepped handsOut
  | remove thread => trivial
  | copy thread read =>
      intro call found
      simp only [found, Option.map_some, Option.some.injEq] at stepped
      subst stepped
      exact copy_values handsOut
  | empty => exact (answers_iff_apart orderly).mp answers

theorem apart_of_blocked (state : Queue T Thread) (action : Action T Thread)
    (orderly : Orderly garbage state) (blocked : lockedQueue.step state action = none) :
    Apart garbage state action := by
  simp only [lockedQueue, orderly.fault, Option.isSome_none, Bool.false_eq_true, ↓reduceIte]
    at blocked
  cases action with
  | push v => trivial
  | pop thread =>
      simp only at blocked
      split at blocked
      · next inside => exact Or.inr inside
      · left
        -- whoever is about to remove has an element to remove
        rw [List.eq_nil_iff_forall_not_mem]
        intro call busy
        obtain ⟨removed, pending, rest, cut⟩ := orderly.cut
        obtain ⟨rfl, _⟩ := cut.front busy
        simp [Queue.pop, cut.queue] at blocked
  | remove thread => trivial
  | copy thread read =>
      intro call found
      simp [found] at blocked
  | empty => cases blocked

/-- The elements are handed out once and in order, and `empty()` tells whether
some are left, exactly in the runs in which no two threads overlap before their
`queue_.pop()`, every destroyed element can still be copied, and `empty()` is called
where its answer happens to fit. -/
theorem handed_out_once_iff (garbage : UInt64) (actions : List (Action T Thread)) :
    lockedQueue.Always HandsOut (start garbage) actions ∧
        lockedQueue.Meets Answers (start garbage) actions ↔
      lockedQueue.Meets (Apart garbage) (start garbage) actions := by
  refine lockedQueue.always_and_meets_iff step_orderly (fun _ => orderly_hands_out) ?_
    apart_of_hands_out apart_of_blocked (start_orderly garbage) actions
  intro state action orderly apart
  cases action with
  | empty => exact (answers_iff_apart orderly).mpr apart
  | _ => trivial

/-- Two workers enter `pop` one after the other, both get the first task, and the
second one is removed without being returned. -/
theorem first_task_returned_twice : ¬ ∀ (garbage : UInt64) (actions : List (Action Char Bool)),
    lockedQueue.Always HandsOut (start garbage) actions ∧
      lockedQueue.Meets Answers (start garbage) actions := by
  intro claim
  have always := (claim 0 [.push 'a', .push 'b', .pop true, .pop false, .remove true,
    .remove false, .copy true 'a', .copy false 'a']).1
  have handsOut := lockedQueue.always_final always rfl
  exact absurd handsOut.inOrder (by decide)

-- one thread alone copies what the memory of the destroyed task holds by then
example : ¬ lockedQueue.Always HandsOut (start 0 : Queue Char Bool)
    [.push 'a', .pop true, .remove true, .copy true 'b'] := by
  intro always
  have handsOut := lockedQueue.always_final always rfl
  exact absurd (handsOut.values (⟨0, 'a'⟩, 'b') (by decide)) (by decide)

end Results
end RProxy.LockedQueue
