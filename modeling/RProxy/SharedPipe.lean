import RProxy.Conduit
import RProxy.ZeroCopy

/-!
`ProxyServer::zeroCopy` on any number of threads. The loops of the group call it
and so does the thread that forwards, all without a lock, and they fill and empty
one pipe.
-/

namespace RProxy.SharedPipe

open Conduit

/-- A call that has put something into the pipe, and what it has moved from there to
`out_fd`: each byte with the number of the call that had put it in. -/
structure Call where
  inFd : Fd
  outFd : Fd
  taken : List Byte
  moved : List (Nat × Byte)
  deriving DecidableEq

def Call.load (call : Call) : Load Byte := ⟨call.taken, call.moved.length⟩

/-- A call in `while (len > 0)`. -/
structure Loop where
  call : Nat
  len : Nat

structure State (Thread : Type) where
  pipe : List (Nat × Byte)
  calls : List Call
  loops : Thread → Option Loop

/-- The results of the `splice` calls: of the one into the pipe, and of those out
of it. -/
inductive Action (Thread : Type) where
  | enter (thread : Thread) (inFd outFd : Fd) (input : Option (List Byte))
  | splice (thread : Thread) (result : Option Nat)

variable {Thread : Type} [DecidableEq Thread]

namespace State

def start : State Thread := ⟨[], [], fun _ => none⟩

variable (state : State Thread)

/-- The first `splice` has put something into the pipe. -/
def fill (thread : Thread) (inFd outFd : Fd) (taken : List Byte) : State Thread where
  pipe := state.pipe ++ taken.map (state.calls.length, ·)
  calls := state.calls ++ [⟨inFd, outFd, taken, []⟩]
  loops := Function.update state.loops thread (some ⟨state.calls.length, taken.length⟩)

/-- An error and the end of the stream end the call. -/
def enter (thread : Thread) (inFd outFd : Fd) (input : Option (List Byte)) :
    Option (State Thread) :=
  match state.loops thread, input with
  | some _, _ => none
  | none, none => some state
  | none, some [] => some state
  | none, some taken => some (state.fill thread inFd outFd taken)

/-- What `splice` has moved counts for `len` and for `total`. -/
def move (thread : Thread) (loop : Loop) (slen : Nat) : State Thread where
  pipe := state.pipe.drop slen
  calls := state.calls.modify loop.call fun call =>
    { call with moved := call.moved ++ state.pipe.take slen }
  loops := Function.update state.loops thread
    (if loop.len - slen = 0 then none else some ⟨loop.call, loop.len - slen⟩)

/-- `splice` out of an empty pipe fails with EAGAIN. -/
def splice (thread : Thread) (result : Option Nat) : Option (State Thread) :=
  match state.loops thread, result with
  | none, _ => none
  | some _, none => some { state with loops := Function.update state.loops thread none }
  | some loop, some count =>
      if state.pipe = [] then none
      else some (state.move thread loop (min count (min loop.len state.pipe.length)))

end State

def shared : Machine (State Thread) (Action Thread) where
  step state
    | .enter thread inFd outFd input => state.enter thread inFd outFd input
    | .splice thread result => state.splice thread result

/-- Each call has moved a front part of what it took itself. -/
def Own (state : State Thread) : Prop :=
  ∀ (number : Nat) (call : Call), state.calls[number]? = some call →
    call.moved <+: call.taken.map (number, ·)

/-- A call moves nothing before each call that came earlier has moved as much as it took. -/
def InTurn (state : State Thread) : Action Thread → Prop
  | .enter _ _ _ _ => True
  | .splice thread result => ∀ loop ∈ state.loops thread, ∀ count ∈ result, count = 0 ∨
      ∀ earlier ∈ state.calls.take loop.call, earlier.moved.length = earlier.taken.length

instance (state : State Thread) (action : Action Thread) : Decidable (InTurn state action) := by
  unfold InTurn
  split <;> infer_instance

/-- No two threads are in the loop of one call. -/
def Single (state : State Thread) : Prop :=
  ∀ thread other loop otherLoop, state.loops thread = some loop →
    state.loops other = some otherLoop → loop.call = otherLoop.call → thread = other

structure Filled (state : State Thread) : Prop where
  looping : ∀ thread loop, state.loops thread = some loop → 0 < loop.len ∧
    ∃ call, state.calls[loop.call]? = some call ∧
      call.moved.length + loop.len = call.taken.length
  single : Single state
  queued : Own state → state.pipe = waiting 0 (state.calls.map Call.load)

section Calls

variable {call : Call} {number : Nat} (own : call.moved <+: call.taken.map (number, ·))
include own

theorem moved_eq : call.moved = (call.taken.take call.moved.length).map (number, ·) := by
  rw [List.map_take]
  exact List.prefix_iff_eq_take.mp own

theorem moved_le : call.moved.length ≤ call.taken.length := by
  simpa using own.length_le

/-- A call has all out when it has moved as much as it took. -/
theorem rest_nil_iff : call.load.rest = [] ↔ call.moved.length = call.taken.length := by
  have le := moved_le own
  change call.taken.drop call.moved.length = [] ↔ _
  rw [List.drop_eq_nil_iff]
  omega

theorem moved_on (count : Nat) :
    call.moved ++ (call.load.rest.take count).map (number, ·) <+: call.taken.map (number, ·) := by
  have here : call.moved ++ (call.load.rest.take count).map (number, ·) =
      (call.taken.take (call.moved.length + count)).map (number, ·) := by
    rw [List.take_add, List.map_append, ← moved_eq own]
    rfl
  rw [here]
  exact (List.take_prefix _ _).map _

end Calls

omit [DecidableEq Thread] in
/-- A thread that is in the loop of a call was there before. -/
theorem single_kept {state next : State Thread} (single : Single state)
    (before : ∀ thread loop, next.loops thread = some loop →
      ∃ earlier, state.loops thread = some earlier ∧ earlier.call = loop.call) : Single next := by
  intro first second firstLoop secondLoop inFirst inSecond same
  obtain ⟨one, oneLoop, oneCall⟩ := before first firstLoop inFirst
  obtain ⟨two, twoLoop, twoCall⟩ := before second secondLoop inSecond
  exact single first second one two oneLoop twoLoop (oneCall.trans (same.trans twoCall.symm))

section Moves

variable {state : State Thread}

omit [DecidableEq Thread] in
/-- Nothing of the first calls is in the pipe exactly when they have moved all. -/
theorem earlier_out (own : Own state) (index : Nat) :
    (∀ load ∈ (state.calls.take index).map Call.load, load.rest = []) ↔
      ∀ earlier ∈ state.calls.take index, earlier.moved.length = earlier.taken.length := by
  rw [List.forall_mem_map]
  refine forall₂_congr fun earlier member => ?_
  obtain ⟨number, found⟩ := List.mem_iff_getElem?.mp member
  rw [List.getElem?_take] at found
  split at found
  · exact rest_nil_iff (own number earlier found)
  · cases found

theorem moved_calls {loop : Loop} {call : Call} (found : state.calls[loop.call]? = some call)
    (thread : Thread) (slen number : Nat) : (state.move thread loop slen).calls[number]? =
      if number = loop.call then some { call with moved := call.moved ++ state.pipe.take slen }
      else state.calls[number]? := by
  rw [State.move, List.getElem?_modify]
  split
  · next same =>
      subst same
      simp [found]
  · next other => simp [Ne.symm other]

theorem move_calls {loop : Loop} {call : Call} (found : state.calls[loop.call]? = some call)
    (thread : Thread) (slen : Nat) : (state.move thread loop slen).calls =
      state.calls.set loop.call { call with moved := call.moved ++ state.pipe.take slen } := by
  obtain ⟨inside, _⟩ := List.getElem?_eq_some_iff.mp found
  apply List.ext_getElem?
  intro number
  rw [moved_calls found, List.getElem?_set]
  by_cases same : number = loop.call
  · simp [same, inside]
  · simp [same, Ne.symm same]

variable (filled : Filled state) {thread : Thread} {loop : Loop}
  (running : state.loops thread = some loop)
include filled running

omit [DecidableEq Thread] in
/-- The calls before and after the one that is in the loop. -/
theorem calls_split : ∃ call, state.calls[loop.call]? = some call ∧
    call.moved.length + loop.len = call.taken.length ∧
    (state.calls.take loop.call).length = loop.call ∧
    state.calls = state.calls.take loop.call ++ call :: state.calls.drop (loop.call + 1) := by
  obtain ⟨_, call, found, counted⟩ := filled.looping thread loop running
  obtain ⟨inside, here⟩ := List.getElem?_eq_some_iff.mp found
  refine ⟨call, found, counted, ?_, ?_⟩
  · rw [List.length_take]
    omega
  · rw [← here, ← List.drop_eq_getElem_cons inside, List.take_append_drop]

omit [DecidableEq Thread] in
/-- The bytes that come next are of the call, where the calls before it are out. -/
theorem front_own (own : Own state) {call : Call} (found : state.calls[loop.call]? = some call)
    (out : ∀ earlier ∈ state.calls.take loop.call, earlier.moved.length = earlier.taken.length)
    {slen : Nat} (fits : slen ≤ loop.len) :
    state.pipe.take slen = (call.load.rest.take slen).map (loop.call, ·) ∧
      state.pipe.drop slen = waiting 0 ((state.calls.take loop.call).map Call.load ++
        call.load.send slen :: (state.calls.drop (loop.call + 1)).map Call.load) := by
  obtain ⟨other, same, counted, index, split⟩ := calls_split filled running
  obtain rfl := Option.some.inj (found.symm.trans same)
  have room : slen ≤ call.load.rest.length := by
    change slen ≤ (call.taken.drop call.moved.length).length
    rw [List.length_drop]
    omega
  have front := waiting_front ((earlier_out own loop.call).mpr out) room
    ((state.calls.drop (loop.call + 1)).map Call.load)
  rw [List.length_map, index, ← List.map_cons, ← List.map_append, ← split,
    ← filled.queued own] at front
  exact front

omit [DecidableEq Thread] in
/-- Otherwise the next byte is of a call before it. -/
theorem front_overtaken (own : Own state)
    (left : ¬ ∀ earlier ∈ state.calls.take loop.call,
      earlier.moved.length = earlier.taken.length) :
    ∃ front rest, state.pipe = front :: rest ∧ front.1 < loop.call := by
  obtain ⟨call, _, _, index, split⟩ := calls_split filled running
  rw [← earlier_out own] at left
  have unsent : ∃ load ∈ (state.calls.take loop.call).map Call.load, load.rest ≠ [] := by
    simpa only [not_forall, exists_prop] using left
  have overtaken := waiting_overtaken unsent
    ((call :: state.calls.drop (loop.call + 1)).map Call.load) 0
  rw [← List.map_append, ← split, ← filled.queued own, List.length_map, index,
    Nat.zero_add] at overtaken
  exact overtaken

theorem move_own_iff {slen : Nat} (fits : slen ≤ loop.len) :
    Own (state.move thread loop slen) ↔ Own state ∧ (slen = 0 ∨
      ∀ earlier ∈ state.calls.take loop.call, earlier.moved.length = earlier.taken.length) := by
  obtain ⟨call, found, _⟩ := calls_split filled running
  have calls := moved_calls found thread slen
  constructor
  · intro later
    have grown := later loop.call _ ((calls loop.call).trans (if_pos rfl))
    have own : Own state := by
      intro number other here
      by_cases same : number = loop.call
      · subst same
        obtain rfl := Option.some.inj (found.symm.trans here)
        exact (List.prefix_append _ _).trans grown
      · exact later number other ((calls number).trans ((if_neg same).trans here))
    refine ⟨own, ?_⟩
    by_contra wrong
    obtain ⟨moves, left⟩ := not_or.mp wrong
    obtain ⟨front, rest, pipe, before⟩ := front_overtaken filled running own left
    have foreign : front ∈ call.moved ++ state.pipe.take slen := by
      rw [pipe, List.mem_append]
      obtain ⟨more, rfl⟩ := Nat.exists_eq_succ_of_ne_zero moves
      exact Or.inr List.mem_cons_self
    obtain ⟨byte, _, named⟩ := List.mem_map.mp (grown.mem foreign)
    rw [← named] at before
    exact absurd before (Nat.lt_irrefl _)
  · rintro ⟨own, turn⟩ number other here
    rw [calls] at here
    split at here
    · next same =>
        subst same
        cases here
        rcases turn with rfl | out
        · simpa using own loop.call call found
        · rw [(front_own filled running own found out fits).1]
          exact moved_on (own loop.call call found) slen
    · exact own number other here

/-- What is left in the pipe is what is left of the calls. -/
theorem move_queued (own : Own state) {slen : Nat} (turn : slen = 0 ∨
      ∀ earlier ∈ state.calls.take loop.call, earlier.moved.length = earlier.taken.length)
    (fits : slen ≤ loop.len) (room : slen ≤ state.pipe.length) :
    (state.move thread loop slen).pipe =
      waiting 0 ((state.move thread loop slen).calls.map Call.load) := by
  obtain ⟨call, found, _, _, split⟩ := calls_split filled running
  have modified : (state.move thread loop slen).calls = state.calls.take loop.call ++
      { call with moved := call.moved ++ state.pipe.take slen } ::
        state.calls.drop (loop.call + 1) := by
    obtain ⟨inside, here⟩ := List.getElem?_eq_some_iff.mp found
    rw [State.move, List.modify_eq_take_cons_drop inside, here]
  have load : Call.load { call with moved := call.moved ++ state.pipe.take slen } =
      call.load.send slen := by
    simp [Call.load, Load.send, room]
  rw [modified, List.map_append, List.map_cons, load]
  rcases turn with rfl | out
  · have same : call.load.send 0 = call.load := rfl
    rw [same, ← List.map_cons, ← List.map_append, ← split, ← filled.queued own]
    rfl
  · exact (front_own filled running own found out fits).2

theorem move_filled {slen : Nat} (fits : slen ≤ loop.len) (room : slen ≤ state.pipe.length) :
    Filled (state.move thread loop slen) := by
  obtain ⟨call, found, counted, _⟩ := calls_split filled running
  have calls := moved_calls found thread slen
  constructor
  · intro other otherLoop here
    simp only [State.move, Function.update_apply] at here
    split at here
    · split at here
      · cases here
      · next more =>
          cases here
          refine ⟨Nat.pos_of_ne_zero more, _, (calls _).trans (if_pos rfl), ?_⟩
          simp only [List.length_append, List.length_take]
          omega
    · next different =>
        obtain ⟨positive, otherCall, otherFound, otherCounted⟩ :=
          filled.looping other otherLoop here
        have apart : otherLoop.call ≠ loop.call := fun same =>
          different (filled.single other thread otherLoop loop here running same)
        exact ⟨positive, otherCall, (calls _).trans ((if_neg apart).trans otherFound),
          otherCounted⟩
  · apply single_kept filled.single
    intro other otherLoop here
    simp only [State.move, Function.update_apply] at here
    split at here
    · next same =>
        subst same
        split at here
        · cases here
        · cases here
          exact ⟨loop, running, rfl⟩
    · exact ⟨otherLoop, here, rfl⟩
  · intro later
    obtain ⟨own, turn⟩ := (move_own_iff filled running fits).mp later
    exact move_queued filled running own turn fits room

end Moves

section Entries

theorem enter_cases {state next : State Thread} {thread : Thread} {inFd outFd : Fd}
    {input : Option (List Byte)} (entered : state.enter thread inFd outFd input = some next) :
    next = state ∨ ∃ taken, taken ≠ [] ∧ next = state.fill thread inFd outFd taken := by
  unfold State.enter at entered
  split at entered
  · cases entered
  · exact Or.inl (Option.some.inj entered).symm
  · exact Or.inl (Option.some.inj entered).symm
  · next taken unempty idle =>
      exact Or.inr ⟨taken, by simpa using unempty, (Option.some.inj entered).symm⟩

variable (state : State Thread) (thread : Thread) (inFd outFd : Fd) {taken : List Byte}

theorem fill_own_iff : Own (state.fill thread inFd outFd taken) ↔ Own state := by
  constructor
  · intro own number earlier found
    refine own number earlier ?_
    obtain ⟨inside, _⟩ := List.getElem?_eq_some_iff.mp found
    rw [State.fill, List.getElem?_append_left inside]
    exact found
  · intro own number other found
    rw [State.fill] at found
    rcases Nat.lt_or_ge number state.calls.length with inside | outside
    · rw [List.getElem?_append_left inside] at found
      exact own number other found
    · rw [List.getElem?_append_right outside] at found
      rw [List.mem_singleton.mp (List.mem_of_getElem? found)]
      exact List.nil_prefix

theorem fill_filled {state : State Thread} (filled : Filled state) (unempty : taken ≠ []) :
    Filled (state.fill thread inFd outFd taken) := by
  -- the threads that are in the loop already have an earlier number
  have inside : ∀ other loop, state.loops other = some loop → loop.call < state.calls.length := by
    intro other loop here
    obtain ⟨_, earlier, found, _⟩ := filled.looping other loop here
    exact (List.getElem?_eq_some_iff.mp found).1
  constructor
  · intro other loop here
    simp only [State.fill, Function.update_apply] at here
    split at here
    · cases here
      refine ⟨List.length_pos_iff.mpr unempty, ⟨inFd, outFd, taken, []⟩, ?_, Nat.zero_add _⟩
      simp [State.fill]
    · obtain ⟨positive, earlier, found, counted⟩ := filled.looping other loop here
      refine ⟨positive, earlier, ?_, counted⟩
      rw [State.fill, List.getElem?_append_left (inside other loop here)]
      exact found
  · intro first second firstLoop secondLoop inFirst inSecond same
    simp only [State.fill, Function.update_apply] at inFirst inSecond
    split at inFirst
    · next one =>
        split at inSecond
        · next two => exact one.trans two.symm
        · cases inFirst
          exact absurd same (Nat.ne_of_gt (inside second secondLoop inSecond))
    · split at inSecond
      · cases inSecond
        exact absurd same (Nat.ne_of_lt (inside first firstLoop inFirst))
      · exact filled.single first second firstLoop secondLoop inFirst inSecond same
  · intro own
    have queued := filled.queued ((fill_own_iff state thread inFd outFd).mp own)
    rw [State.fill, List.map_append, waiting_append, ← queued, List.length_map, Nat.zero_add]
    simp [waiting, Load.rest, Call.load]

end Entries

/-- Everything that `splice` out of the pipe can do. -/
theorem splice_cases {state next : State Thread} {thread : Thread} {result : Option Nat}
    (spliced : state.splice thread result = some next) :
    ∃ loop, state.loops thread = some loop ∧
      ((result = none ∧ next = { state with loops := Function.update state.loops thread none }) ∨
        ∃ count, result = some count ∧ state.pipe ≠ [] ∧
          next = state.move thread loop (min count (min loop.len state.pipe.length))) := by
  unfold State.splice at spliced
  split at spliced
  · cases spliced
  · next loop running =>
      exact ⟨loop, running, Or.inl ⟨rfl, (Option.some.inj spliced).symm⟩⟩
  · next loop count running =>
      split at spliced
      · cases spliced
      · next unempty =>
          exact ⟨loop, running, Or.inr ⟨count, rfl, unempty, (Option.some.inj spliced).symm⟩⟩

theorem left_filled {state : State Thread} (filled : Filled state) (thread : Thread) :
    Filled { state with loops := Function.update state.loops thread none } := by
  have before : ∀ other loop, Function.update state.loops thread none other = some loop →
      state.loops other = some loop := by
    intro other loop here
    rw [Function.update_apply] at here
    split at here
    · cases here
    · exact here
  constructor
  · intro other loop here
    exact filled.looping other loop (before other loop here)
  · exact single_kept filled.single fun other loop here => ⟨loop, before other loop here, rfl⟩
  · exact filled.queued

theorem step_filled (state : State Thread) (action : Action Thread) (next : State Thread)
    (filled : Filled state) (stepped : shared.step state action = some next) : Filled next := by
  cases action with
  | enter thread inFd outFd input =>
      rcases enter_cases stepped with rfl | ⟨taken, unempty, rfl⟩
      · exact filled
      · exact fill_filled thread inFd outFd filled unempty
  | splice thread result =>
      obtain ⟨loop, running, ⟨_, rfl⟩ | ⟨count, _, _, rfl⟩⟩ := splice_cases stepped
      · exact left_filled filled thread
      · exact move_filled filled running (by omega) (by omega)

theorem step_own_iff (state : State Thread) (action : Action Thread) (next : State Thread)
    (filled : Filled state) (stepped : shared.step state action = some next) :
    Own next ↔ Own state ∧ InTurn state action := by
  cases action with
  | enter thread inFd outFd input =>
      rcases enter_cases stepped with rfl | ⟨taken, _, rfl⟩
      · simp [InTurn]
      · rw [fill_own_iff]
        simp [InTurn]
  | splice thread result =>
      obtain ⟨loop, running, ⟨rfl, rfl⟩ | ⟨count, rfl, unempty, rfl⟩⟩ := splice_cases stepped
      · simp [InTurn, Own]
      · rw [move_own_iff filled running (by omega)]
        have positive := (filled.looping thread loop running).1
        have room := List.length_pos_iff.mpr unempty
        have none_moved : min count (min loop.len state.pipe.length) = 0 ↔ count = 0 := by omega
        simp [InTurn, running, none_moved]

section Alone

/-- With all the bytes of its call still in the pipe, `splice` moves what it can. -/
theorem splice_moves {state : State Thread} {thread : Thread} {loop : Loop}
    (running : state.loops thread = some loop) (positive : 0 < loop.len)
    (room : loop.len ≤ state.pipe.length) (count : Nat) :
    shared.step state (.splice thread (some count)) =
      some (state.move thread loop (min count loop.len)) := by
  have unempty : state.pipe ≠ [] := List.length_pos_iff.mp (by omega)
  simp only [shared, State.splice, running, unempty, ↓reduceIte, min_eq_left room]

/-- The loop of one call, with no step of another thread in between. -/
theorem splice_out_agrees {thread : Thread} (outputs : List (Option Nat)) {state : State Thread}
    {loop : Loop} {call : Call} {left out : List Byte} (running : state.loops thread = some loop)
    (positive : 0 < loop.len) (room : loop.len ≤ state.pipe.length)
    (found : state.calls[loop.call]? = some call)
    (finished : ZeroCopy.spliceOut loop.len (state.pipe.map Prod.snd) (call.moved.map Prod.snd)
      outputs = some (left, out)) :
    ∃ used final, used <+: outputs ∧ shared.run state (used.map (.splice thread)) = some final ∧
      final.pipe.map Prod.snd = left ∧ final.loops = Function.update state.loops thread none ∧
      ∃ moved, moved.map Prod.snd = out ∧
        final.calls = state.calls.set loop.call { call with moved := moved } := by
  induction outputs generalizing state loop call with
  | nil =>
      obtain ⟨len, size⟩ := Nat.exists_eq_add_one.mpr positive
      rw [size] at finished
      cases finished
  | cons result rest ih =>
      obtain ⟨len, size⟩ := Nat.exists_eq_add_one.mpr positive
      rw [size] at finished
      cases result with
      | none =>
          cases finished
          refine ⟨[none], { state with loops := Function.update state.loops thread none },
            List.prefix_append [none] rest, ?_, rfl, rfl, call.moved, rfl, ?_⟩
          · simp [Machine.run, shared, State.splice, running]
          · obtain ⟨inside, here⟩ := List.getElem?_eq_some_iff.mp found
            rw [← here, List.set_getElem_self]
      | some count =>
          have stepped := splice_moves running positive room count
          rw [ZeroCopy.spliceOut, ← List.map_drop, ← List.map_take, ← List.map_append,
            ← size] at finished
          rcases Nat.eq_zero_or_pos (loop.len - min count loop.len) with done | more
          · rw [done, ZeroCopy.spliceOut] at finished
            cases finished
            refine ⟨[some count], state.move thread loop (min count loop.len),
              List.prefix_append [some count] rest, ?_, rfl, ?_,
              call.moved ++ state.pipe.take (min count loop.len), rfl, move_calls found _ _⟩
            · rw [List.map_singleton, Machine.run_cons, stepped]
              rfl
            · simp [State.move, done]
          · have goesOn : (state.move thread loop (min count loop.len)).loops thread =
                some ⟨loop.call, loop.len - min count loop.len⟩ := by
              simp [State.move, Nat.ne_of_gt more]
            have still : loop.len - min count loop.len ≤
                (state.move thread loop (min count loop.len)).pipe.length := by
              rw [State.move, List.length_drop]
              omega
            have called := (moved_calls found thread (min count loop.len) loop.call).trans
              (if_pos rfl)
            obtain ⟨used, final, front, ran, pipe, loops, items, moved, calls⟩ :=
              ih goesOn more still called finished
            refine ⟨some count :: used, final, List.cons_prefix_cons.mpr ⟨rfl, front⟩, ?_,
              pipe, ?_, items, moved, ?_⟩
            · rw [List.map_cons, Machine.run_cons, stepped]
              exact ran
            · rw [loops, State.move, Function.update_idem]
            · rw [calls, move_calls found, List.set_set]

/-- A call that nothing comes in between is one of `ZeroCopy.zeroCopy`. -/
theorem call_agrees {state : State Thread} {thread : Thread} (idle : state.loops thread = none)
    {inFd outFd : Fd} {input : Option (List Byte)} {outputs : List (Option Nat)}
    {left : List Byte} {moved : ZeroCopy.Moved}
    (finished : ZeroCopy.zeroCopy (state.pipe.map Prod.snd) ⟨inFd, outFd, input, outputs⟩ =
      some (left, moved)) :
    ∃ used final, used <+: outputs ∧
      shared.run state (.enter thread inFd outFd input :: used.map (.splice thread)) =
        some final ∧
      final.pipe.map Prod.snd = left ∧ final.loops = state.loops ∧
      ((final.calls = state.calls ∧ moved.taken = [] ∧ moved.emitted = []) ∨
        ∃ items, items.map Prod.snd = moved.emitted ∧
          final.calls = state.calls ++ [⟨inFd, outFd, moved.taken, items⟩]) := by
  unfold ZeroCopy.zeroCopy at finished
  split at finished
  · next failed =>
      cases finished
      obtain rfl : input = none := failed
      exact ⟨[], state, List.nil_prefix, by simp [Machine.run, shared, State.enter, idle], rfl, rfl,
        Or.inl ⟨rfl, rfl, rfl⟩⟩
  · next ended =>
      cases finished
      obtain rfl : input = some [] := ended
      exact ⟨[], state, List.nil_prefix, by simp [Machine.run, shared, State.enter, idle], rfl, rfl,
        Or.inl ⟨rfl, rfl, rfl⟩⟩
  · next taken unempty here =>
      obtain rfl : input = some taken := here
      obtain ⟨⟨pipe, emitted⟩, sent, same⟩ := Option.map_eq_some_iff.mp finished
      cases same
      have entered : shared.step state (.enter thread inFd outFd (some taken)) =
          some (state.fill thread inFd outFd taken) := by
        simp [shared, State.enter, idle]
      have running : (state.fill thread inFd outFd taken).loops thread =
          some ⟨state.calls.length, taken.length⟩ := by
        simp [State.fill]
      have called : (state.fill thread inFd outFd taken).calls[state.calls.length]? =
          some ⟨inFd, outFd, taken, []⟩ := by
        simp [State.fill]
      have positive : 0 < taken.length := List.length_pos_iff.mpr (by simpa using unempty)
      have bytes : (state.fill thread inFd outFd taken).pipe.map Prod.snd =
          state.pipe.map Prod.snd ++ taken := by
        simp [State.fill, Function.comp_def]
      rw [← bytes] at sent
      obtain ⟨used, final, front, ran, emptied, loops, items, out, calls⟩ :=
        splice_out_agrees outputs running positive (by simp [State.fill]) called sent
      refine ⟨used, final, front, ?_, emptied, ?_, Or.inr ⟨items, out, ?_⟩⟩
      · rw [Machine.run_cons, entered]
        exact ran
      · rw [loops, State.fill, Function.update_idem, ← idle, Function.update_eq_self]
      · rw [calls]
        simp [State.fill]

end Alone

/-- With any number of threads in `zeroCopy` at once, each call moves on a front part
of what it took itself exactly when no call moves anything before each one that came
earlier has moved as much as it took. Nothing in the code makes one wait for another. -/
theorem own_bytes_iff {actions : List (Action Thread)} {final : State Thread}
    (ran : shared.run .start actions = some final) :
    Own final ↔ shared.Meets InTurn .start actions := by
  have initial : Filled (State.start : State Thread) := by
    constructor
    · intro thread loop here
      cases here
    · intro first second firstLoop secondLoop inFirst
      cases inFirst
    · intro own
      rfl
  rw [shared.final_iff_meets step_filled step_own_iff initial ran]
  have none_yet : Own (State.start : State Thread) := by
    intro number call found
    cases found
  simp [none_yet]

/-- The answer of backend 7 is in the pipe when another loop calls for backend 8. Its
`splice` comes first, so client 6 gets the byte that was for client 5. -/
theorem second_loop_overtakes : ∃ final : State Bool, shared.run .start
    [.enter false 7 5 (some [1]), .enter true 8 6 (some [2]), .splice true (some 1),
      .splice false (some 1)] = some final ∧
    final.calls = [⟨7, 5, [1], [(1, 2)]⟩, ⟨8, 6, [2], [(0, 1)]⟩] ∧ ¬ Own final := by
  obtain ⟨final, ran, reached⟩ := shared.run_reaches
    (fun final : State Bool =>
      decide (final.calls = [⟨7, 5, [1], [(1, 2)]⟩, ⟨8, 6, [2], [(0, 1)]⟩])) .start
    [.enter false 7 5 (some [1]), .enter true 8 6 (some [2]), .splice true (some 1),
      .splice false (some 1)] (by decide +kernel)
  have overtaking := mt (own_bytes_iff ran).mp (by decide +kernel)
  exact ⟨final, ran, of_decide_eq_true reached, overtaking⟩

end RProxy.SharedPipe
