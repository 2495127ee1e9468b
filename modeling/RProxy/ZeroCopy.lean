import RProxy.Basic
import RProxy.Machine

/-!
`ProxyServer::zeroCopy` over the one `pipe_` that all the connections share. The
results of `splice` are inputs, and the pipe is a queue of bytes. A call that
stops at an error of its `out_fd` leaves what it could not pass on in the pipe.
-/

namespace RProxy.ZeroCopy

/-- The results of the `splice` calls of one `zeroCopy(in_fd, out_fd)`: the
bytes taken into the pipe, and how many went out of it each time. -/
structure Call where
  inFd : Fd
  outFd : Fd
  input : Option (List Byte)
  outputs : List (Option Nat)

/-- What a finished call has done. -/
structure Moved where
  inFd : Fd
  outFd : Fd
  taken : List Byte
  emitted : List Byte
  returned : Int
  deriving DecidableEq

structure State where
  pipe : List Byte
  calls : List Moved

def start : State := ⟨[], []⟩

/-- `while (len > 0)`, with what is left in the pipe and what `out_fd` has got;
`none` where the results end before the loop does. -/
def spliceOut : Nat → List Byte → List Byte → List (Option Nat) →
    Option (List Byte × List Byte)
  | 0, pipe, emitted, _ => some (pipe, emitted)
  | _ + 1, _, _, [] => none
  | _ + 1, pipe, emitted, none :: _ => some (pipe, emitted)
  | len + 1, pipe, emitted, some count :: rest =>
      let slen := min count (len + 1)
      spliceOut (len + 1 - slen) (pipe.drop slen) (emitted ++ pipe.take slen) rest

def zeroCopy (pipe : List Byte) (call : Call) : Option (List Byte × Moved) :=
  match call.input with
  | none => some (pipe, ⟨call.inFd, call.outFd, [], [], -1⟩)
  | some [] => some (pipe, ⟨call.inFd, call.outFd, [], [], 0⟩)
  | some taken =>
      (spliceOut taken.length (pipe ++ taken) [] call.outputs).map fun (pipe, emitted) =>
        (pipe, ⟨call.inFd, call.outFd, taken, emitted, emitted.length⟩)

def splicing : Machine State Call where
  step state call := (zeroCopy state.pipe call).map fun (pipe, moved) =>
    ⟨pipe, state.calls ++ [moved]⟩

/-- Nothing of one call is left for the next. -/
structure Clean (state : State) : Prop where
  empty : state.pipe = []
  own : ∀ moved ∈ state.calls, moved.emitted <+: moved.taken

/-- `splice` fails on the way out while `len` bytes of the call are left. -/
def fails : Nat → List (Option Nat) → Bool
  | 0, _ => false
  | _ + 1, [] => false
  | _ + 1, none :: _ => true
  | len + 1, some count :: rest => fails (len + 1 - min count (len + 1)) rest

/-- All that the call takes gets through. -/
def Drains (call : Call) : Prop := fails (call.input.getD []).length call.outputs = false

/-- The pipe is a queue: nothing is lost in it or overtaken. -/
theorem splice_out_conserves {len : Nat} {pipe emitted : List Byte} {outputs : List (Option Nat)}
    {left out : List Byte} (finished : spliceOut len pipe emitted outputs = some (left, out)) :
    out ++ left = emitted ++ pipe := by
  induction outputs generalizing len pipe emitted with
  | nil =>
      cases len with
      | zero => cases finished; rfl
      | succ len => cases finished
  | cons result rest ih =>
      cases len with
      | zero => cases finished; rfl
      | succ len =>
          cases result with
          | none => cases finished; rfl
          | some count =>
              rw [ih finished, List.append_assoc, List.take_append_drop]

/-- With nothing but the bytes of the call in the pipe, it ends empty unless the
loop was left at an error. -/
theorem splice_out_empty_iff {len : Nat} {pipe emitted : List Byte} {outputs : List (Option Nat)}
    {left out : List Byte} (own : pipe.length = len)
    (finished : spliceOut len pipe emitted outputs = some (left, out)) :
    left = [] ↔ fails len outputs = false := by
  induction outputs generalizing len pipe emitted with
  | nil =>
      cases len with
      | zero =>
          cases finished
          simpa [fails] using own
      | succ len => cases finished
  | cons result rest ih =>
      cases len with
      | zero =>
          cases finished
          simpa [fails] using own
      | succ len =>
          cases result with
          | none =>
              cases finished
              have more : left ≠ [] := List.ne_nil_of_length_eq_add_one own
              simp [fails, more]
          | some count =>
              have rest_own : (pipe.drop (min count (len + 1))).length =
                  len + 1 - min count (len + 1) := by rw [List.length_drop, own]
              exact ih rest_own finished

theorem splice_out_unfinished {len : Nat} {pipe emitted : List Byte}
    {outputs : List (Option Nat)} (unfinished : spliceOut len pipe emitted outputs = none) :
    fails len outputs = false := by
  induction outputs generalizing len pipe emitted with
  | nil =>
      cases len with
      | zero => rfl
      | succ len => rfl
  | cons result rest ih =>
      cases len with
      | zero => rfl
      | succ len =>
          cases result with
          | none => cases unfinished
          | some count => exact ih unfinished

/-- Whatever is in the pipe goes out before the bytes of the call. -/
theorem zero_copy_conserves {pipe left : List Byte} {call : Call} {moved : Moved}
    (finished : zeroCopy pipe call = some (left, moved)) :
    moved.emitted ++ left = pipe ++ moved.taken := by
  unfold zeroCopy at finished
  split at finished
  · cases finished
    exact (List.append_nil pipe).symm
  · cases finished
    exact (List.append_nil pipe).symm
  · next taken _ =>
      obtain ⟨⟨pipe', emitted⟩, looped, same⟩ := Option.map_eq_some_iff.mp finished
      cases same
      have conserved := splice_out_conserves looped
      rwa [List.nil_append] at conserved

theorem zero_copy_empty_iff {left : List Byte} {call : Call} {moved : Moved}
    (finished : zeroCopy [] call = some (left, moved)) : left = [] ↔ Drains call := by
  unfold zeroCopy at finished
  unfold Drains
  split at finished
  · next refused => cases finished; simp [refused, fails]
  · next ended => cases finished; simp [ended, fails]
  · next taken input =>
      obtain ⟨⟨pipe, emitted⟩, looped, same⟩ := Option.map_eq_some_iff.mp finished
      cases same
      rw [input, Option.getD_some]
      exact splice_out_empty_iff rfl looped

theorem zero_copy_unfinished {pipe : List Byte} {call : Call}
    (unfinished : zeroCopy pipe call = none) : Drains call := by
  unfold zeroCopy at unfinished
  split at unfinished
  · cases unfinished
  · cases unfinished
  · next taken input =>
      rw [Option.map_eq_none_iff] at unfinished
      rw [Drains, input, Option.getD_some]
      exact splice_out_unfinished unfinished

theorem splicing_cases {state next : State} {call : Call}
    (stepped : splicing.step state call = some next) :
    ∃ moved, zeroCopy state.pipe call = some (next.pipe, moved) ∧
      next.calls = state.calls ++ [moved] := by
  obtain ⟨⟨pipe, moved⟩, finished, rfl⟩ := Option.map_eq_some_iff.mp stepped
  exact ⟨moved, finished, rfl⟩

/-- Over a run, the bytes come out in the order in which they were taken. -/
theorem splicing_conserves {final : State} {calls : List Call}
    (ran : splicing.run start calls = some final) :
    final.calls.flatMap Moved.emitted ++ final.pipe = final.calls.flatMap Moved.taken := by
  apply splicing.run_preserves
    (fun state => state.calls.flatMap Moved.emitted ++ state.pipe =
      state.calls.flatMap Moved.taken) _ rfl ran
  intro state call next conserved stepped
  obtain ⟨moved, finished, logged⟩ := splicing_cases stepped
  have here := zero_copy_conserves finished
  rw [logged, List.flatMap_append, List.flatMap_append, ← conserved]
  simp [here]

theorem clean_step (state : State) (call : Call) (next : State) (clean : Clean state)
    (drains : Drains call) (stepped : splicing.step state call = some next) : Clean next := by
  obtain ⟨moved, finished, logged⟩ := splicing_cases stepped
  rw [clean.empty] at finished
  constructor
  · exact (zero_copy_empty_iff finished).mpr drains
  · intro other member
    rw [logged, List.mem_append, List.mem_singleton] at member
    rcases member with earlier | rfl
    · exact clean.own other earlier
    · exact ⟨next.pipe, zero_copy_conserves finished⟩

theorem drains_of_clean (state : State) (call : Call) (next : State) (clean : Clean state)
    (stepped : splicing.step state call = some next) (after : Clean next) : Drains call := by
  obtain ⟨moved, finished, _⟩ := splicing_cases stepped
  rw [clean.empty] at finished
  exact (zero_copy_empty_iff finished).mp after.empty

/-- The pipe carries nothing over exactly in the runs whose calls all drain it. -/
theorem nothing_carried_over_iff (calls : List Call) :
    splicing.Always Clean start calls ↔ splicing.Meets (fun _ call => Drains call) start calls := by
  apply splicing.always_iff_meets clean_step (fun _ clean => clean) drains_of_clean
  · intro state call _ refused
    exact zero_copy_unfinished (Option.map_eq_none_iff.mp refused)
  · constructor
    · rfl
    · intro moved member
      cases member

/-- Client 5 has closed its socket when its answer comes; client 6 gets it. -/
theorem other_answer_delivered : ¬ ∀ calls, splicing.Always Clean start calls := by
  intro claim
  obtain ⟨final, ran, mixed⟩ := splicing.run_reaches
    (fun state => decide (⟨8, 6, [2], [1], 1⟩ ∈ state.calls)) start
    [⟨7, 5, some [1], [none]⟩, ⟨8, 6, some [2], [some 1]⟩] (by decide +kernel)
  have clean := splicing.always_final (claim _) ran
  have own := clean.own _ (of_decide_eq_true mixed)
  revert own
  decide

end RProxy.ZeroCopy
