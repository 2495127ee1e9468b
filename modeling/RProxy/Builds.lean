import RProxy.Forward
import RProxy.Pump
import RProxy.ZeroCopy

/-!
The two builds of `ProxyServer`: with MSG_ATTACH a call of `forward` for each
event, without it one of `zeroCopy`. `counted` sums up what the calls returned,
where that is positive.
-/

namespace RProxy.Builds

open Pump ZeroCopy

/-- A call of `forward` with what the kernel answers: whether `read` fails, or else
whether the peer has closed, and the results of `send`. -/
inductive AttachAction where
  | arrive (fd : Fd) (bytes : List Byte)
  | forward (inFd outFd : Fd) (packet : Packet) (fails ended : Bool) (sends : List (Option Nat))

/-- A call of `zeroCopy`; `count` is how much the first `splice` takes, and `none`
where it fails. -/
inductive SpliceAction where
  | arrive (fd : Fd) (bytes : List Byte)
  | zeroCopy (inFd outFd : Fd) (count : Option Nat) (outputs : List (Option Nat))

/-- An empty queue is EAGAIN unless the peer has closed. -/
def readFrom (queue : List Byte) (fails ended : Bool) : ReadResult :=
  if fails then .error
  else if queue = [] ∧ ended = false then .again
  else .data (queue.take Packet.maxPacketSize) (List.length_take_le _ _)

def attach : Machine (Links Fd Byte) AttachAction where
  step links
    | .arrive fd bytes => some (links.arrive fd bytes)
    | .forward inFd outFd packet fails ended sends =>
        let result := RProxy.forward packet (readFrom (links.queue inFd) fails ended) sends
        if result.sending.finished then
          some (links.transfer inFd outFd result.taken result.accepted result.returned.toNat)
        else none

structure Splicing where
  links : Links Fd Byte
  pipe : List Byte

def Splicing.start : Splicing := ⟨.start, []⟩

def Splicing.call (state : Splicing) (inFd outFd : Fd) (count : Option Nat)
    (outputs : List (Option Nat)) : ZeroCopy.Call :=
  ⟨inFd, outFd, count.map fun count => (state.links.queue inFd).take count, outputs⟩

def splice : Machine Splicing SpliceAction where
  step state
    | .arrive fd bytes => some { state with links := state.links.arrive fd bytes }
    | .zeroCopy inFd outFd count outputs =>
        (ZeroCopy.zeroCopy state.pipe (state.call inFd outFd count outputs)).map
          fun (pipe, moved) =>
            ⟨state.links.transfer inFd outFd moved.taken moved.emitted moved.returned.toNat, pipe⟩

/-- The call is for the socket that belongs to the other, and `send` accepts all
that was read. -/
def Attached (sink : Fd → Fd) (links : Links Fd Byte) : AttachAction → Prop
  | .forward inFd outFd packet fails ended sends => outFd = sink inFd ∧
      (RProxy.forward packet (readFrom (links.queue inFd) fails ended) sends).accepted =
        (RProxy.forward packet (readFrom (links.queue inFd) fails ended) sends).taken
  | .arrive _ _ => True

/-- The call is for the socket that belongs to the other, and all gets through. -/
def Spliced (sink : Fd → Fd) (state : Splicing) : SpliceAction → Prop
  | .zeroCopy inFd outFd count outputs => outFd = sink inFd ∧
      Drains (state.call inFd outFd count outputs)
  | .arrive _ _ => True

instance (sink : Fd → Fd) (links : Links Fd Byte) (action : AttachAction) :
    Decidable (Attached sink links action) := by
  unfold Attached
  split <;> infer_instance

instance (call : ZeroCopy.Call) : Decidable (Drains call) := by
  unfold Drains
  infer_instance

instance (sink : Fd → Fd) (state : Splicing) (action : SpliceAction) :
    Decidable (Spliced sink state action) := by
  unfold Spliced
  split <;> infer_instance

/-- A call returns the number of bytes that `send` accepted, or -1 and none were. -/
theorem forward_returned (packet : Packet) (read : ReadResult) (sends : List (Option Nat)) :
    (RProxy.forward packet read sends).returned.toNat =
      (RProxy.forward packet read sends).accepted.length := by
  have length (size : Nat) (recved : Option Nat) (segment : Nat → Byte) :
      ((sendLoop size recved 0 sends).calls.flatMap (·.bytes segment)).length =
        (sendLoop size recved 0 sends).total := by
    rw [send_loop_contiguous segment size recved 0 sends (Nat.zero_le _)]
    simp
  cases read with
  | again => rfl
  | data bytes fits => exact (length _ _ _).symm
  | error => exact (length _ _ _).symm

theorem forward_front (packet : Packet) (queue : List Byte) (fails ended : Bool)
    (sends : List (Option Nat)) :
    (RProxy.forward packet (readFrom queue fails ended) sends).taken <+: queue := by
  unfold readFrom
  split
  · exact List.nil_prefix
  · split
    · exact List.nil_prefix
    · exact List.take_prefix _ _

theorem zero_copy_returned {pipe left : List Byte} {call : ZeroCopy.Call} {moved : Moved}
    (finished : ZeroCopy.zeroCopy pipe call = some (left, moved)) :
    moved.returned.toNat = moved.emitted.length ∧ moved.taken = call.input.getD [] := by
  unfold ZeroCopy.zeroCopy at finished
  split at finished
  · next input => cases finished; simp [input]
  · next input => cases finished; simp [input]
  · next taken input =>
      obtain ⟨⟨pipe', emitted⟩, _, same⟩ := Option.map_eq_some_iff.mp finished
      cases same
      simp [input]

section Runs

variable {sink : Fd → Fd} (injective : Function.Injective sink)
include injective

theorem attach_step (links : Links Fd Byte) (action : AttachAction) (next : Links Fd Byte)
    (balanced : links.Balanced sink) (attached : Attached sink links action)
    (stepped : attach.step links action = some next) : next.Balanced sink := by
  cases action with
  | arrive fd bytes =>
      cases stepped
      exact balanced.arrive fd bytes
  | forward inFd outFd packet fails ended sends =>
      obtain ⟨rfl, complete⟩ := attached
      simp only [attach] at stepped
      split at stepped
      · cases stepped
        have returned := forward_returned packet (readFrom (links.queue inFd) fails ended) sends
        rw [returned, complete]
        exact balanced.transfer injective inFd (forward_front packet _ fails ended sends)
      · cases stepped

theorem splice_step (state : Splicing) (action : SpliceAction) (next : Splicing)
    (holds : state.links.Balanced sink ∧ state.pipe = []) (spliced : Spliced sink state action)
    (stepped : splice.step state action = some next) :
    next.links.Balanced sink ∧ next.pipe = [] := by
  obtain ⟨balanced, empty⟩ := holds
  cases action with
  | arrive fd bytes =>
      cases stepped
      exact ⟨balanced.arrive fd bytes, empty⟩
  | zeroCopy inFd outFd count outputs =>
      obtain ⟨rfl, drains⟩ := spliced
      obtain ⟨⟨pipe, moved⟩, finished, rfl⟩ := Option.map_eq_some_iff.mp stepped
      rw [empty] at finished
      have left : pipe = [] := (zero_copy_empty_iff finished).mpr drains
      have emitted : moved.emitted = moved.taken := by
        simpa [left] using zero_copy_conserves finished
      obtain ⟨returned, taken⟩ := zero_copy_returned finished
      refine ⟨?_, left⟩
      simp only
      rw [returned, emitted]
      apply balanced.transfer injective inFd
      rw [taken]
      cases count with
      | none => exact List.nil_prefix
      | some count => exact List.take_prefix _ _

/-- Where nothing that was taken is refused, both builds pass on what arrived, in
order and to the same sockets, and count the same traffic for it. -/
theorem builds_agree {attachActions : List AttachAction} {spliceActions : List SpliceAction}
    {final : Links Fd Byte} {last : Splicing}
    (attached : attach.Meets (Attached sink) .start attachActions)
    (spliced : splice.Meets (Spliced sink) .start spliceActions)
    (attachRan : attach.run .start attachActions = some final)
    (spliceRan : splice.run .start spliceActions = some last)
    (same : final.arrived = last.links.arrived) (fd : Fd) :
    final.got (sink fd) ++ final.queue fd = last.links.got (sink fd) ++ last.links.queue fd ∧
      (final.queue fd = [] → last.links.queue fd = [] →
        final.got (sink fd) = last.links.got (sink fd) ∧
          final.counted fd = last.links.counted fd) := by
  have balanced := attach.run_invariant (Links.Balanced · sink) (attach_step injective)
    Links.start_balanced attached attachRan
  have also := splice.run_invariant (fun state => state.links.Balanced sink ∧ state.pipe = [])
    (splice_step injective) ⟨Links.start_balanced, rfl⟩ spliced spliceRan
  exact balanced.agree also.1 same fd

end Runs

/-- Three bytes in one packet that is sent in two pieces, and in two calls of `zeroCopy`. -/
theorem three_bytes_agree : ∃ final last,
    attach.run .start [.arrive 5 [1, 2, 3],
      .forward 5 7 ⟨fun _ => 0, 0, fun _ => 0⟩ false false [some 1, some 2]] = some final ∧
    splice.run .start [.arrive 5 [1, 2, 3], .zeroCopy 5 7 (some 2) [some 2],
      .zeroCopy 5 7 (some 9) [some 1]] = some last ∧
    final.got 7 = [1, 2, 3] ∧ final.got 7 = last.links.got 7 ∧
      final.counted 5 = last.links.counted 5 := by
  obtain ⟨final, ran, tested⟩ := attach.run_reaches
    (fun final => decide (final.got 7 = [1, 2, 3] ∧ final.queue 5 = [])) .start
    [.arrive 5 [1, 2, 3], .forward 5 7 ⟨fun _ => 0, 0, fun _ => 0⟩ false false [some 1, some 2]]
    (by decide +kernel)
  obtain ⟨last, spliceRan, drained⟩ := splice.run_reaches
    (fun last => decide (last.links.queue 5 = [])) .start
    [.arrive 5 [1, 2, 3], .zeroCopy 5 7 (some 2) [some 2], .zeroCopy 5 7 (some 9) [some 1]]
    (by decide +kernel)
  obtain ⟨got, empty⟩ := of_decide_eq_true tested
  have arrived : final.arrived = last.links.arrived := by
    have here : some final.arrived = some (Function.update (fun _ => []) 5 [1, 2, 3]) :=
      (congrArg (Option.map Links.arrived) ran).symm
    have there : some last.links.arrived = some (Function.update (fun _ => []) 5 [1, 2, 3]) :=
      (congrArg (Option.map fun last : Splicing => last.links.arrived) spliceRan).symm
    exact Option.some.inj (here.trans there.symm)
  have agree := builds_agree (Equiv.swap 5 7).injective (by decide +kernel) (by decide +kernel)
    ran spliceRan arrived 5
  obtain ⟨same, counted⟩ := agree.2 empty (of_decide_eq_true drained)
  exact ⟨final, last, ran, spliceRan, got, same, counted⟩

end RProxy.Builds
