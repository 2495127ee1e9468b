import RProxy.Forward
import RProxy.Machine

/-!
All the `forward(in_fd, out_fd)` calls on one open pair of sockets. A stream
records what was read from `in_fd` and what `send` accepted on `out_fd`; the
calls of a run are the system call results so far, so every moment of a run is
the end of a shorter run.
-/

namespace RProxy.StreamIntegrity

structure Stream where
  read : List Byte
  sent : List Byte

def Stream.start : Stream := ⟨[], []⟩

/-- The results one call of `forward` gets from the kernel. The packet brings
whatever the heap holds behind `segment_`. -/
structure Call where
  packet : Packet
  read : ReadResult
  sends : List (Option Nat)

def Call.result (call : Call) : Forwarded := forward call.packet call.read call.sends

def stream : Machine Stream Call where
  step state call := some
    { read := state.read ++ call.result.taken
      sent := state.sent ++ call.result.accepted }

/-- Everything read so far was accepted, or this call hands nothing on. After a
failed read `forward` still calls `send`, which then has to refuse. -/
def Intact (state : Stream) (call : Call) : Prop :=
  match call.read with
  | .again => True
  | .data bytes _ =>
      bytes = [] ∨ state.sent.length = state.read.length ∨ refused call.sends = true
  | .error => refused call.sends = true

instance (state : Stream) (call : Call) : Decidable (Intact state call) := by
  unfold Intact
  cases call.read <;> infer_instance

theorem call_prefix (state next : Stream) (call : Call) (ordered : state.sent <+: state.read)
    (intact : Intact state call) (stepped : stream.step state call = some next) :
    next.sent <+: next.read := by
  have kept : state.sent <+: state.read ++ call.result.taken :=
    ordered.trans (List.prefix_append _ _)
  obtain rfl : _ = next := Option.some.inj stepped
  show state.sent ++ call.result.accepted <+: state.read ++ call.result.taken
  obtain ⟨packet, read, sends⟩ := call
  -- a call that hands nothing on only reads; another needs all earlier bytes accepted
  by_cases refuses : refused sends = true
  · have nothing : (forward packet read sends).accepted = [] := forward_refused packet read sends refuses
    simpa only [Call.result, nothing, List.append_nil] using kept
  · cases read with
    | again => simpa [Call.result] using kept
    | error => exact absurd intact refuses
    | data bytes fits =>
        simp only [Call.result, forward_data_taken, forward_data_accepted]
        rcases intact with empty | complete | refuses'
        · subst empty
          simpa using ordered
        · have same : state.sent = state.read := ordered.eq_of_length complete
          rw [same]
          exact (List.prefix_append_right_inj _).mpr (List.take_prefix _ _)
        · exact absurd refuses' refuses

/-- The bytes accepted on `out_fd` are a prefix of the bytes read from `in_fd`
in every run that hands nothing on once a byte was lost. -/
theorem sent_prefix_of_read (calls : List Call) (final : Stream)
    (intact : stream.Meets Intact Stream.start calls)
    (ran : stream.run Stream.start calls = some final) : final.sent <+: final.read :=
  stream.run_invariant (fun state => state.sent <+: state.read)
    (fun state call next ordered here stepped => call_prefix state next call ordered here stepped)
    (List.prefix_refl _) intact ran

def emptyPacket : Packet := ⟨fun _ => 0, 0, fun _ => 0⟩

/-- Two calls that are read to the end and sent in two pieces each. -/
theorem sent_prefix_of_read_pieces : ∃ final,
    stream.run Stream.start [⟨emptyPacket, .data [1, 2] (by decide), [some 1, some 1]⟩,
      ⟨emptyPacket, .data [3, 4] (by decide), [some 2]⟩] = some final ∧
    final.sent <+: final.read :=
  ⟨⟨[1, 2, 3, 4], [1, 2, 3, 4]⟩, rfl, sent_prefix_of_read
    [⟨emptyPacket, .data [1, 2] (by decide), [some 1, some 1]⟩,
      ⟨emptyPacket, .data [3, 4] (by decide), [some 2]⟩]
    ⟨[1, 2, 3, 4], [1, 2, 3, 4]⟩ (by decide) rfl⟩

/-- The first call's `send` fails, so its byte is dropped when the next call
clears the packet; the byte of the next call overtakes it. -/
theorem sent_not_prefix_after_error :
    ¬ ∀ calls final, stream.run Stream.start calls = some final → final.sent <+: final.read := by
  intro claim
  have overtaken : [2] <+: ([1, 2] : List Byte) :=
    claim [⟨emptyPacket, .data [1] (by decide), [none]⟩,
      ⟨emptyPacket, .data [2] (by decide), [some 1]⟩] ⟨[1, 2], [2]⟩ (by rfl)
  exact absurd overtaken (by decide)

end RProxy.StreamIntegrity
