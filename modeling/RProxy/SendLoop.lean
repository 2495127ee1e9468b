import RProxy.Forward

/-!
One call of `forward` against an endless stream of `send` results: whether it
ends, and which memory it hands to `send`.
-/

namespace RProxy.SendLoop

/-- The call with the first `count` results that `send` gives. -/
def results (sends : Nat → Option Nat) (count : Nat) : List (Option Nat) :=
  (List.range count).map sends

def issued (packet : Packet) (read : ReadResult) (sends : Nat → Option Nat) (count : Nat) :
    Forwarded :=
  forward packet read (results sends count)

/-- A `send` of a range that is not empty returns -1 or at least 1. -/
def Progresses (packet : Packet) (read : ReadResult) (sends : Nat → Option Nat) : Prop :=
  ∀ count, ∀ call ∈ (issued packet read sends count).sending.calls,
    0 < call.length → call.accepted ≠ some 0

def Terminates (packet : Packet) (read : ReadResult) (sends : Nat → Option Nat) : Prop :=
  ∃ count, (issued packet read sends count).sending.finished = true

/-- Each of the calls covers `[total, recved)`, where `total` is what the calls
before it were accepted. -/
def Covers (recved : Nat) : Nat → List SendCall → Prop
  | _, [] => True
  | total, call :: rest =>
      (call.offset = total ∧ call.offset + call.length = recved) ∧
        Covers recved (total + call.accepted.getD 0) rest

/-- The bytes that `send` is pointed at. -/
def SendCall.range (segment : Nat → Byte) (call : SendCall) : List Byte :=
  (List.range' call.offset call.length).map segment

/-- What is sent is what was read: nothing after a failed read, and otherwise
the rest of the data, inside `segment_`. -/
def OnlyRead (read : ReadResult) (result : Forwarded) : Prop :=
  match read with
  | .data bytes _ => Covers bytes.length 0 result.sending.calls ∧
      ∀ call ∈ result.sending.calls, call.offset + call.length ≤ Packet.maxPacketSize ∧
        SendCall.range result.packet.segment call = bytes.drop call.offset
  | .again | .error => result.sending.calls = []

structure SendsOnlyRead (packet : Packet) (read : ReadResult) (sends : Nat → Option Nat) :
    Prop where
  terminates : Terminates packet read sends
  onlyRead : ∀ count, OnlyRead read (issued packet read sends count)

theorem results_length (sends : Nat → Option Nat) (count : Nat) :
    (results sends count).length = count := by
  rw [results, List.length_map, List.length_range]

theorem loop_covers (recved total : Nat) (sends : List (Option Nat)) (inside : total ≤ recved) :
    Covers recved total (sendLoop recved (some recved) total sends).calls := by
  induction sends generalizing total with
  | nil => trivial
  | cons result rest ih =>
      cases result with
      | none => exact ⟨⟨rfl, Nat.add_sub_cancel' inside⟩, trivial⟩
      | some count =>
          have next : total + min count (recved - total) ≤ recved := by omega
          simp only [sendLoop]
          split
          · exact ⟨⟨rfl, Nat.add_sub_cancel' inside⟩, trivial⟩
          · exact ⟨⟨rfl, Nat.add_sub_cancel' inside⟩, ih _ next⟩

theorem covers_range {recved total : Nat} {calls : List SendCall}
    (covers : Covers recved total calls) :
    ∀ call ∈ calls, call.offset + call.length = recved := by
  induction calls generalizing total with
  | nil => simp
  | cons first rest ih =>
      rw [List.forall_mem_cons]
      exact ⟨covers.1.2, ih covers.2⟩

/-- Each call that does not end the loop brings `total` closer to `recved`. -/
theorem loop_finishes (recved total : Nat) (sends : List (Option Nat)) (inside : total ≤ recved)
    (progresses : ∀ call ∈ (sendLoop recved (some recved) total sends).calls,
      0 < call.length → call.accepted ≠ some 0)
    (enough : recved - total < sends.length) :
    (sendLoop recved (some recved) total sends).finished = true := by
  induction sends generalizing total with
  | nil => exact absurd enough (Nat.not_lt_zero _)
  | cons result rest ih =>
      cases result with
      | none => rfl
      | some count =>
          by_cases ends : some recved = some (total + min count (recved - total))
          · simp only [sendLoop, if_pos ends]
          · simp only [sendLoop, if_neg ends] at progresses ⊢
            rw [List.forall_mem_cons] at progresses
            obtain ⟨first, later⟩ := progresses
            rw [Option.some.injEq] at ends
            have moved : min count (recved - total) ≠ 0 := fun nothing =>
              first (show 0 < recved - total by omega) (congrArg some nothing)
            rw [List.length_cons] at enough
            exact ih (total + min count (recved - total)) (by omega) later (by omega)

theorem filled_range (packet : Packet) (bytes : List Byte) (call : SendCall)
    (whole : call.offset + call.length = bytes.length) :
    SendCall.range (packet.fill bytes).segment call = bytes.drop call.offset := by
  apply List.ext_getElem
  · simp only [SendCall.range, List.length_map, List.length_range', List.length_drop]
    omega
  · intro i left right
    have bound : call.offset + i < bytes.length := by simp at right; omega
    simp [SendCall.range, Packet.fill, bound]

theorem data_only_read (packet : Packet) (bytes : List Byte)
    (fits : bytes.length ≤ Packet.maxPacketSize) (sends : Nat → Option Nat) (count : Nat) :
    OnlyRead (.data bytes fits) (issued packet (.data bytes fits) sends count) := by
  have covers := loop_covers bytes.length 0 (results sends count) (Nat.zero_le _)
  refine ⟨covers, fun call issued => ?_⟩
  have whole := covers_range covers call issued
  exact ⟨whole ▸ fits, filled_range packet.clear bytes call whole⟩

theorem data_terminates (packet : Packet) (bytes : List Byte)
    (fits : bytes.length ≤ Packet.maxPacketSize) (sends : Nat → Option Nat)
    (progresses : Progresses packet (.data bytes fits) sends) :
    Terminates packet (.data bytes fits) sends := by
  refine ⟨bytes.length + 1, ?_⟩
  apply loop_finishes bytes.length 0 _ (Nat.zero_le _) (progresses (bytes.length + 1))
  rw [results_length]
  omega

/-- After a failed read the first `send` is handed everything up to the end of
memory. -/
theorem error_sends (packet : Packet) (sends : Nat → Option Nat) :
    (issued packet .error sends 1).sending.calls ≠ [] := by
  simp only [issued, results, List.range_one, List.map_cons, List.map_nil, forward]
  cases sends 0 with
  | none => exact List.cons_ne_nil _ _
  | some count =>
      rw [sendLoop, if_neg (by simp)]
      exact List.cons_ne_nil _ _

/-- `forward` sends only what it read exactly when the read does not fail with
an error other than EAGAIN. -/
theorem sends_only_read_iff (packet : Packet) (read : ReadResult) (sends : Nat → Option Nat)
    (progresses : Progresses packet read sends) :
    SendsOnlyRead packet read sends ↔ read ≠ .error := by
  cases read with
  | again => exact ⟨fun _ => by simp, fun _ => ⟨⟨0, rfl⟩, fun _ => rfl⟩⟩
  | data bytes fits =>
      refine ⟨fun _ => by simp, fun _ => ⟨?_, ?_⟩⟩
      · exact data_terminates packet bytes fits sends progresses
      · exact data_only_read packet bytes fits sends
  | error =>
      constructor
      · intro only
        exact absurd (only.onlyRead 1) (error_sends packet sends)
      · intro fine
        exact absurd rfl fine

theorem loop_progresses (length : Nat) (recved : Option Nat) (total : Nat)
    (sends : List (Option Nat)) (moving : ∀ result ∈ sends, result ≠ some 0) :
    ∀ call ∈ (sendLoop length recved total sends).calls,
      0 < call.length → call.accepted ≠ some 0 := by
  induction sends generalizing total with
  | nil => simp [sendLoop]
  | cons result rest ih =>
      rw [List.forall_mem_cons] at moving
      obtain ⟨first, later⟩ := moving
      cases result with
      | none => simp [sendLoop]
      | some count =>
          have moved : ∀ room, 0 < room → some (min count room) ≠ some 0 := by
            intro room more nothing
            rw [Option.some.injEq] at nothing
            exact first (congrArg some (show count = 0 by omega))
          simp only [sendLoop]
          split
          · rw [List.forall_mem_singleton]
            exact moved _
          · rw [List.forall_mem_cons]
            exact ⟨moved _, ih _ later⟩

theorem progresses_of_moving (packet : Packet) (read : ReadResult) (sends : Nat → Option Nat)
    (moving : ∀ i, sends i ≠ some 0) : Progresses packet read sends := by
  intro count
  have each : ∀ result ∈ results sends count, result ≠ some 0 := by
    intro result listed
    obtain ⟨i, -, rfl⟩ := List.mem_map.mp listed
    exact moving i
  cases read with
  | again => simp [issued, forward]
  | data bytes fits => exact loop_progresses _ _ 0 _ each
  | error => exact loop_progresses _ _ 0 _ each

def blank : Packet := ⟨fun _ => 0, 0, fun _ => 0⟩

/-- Three bytes, sent one at a time. -/
theorem pieces_send_only_read :
    SendsOnlyRead blank (.data [1, 2, 3] (by decide)) (fun _ => some 1) :=
  (sends_only_read_iff blank (.data [1, 2, 3] (by decide)) (fun _ => some 1)
    (progresses_of_moving _ _ _ fun _ => by decide)).mpr (by decide)

/-- A connection that was reset: `read` fails with ECONNRESET, and `send` is
called with `(size_t)-1` bytes of memory that was never received. -/
theorem reset_not_only_read : ¬ ∀ packet read sends, Progresses packet read sends →
    SendsOnlyRead packet read sends := by
  intro claim
  have progresses := progresses_of_moving blank .error (fun _ => none) fun _ => by decide
  exact error_sends blank _ ((claim blank .error (fun _ => none) progresses).onlyRead 1)

end RProxy.SendLoop
