import RProxy.Basic

/-!
`ProxyServer::forward` of the MSG_ATTACH build: one `read` of at most a packet,
then a `send` loop over what was read. The results of the system calls are
inputs. The list of send results is the list of the calls made so far, so a
shorter list is an earlier moment of the same call.
-/

namespace RProxy

namespace Packet

def maxIpSize : Nat := 10
def maxPortSize : Nat := 6
def maxPacketSize : Nat := 64 * 1024

end Packet

/-- `text` is `char ip_[10]` followed by `char port_[6]`. `segment` goes on
past `segment_` into whatever the heap holds behind the packet. -/
structure Packet where
  text : Nat → Byte
  length : Nat
  segment : Nat → Byte

namespace Packet

/-- `memset(packet, 0, sizeof(*packet))` -/
def clear (packet : Packet) : Packet where
  text _ := 0
  length := 0
  segment i := if i < maxPacketSize then 0 else packet.segment i

def fill (packet : Packet) (bytes : List Byte) : Packet :=
  { packet with segment := fun i => (bytes[i]?).getD (packet.segment i) }

end Packet

/-- The result of `read(in_fd, packet->segment_, MAX_PACKET_SIZE)`. -/
inductive ReadResult where
  | data (bytes : List Byte) (fits : bytes.length ≤ Packet.maxPacketSize)
  | again
  | error
  deriving DecidableEq

/-- One `send(out_fd, packet->segment_ + offset, length, MSG_ZEROCOPY)`;
`accepted` is `none` when it returned -1. -/
structure SendCall where
  offset : Nat
  length : Nat
  accepted : Option Nat
  deriving DecidableEq, Repr

def SendCall.bytes (segment : Nat → Byte) (call : SendCall) : List Byte :=
  (List.range' call.offset (call.accepted.getD 0)).map segment

structure Sending where
  calls : List SendCall
  total : Nat
  finished : Bool
  deriving DecidableEq, Repr

/-- The `while (true)` loop. `recved` is `none` for the -1 of a failed read,
which `total` never reaches. `send` accepts at most what it is handed. -/
def sendLoop (length : Nat) (recved : Option Nat) : Nat → List (Option Nat) → Sending
  | total, [] => ⟨[], total, false⟩
  | total, none :: _ => ⟨[⟨total, length - total, none⟩], total, true⟩
  | total, some count :: rest =>
      let sent := min count (length - total)
      let call : SendCall := ⟨total, length - total, some sent⟩
      -- `total == recved`, which -1 never is
      if recved = some (total + sent) then ⟨[call], total + sent, true⟩
      else
        let later := sendLoop length recved (total + sent) rest
        ⟨call :: later.calls, later.total, later.finished⟩

structure Forwarded where
  packet : Packet
  taken : List Byte
  sending : Sending
  returned : Int

/-- All the bytes that `send` accepted, in order. -/
def Forwarded.accepted (result : Forwarded) : List Byte :=
  result.sending.calls.flatMap (·.bytes result.packet.segment)

def forward (packet : Packet) (read : ReadResult) (sends : List (Option Nat)) : Forwarded :=
  let packet := packet.clear
  match read with
  | .again => ⟨packet, [], ⟨[], 0, true⟩, -1⟩
  | .data bytes _ =>
      let packet := { packet.fill bytes with length := bytes.length }
      let sending := sendLoop packet.length (some bytes.length) 0 sends
      ⟨packet, bytes, sending, sending.total⟩
  | .error =>
      -- length_ = recved stores -1 into a size_t
      let packet := { packet with length := 2 ^ 64 - 1 }
      let sending := sendLoop packet.length none 0 sends
      ⟨packet, [], sending, sending.total⟩

theorem send_loop_total_bounds (length : Nat) (recved : Option Nat) (total : Nat)
    (sends : List (Option Nat)) (inside : total ≤ length) :
    total ≤ (sendLoop length recved total sends).total ∧
      (sendLoop length recved total sends).total ≤ length := by
  induction sends generalizing total with
  | nil => exact ⟨Nat.le_refl _, inside⟩
  | cons result rest ih =>
      cases result with
      | none => exact ⟨Nat.le_refl _, inside⟩
      | some count =>
          simp only [sendLoop]
          split
          · constructor
            · exact Nat.le_add_right _ _
            · show total + min count (length - total) ≤ length
              omega
          · have later := ih (total + min count (length - total)) (by omega)
            exact ⟨Nat.le_trans (Nat.le_add_right _ _) later.1, later.2⟩

/-- The calls of one loop cover the segment without a gap or an overlap. -/
theorem send_loop_contiguous (segment : Nat → Byte) (length : Nat) (recved : Option Nat)
    (total : Nat) (sends : List (Option Nat)) (inside : total ≤ length) :
    (sendLoop length recved total sends).calls.flatMap (·.bytes segment) =
      (List.range' total ((sendLoop length recved total sends).total - total)).map segment := by
  induction sends generalizing total with
  | nil => simp [sendLoop]
  | cons result rest ih =>
      cases result with
      | none => simp [sendLoop, SendCall.bytes]
      | some count =>
          simp only [sendLoop]
          split
          · simp [SendCall.bytes]
          · have next : total + min count (length - total) ≤ length := by omega
            have bounds := send_loop_total_bounds length recved _ rest next
            rw [List.flatMap_cons, ih _ next, SendCall.bytes, Option.getD_some,
              ← List.map_append, List.range'_append_1]
            congr 2
            dsimp only
            omega

theorem fill_segment (packet : Packet) (bytes : List Byte) (count : Nat)
    (inside : count ≤ bytes.length) :
    (List.range' 0 count).map (packet.fill bytes).segment = bytes.take count := by
  apply List.ext_getElem
  · simp [inside]
  · intro i left right
    have bound : i < bytes.length := by simp at right; omega
    simp [Packet.fill, bound]

/-- What one call hands on is a prefix of what it read. -/
theorem forward_data_accepted (packet : Packet) (bytes : List Byte)
    (fits : bytes.length ≤ Packet.maxPacketSize) (sends : List (Option Nat)) :
    (forward packet (.data bytes fits) sends).accepted =
      bytes.take (forward packet (.data bytes fits) sends).sending.total := by
  have contiguous := send_loop_contiguous (packet.clear.fill bytes).segment bytes.length
    (some bytes.length) 0 sends (Nat.zero_le _)
  rw [Nat.sub_zero, fill_segment _ _ _ (send_loop_total_bounds _ _ 0 sends (Nat.zero_le _)).2]
    at contiguous
  exact contiguous

@[simp] theorem forward_again_accepted (packet : Packet) (sends : List (Option Nat)) :
    (forward packet .again sends).accepted = [] := rfl

@[simp] theorem forward_data_taken (packet : Packet) (bytes : List Byte)
    (fits : bytes.length ≤ Packet.maxPacketSize) (sends : List (Option Nat)) :
    (forward packet (.data bytes fits) sends).taken = bytes := rfl

/-- `send` accepts nothing before it first fails. -/
def refused : List (Option Nat) → Bool
  | [] => true
  | none :: _ => true
  | some count :: rest => count == 0 && refused rest

theorem refused_total (length : Nat) (recved : Option Nat) (total : Nat)
    (sends : List (Option Nat)) (refuses : refused sends = true) :
    (sendLoop length recved total sends).total = total := by
  induction sends with
  | nil => rfl
  | cons result rest ih =>
      cases result with
      | none => rfl
      | some count =>
          simp only [refused, Bool.and_eq_true, beq_iff_eq] at refuses
          obtain ⟨rfl, later⟩ := refuses
          simp only [sendLoop, Nat.zero_min, Nat.add_zero]
          split
          · rfl
          · exact ih later

/-- The loop after a failed `read` starts with bytes to send, so the first `send` that
takes any is accepted. -/
theorem refused_iff_total (length : Nat) (unempty : 0 < length) (sends : List (Option Nat)) :
    refused sends = true ↔ (sendLoop length none 0 sends).total = 0 := by
  constructor
  · exact refused_total length none 0 sends
  · intro untaken
    induction sends with
    | nil => rfl
    | cons result rest ih =>
        cases result with
        | none => rfl
        | some count =>
            have bounds := send_loop_total_bounds length none (min count length) rest (by omega)
            simp only [sendLoop, reduceCtorEq, ↓reduceIte, Nat.zero_add, Nat.sub_zero] at untaken
            have zero : count = 0 := by omega
            subst zero
            rw [Nat.zero_min] at untaken
            simp [refused, ih untaken]

theorem forward_refused (packet : Packet) (read : ReadResult) (sends : List (Option Nat))
    (refuses : refused sends = true) : (forward packet read sends).accepted = [] := by
  have none_sent (length : Nat) (recved : Option Nat) (segment : Nat → Byte) :
      (sendLoop length recved 0 sends).calls.flatMap (·.bytes segment) = [] := by
    rw [send_loop_contiguous segment length recved 0 sends (Nat.zero_le _),
      refused_total length recved 0 sends refuses]
    rfl
  cases read with
  | again => rfl
  | data bytes fits => exact none_sent _ _ _
  | error => exact none_sent _ _ _

/-- After a failed `read` nothing is accepted only where every `send` refuses. -/
theorem forward_error_accepted (packet : Packet) (sends : List (Option Nat)) :
    (forward packet .error sends).accepted = [] ↔ refused sends = true := by
  refine ⟨?_, forward_refused packet .error sends⟩
  intro none_sent
  have contiguous := send_loop_contiguous packet.clear.segment (2 ^ 64 - 1) none 0 sends
    (Nat.zero_le _)
  rw [refused_iff_total (2 ^ 64 - 1) (by omega)]
  rw [show (sendLoop (2 ^ 64 - 1) none 0 sends).calls.flatMap (·.bytes packet.clear.segment) =
    (forward packet .error sends).accepted from rfl, none_sent] at contiguous
  simpa using contiguous.symm

end RProxy
