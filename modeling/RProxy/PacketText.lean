import RProxy.Attach

/-!
What is in `ip_` and `port_` when a packet is sent. `updateForForward` copies
the two texts, and then `forward` begins with a `memset` of the whole packet.
-/

namespace RProxy.Attach

open Packet

/-- A text with zeros behind it fills the field, and only the field. -/
structure Holds (packet : Packet) (start size : Nat) (text : List Char) : Prop where
  inside : text.length ≤ size
  padded : ∀ i < size, packet.text (start + i) = ((asBytes text)[i]?).getD 0

/-- The packet names the client it is sent for. -/
structure NamesClient (answers : Answers) (sent : Sent) : Prop where
  ip : Holds sent.packet 0 maxIpSize (getPeerAddr (answers.getpeername sent.incoming)).ip
  port : Holds sent.packet maxIpSize maxPortSize
    (getPeerAddr (answers.getpeername sent.incoming)).portText

/-- The client is over its limit, or there is nothing to read from it. -/
def Quiet (answers : Answers) (center : PubSubCenter Unit Unit) (incoming : Fd) : Prop :=
  center.isLismited (answers.key incoming) = true ∨ answers.read incoming = .again

/-- What is sent from one state to a later one, and nothing in it names a client. -/
def Blank (state next : State) : Prop :=
  ∃ later, next.sent = state.sent ++ later ∧ ∀ sent ∈ later, ∀ i, sent.packet.text i = 0

/-- `memset` comes after the two copies. -/
theorem forward_text (packet : Packet) (read : ReadResult) (sends : List (Option Nat)) (i : Nat) :
    (forward packet read sends).packet.text i = 0 := by
  cases read with
  | data bytes fits => rfl
  | again => rfl
  | error => rfl

section Texts

variable {answers : Answers} {state : State} {incoming : Fd} {addr : InetAddr}

/-- What a pass for an unlimited client has sent, whether it is through or not. -/
theorem relay_sent {sock : Fd} (found : state.reversedMap.lookup incoming = some sock)
    (unlimited : ¬ state.center.isLismited (answers.key incoming) = true) :
    (stateOf (relay answers incoming state)).sent = state.sent ++
      (answers.forward state incoming).sending.calls.map fun call =>
        ⟨incoming, sock, (answers.forward state incoming).packet, call⟩ := by
  rw [relay_forwards found unlimited]
  split
  · exact (charged_keeps _ _ _).1
  · rfl

theorem blank_of_same {next : State} (same : next.sent = state.sent) : Blank state next := by
  refine ⟨[], ?_, ?_⟩
  · rw [same, List.append_nil]
  · intro sent listed
    cases listed

theorem pass_blank (answers : Answers) (state : State) (incoming : Fd) (addr : InetAddr) :
    Blank state (stateOf (pass answers incoming addr state)) := by
  rcases pass_cases answers state incoming addr with ⟨_, threw⟩ | ⟨_, sock, middle, joined, relays⟩
  · rw [threw]
    exact blank_of_same rfl
  · rw [relays]
    by_cases limited : middle.center.isLismited (answers.key incoming) = true
    · rw [relay_limited joined.found limited]
      exact blank_of_same joined.sent
    · refine ⟨_, (relay_sent joined.found limited).trans (by rw [joined.sent]), ?_⟩
      intro sent listed i
      obtain ⟨call, _, rfl⟩ := List.mem_map.mp listed
      exact forward_text _ _ _ i

theorem loop_blank (answers : Answers) (pairs : List (Sigma fun _ : Fd => InetAddr))
    (state : State) :
    Blank state (stateOf (updateForForward answers pairs state)) := by
  apply loop_carries
  · intro state
    exact blank_of_same rfl
  · rintro first second third ⟨later, sent, blank⟩ ⟨last, sentLast, blankLast⟩
    refine ⟨later ++ last, ?_, ?_⟩
    · rw [sentLast, sent, List.append_assoc]
    · intro sent listed
      rcases List.mem_append.mp listed with here | there
      · exact blank sent here
      · exact blankLast sent there
  · exact pass_blank answers

end Texts

theorem inet_ntoa_head (octets : UInt8 × UInt8 × UInt8 × UInt8) :
    ∃ first, (inetNtoa octets)[0]? = some first ∧ first.isDigit = true := by
  obtain ⟨a, b, c, d⟩ := octets
  have some : Nat.toDigits 10 a.toNat ≠ [] := Nat.toDigits_ne_nil
  obtain ⟨first, rest, digits⟩ := List.exists_cons_of_ne_nil some
  have digit : first.isDigit = true :=
    Nat.isDigit_of_mem_toDigits (by decide) (by decide) (digits ▸ List.mem_cons_self)
  refine ⟨first, ?_, digit⟩
  simp only [inetNtoa, decimal, digits, List.cons_append, List.getElem?_cons_zero]

theorem digit_byte {letter : Char} (digit : letter.isDigit = true) : letter.toNat.toUInt8 ≠ 0 := by
  simp only [Char.isDigit, Bool.and_eq_true, decide_eq_true_eq] at digit
  have low : 48 ≤ letter.toNat := UInt32.le_iff_toNat_le.mp digit.1
  have high : letter.toNat ≤ 57 := UInt32.le_iff_toNat_le.mp digit.2
  intro zero
  have same : letter.toNat % 256 = 0 := by
    rw [← UInt8.toNat_ofNat']
    exact congrArg UInt8.toNat zero
  omega

theorem blank_names_nobody (answers : Answers) {sent : Sent}
    (blank : ∀ i, sent.packet.text i = 0) : ¬ NamesClient answers sent := by
  intro names
  obtain ⟨first, text, digit⟩ := inet_ntoa_head (answers.getpeername sent.incoming).octets
  have starts : (getPeerAddr (answers.getpeername sent.incoming)).ip[0]? = some first := text
  have padded := names.ip.padded 0 (by decide)
  rw [blank, asBytes, List.getElem?_map, starts, Option.map_some, Option.getD_some] at padded
  exact digit_byte digit padded.symm

theorem send_loop_calls (length : Nat) (recved : Option Nat) (total : Nat)
    (first : Option Nat) (rest : List (Option Nat)) :
    (sendLoop length recved total (first :: rest)).calls ≠ [] := by
  cases first with
  | none => exact List.cons_ne_nil _ _
  | some count =>
      simp only [sendLoop]
      split
      · exact List.cons_ne_nil _ _
      · exact List.cons_ne_nil _ _

/-- Unless there is nothing to read, `forward` comes to its first `send`. -/
theorem forward_calls_nil_iff (packet : Packet) (answers : Answers) (incoming : Fd) :
    (forward packet (answers.read incoming) (answers.sends incoming)).sending.calls = [] ↔
      answers.read incoming = .again := by
  cases read : answers.read incoming with
  | again => exact ⟨fun _ => rfl, fun _ => rfl⟩
  | data bytes fits =>
      simp only [reduceCtorEq, iff_false]
      exact send_loop_calls _ _ _ _ _
  | error =>
      simp only [reduceCtorEq, iff_false]
      exact send_loop_calls _ _ _ _ _

/-- A pass sends nothing exactly where the client is quiet, and then it changes
nothing that the others depend on. -/
theorem joined_quiet_iff {answers : Answers} {state middle : State} {incoming sock : Fd}
    (joined : Joined state incoming sock middle) :
    (stateOf (relay answers incoming middle)).sent = state.sent ↔
      Quiet answers state.center incoming := by
  rw [Quiet, ← joined.center, ← joined.sent]
  by_cases limited : middle.center.isLismited (answers.key incoming) = true
  · rw [relay_limited joined.found limited]
    exact ⟨fun _ => Or.inl limited, fun _ => rfl⟩
  · rw [relay_sent joined.found limited, List.append_right_eq_self, List.map_eq_nil_iff,
      Answers.forward, forward_calls_nil_iff]
    exact ⟨Or.inr, fun quiet => quiet.resolve_left limited⟩

theorem quiet_relay {answers : Answers} {state middle : State} {incoming sock : Fd}
    (joined : Joined state incoming sock middle) (quiet : Quiet answers state.center incoming) :
    ∃ next, relay answers incoming middle = .ok () next ∧ next.center = state.center ∧
      next.reversedMap = middle.reversedMap := by
  by_cases limited : middle.center.isLismited (answers.key incoming) = true
  · exact ⟨middle, relay_limited joined.found limited, joined.center, rfl⟩
  · have again : answers.read incoming = .again :=
      quiet.resolve_left (joined.center ▸ limited)
    have finished : (answers.forward middle incoming).sending.finished = true := by
      rw [Answers.forward, again]
      rfl
    have returned : (answers.forward middle incoming).returned = -1 := by
      rw [Answers.forward, again]
      rfl
    refine ⟨middle.forwarded incoming sock (answers.key incoming)
      (answers.forward middle incoming), ?_, joined.center, rfl⟩
    rw [relay_forwards joined.found limited, if_pos finished, returned]
    rfl

/-- What the first pass has sent stays sent. -/
theorem first_sent {answers : Answers} {state : State} {pair : Sigma fun _ : Fd => InetAddr}
    {rest : List (Sigma fun _ : Fd => InetAddr)}
    (same : (stateOf (updateForForward answers (pair :: rest) state)).sent = state.sent) :
    (stateOf (pass answers pair.1 pair.2 state)).sent = state.sent := by
  obtain ⟨sent, grown, _⟩ := pass_blank answers state pair.1 pair.2
  obtain ⟨later, whole, _⟩ : Blank (stateOf (pass answers pair.1 pair.2 state))
      (stateOf (updateForForward answers (pair :: rest) state)) := by
    rw [updateForForward]
    cases passed : pass answers pair.1 pair.2 state with
    | ok _ next =>
        rw [bind_of_ok passed]
        exact loop_blank answers rest next
    | error halt next =>
        rw [bind_of_error passed]
        exact blank_of_same rfl
  rw [same, grown, List.append_assoc, List.self_eq_append_right, List.append_eq_nil_iff] at whole
  rw [grown, whole.1, List.append_nil]

theorem loop_quiet_iff (answers : Answers) (state : State)
    {pairs : List (Sigma fun _ : Fd => InetAddr)} (distinct : (pairs.map Sigma.fst).Nodup)
    (reaches : (Sigma fun _ : Fd => InetAddr) → Bool)
    (agrees : ∀ pair ∈ pairs, reaches pair = true ↔ Reachable answers state.reversedMap pair) :
    (stateOf (updateForForward answers pairs state)).sent = state.sent ↔
      ∀ pair ∈ pairs.takeWhile reaches, Quiet answers state.center pair.1 := by
  induction pairs generalizing state with
  | nil =>
      simp only [List.takeWhile_nil, List.not_mem_nil, false_implies, implies_true, iff_true]
      rfl
  | cons pair rest ih =>
      obtain ⟨fresh, distinctRest⟩ := List.nodup_cons.mp distinct
      have here := agrees pair List.mem_cons_self
      rcases pass_cases answers state pair.1 pair.2 with
        ⟨unreachable, threw⟩ | ⟨reachable, sock, middle, joined, relays⟩
      · rw [updateForForward, bind_of_error threw,
          List.takeWhile_cons_of_neg (mt here.mp unreachable)]
        simp only [List.not_mem_nil, false_implies, implies_true, iff_true]
        rfl
      · rw [List.takeWhile_cons_of_pos (here.mpr reachable), List.forall_mem_cons]
        by_cases quiet : Quiet answers state.center pair.1
        · obtain ⟨next, relayed, center, reversedMap⟩ := quiet_relay joined quiet
          have nothing : next.sent = state.sent := by
            have same := (joined_quiet_iff joined).mpr quiet
            rw [relayed] at same
            exact same
          have agreesLater : ∀ other ∈ rest,
              reaches other = true ↔ Reachable answers next.reversedMap other := by
            intro other listed
            have different : other.1 ≠ pair.1 := fun same =>
              fresh (same ▸ List.mem_map_of_mem listed)
            rw [agrees other (List.mem_cons_of_mem pair listed), Reachable, Reachable,
              ← AList.lookup_isSome, ← AList.lookup_isSome, reversedMap,
              joined.others other.1 different]
          rw [updateForForward, bind_of_ok (relays.trans relayed), ← nothing,
            ih next distinctRest agreesLater, center]
          exact ⟨fun rest => ⟨quiet, rest⟩, And.right⟩
        · simp only [quiet, false_and, iff_false]
          intro same
          apply quiet
          rw [← joined_quiet_iff joined, ← relays]
          exact first_sent same

/-- No packet that is sent names its client: the packets of a context are right
exactly where there are none, because each client that the loop comes to is over
its limit or has nothing to read. -/
theorem names_client_iff (answers : Answers) (sockMap reversedMap : UnorderedMap Fd Fd)
    (center : PubSubCenter Unit Unit) (packet : Packet) (context : UnorderedMap Fd InetAddr) :
    (∀ sent ∈ (stateOf (updateForForward answers context.entries
        (before sockMap reversedMap center packet))).sent, NamesClient answers sent) ↔
      ∀ pair ∈ context.entries.takeWhile fun pair => Reachable answers reversedMap pair,
        Quiet answers center pair.1 := by
  have quiet := loop_quiet_iff answers (before sockMap reversedMap center packet) context.nodupKeys
    (fun pair => Reachable answers reversedMap pair) fun pair _ => decide_eq_true_iff
  refine Iff.trans ?_ quiet
  obtain ⟨later, whole, blank⟩ := loop_blank answers context.entries
    (before sockMap reversedMap center packet)
  have all : (stateOf (updateForForward answers context.entries
      (before sockMap reversedMap center packet))).sent = later := whole
  rw [all]
  constructor
  · intro names
    exact List.eq_nil_iff_forall_not_mem.mpr fun sent listed =>
      blank_names_nobody answers (blank sent listed) (names sent listed)
  · intro none sent listed
    have empty : later = [] := none
    rw [empty] at listed
    cases listed

def loopback : Peer := ⟨(127, 0, 0, 1), 5050⟩

/-- One byte from a client at 127.0.0.1:5050 that has a counter. The packet is
sent with both fields zero. -/
theorem loopback_sent_unnamed : ¬ ∀ answers sockMap reversedMap center packet,
    ∀ (context : UnorderedMap Fd InetAddr), ∀ sent ∈ (stateOf (updateForForward answers
      context.entries (before sockMap reversedMap center packet))).sent,
      NamesClient answers sent := by
  intro claim
  let answers : Answers :=
    ⟨fun _ _ => some 7, fun _ => loopback, fun _ => .data [1] (by decide), fun _ => (some 1, [])⟩
  let center : PubSubCenter Unit Unit :=
    PubSubCenter.account ⟨∅, ∅, ∅⟩ (getPeerAddr loopback).toString 0
  let context : UnorderedMap Fd InetAddr := (∅ : UnorderedMap Fd InetAddr).insert 5 ⟨['b'], 80⟩
  let packet : Packet := ⟨fun _ => 0, 0, fun _ => 0⟩
  let sent := (stateOf (updateForForward answers context.entries
    (before ∅ ∅ center packet))).sent
  have issued : sent.length = 1 := by decide +kernel
  obtain ⟨only, listed⟩ := List.length_eq_one_iff.mp issued
  have member : only ∈ sent := listed ▸ List.mem_singleton_self only
  have blank : ∀ i, only.packet.text i = 0 := by
    obtain ⟨later, whole, blank⟩ := loop_blank answers context.entries
      (before ∅ ∅ center packet)
    have all : sent = later := whole
    exact blank only (all ▸ member)
  exact blank_names_nobody answers blank (claim answers ∅ ∅ center packet context only member)

end RProxy.Attach
