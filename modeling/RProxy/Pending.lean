import RProxy.Outgoing

/-!
Connections with pending output. From the first byte that `send` keeps, the mask
in the register context is WRITABLE alone, where `sendInLoop` looks for READABLE.
-/

namespace RProxy

/-- An entry of the table under its own descriptor. -/
structure Attached (fd : Fd) (conn : TcpConnection) : Prop where
  sockfd : conn.sockfd = fd
  socket : conn.channel.socket = fd
  valid : conn.sendBuffer.Valid
  connected : conn.state = .connected

/-- Nothing is pending under the mask of the registration, or the mask is
WRITABLE alone. -/
structure Muted (fd : Fd) (conn : TcpConnection) : Prop where
  attached : Attached fd conn
  events : (conn.context = .dmpRegister ⟨fd, Demultiplex.defaultEvents⟩ ∧
      conn.sendBuffer.readableBytes = 0) ∨
    conn.context = .dmpRegister ⟨fd, Demultiplex.writable⟩

namespace Muted

variable {fd : Fd} {conn : TcpConnection}

theorem new (fd : Fd) (peer : InetAddr) :
    Muted fd (.new ⟨false, fd⟩ (.dmpRegister ⟨fd, Demultiplex.defaultEvents⟩) peer) := by
  constructor
  · exact ⟨rfl, rfl, ArrayBuffer.packet_valid, rfl⟩
  · exact Or.inl ⟨rfl, ArrayBuffer.new_readable _⟩

/-- What `updateForModify` makes of a connection that asks for WRITABLE. -/
theorem modified (attached : Attached fd conn) :
    Muted fd { conn with context := .dmpRegister ⟨fd, Demultiplex.writable⟩ } :=
  ⟨⟨attached.sockfd, attached.socket, attached.valid, attached.connected⟩, Or.inr rfl⟩

/-- The context is cast to the type it was registered with, and to no other. -/
theorem casts (muted : Muted fd conn) :
    (∃ events, conn.context.toRegister = some ⟨fd, events⟩) ∧ conn.context.toModify = none := by
  rcases muted.events with ⟨context, _⟩ | context
  · rw [context]
    exact ⟨⟨_, rfl⟩, rfl⟩
  · rw [context]
    exact ⟨⟨_, rfl⟩, rfl⟩

/-- The condition under which `sendInLoop` writes is never met. -/
theorem silent (muted : Muted fd conn) (pending : conn.sendBuffer.readableBytes ≠ 0)
    {ctx : DmpRegisterContext} (registered : conn.context.toRegister = some ctx) :
    Demultiplex.has ctx.events Demultiplex.readable = false := by
  rcases muted.events with ⟨_, drained⟩ | context
  · exact absurd drained pending
  · rw [context, Context.toRegister, Option.some.injEq] at registered
    rw [← registered]
    exact Demultiplex.writable_not_readable

theorem send_in_loop (muted : Muted fd conn) (wrote : Option Nat) :
    conn.sendInLoop wrote = .ok (conn, none) := by
  by_cases drained : conn.sendBuffer.readableBytes = 0
  · exact TcpServer.send_in_loop_drained conn wrote drained
  · obtain ⟨events, registered⟩ := muted.casts.1
    have unread := muted.silent drained registered
    simp only [TcpConnection.sendInLoop, if_neg drained, registered, unread, Bool.false_eq_true,
      ↓reduceIte]

theorem still (muted : Muted fd conn) : TcpServer.Still fd conn :=
  ⟨muted.attached.sockfd, muted.attached.socket, muted.send_in_loop⟩

/-- The ways in which a `send` ends: it changes the buffer, or it also asks for
WRITABLE, or there is no memory. -/
def Sends (fd : Fd) (conn : TcpConnection) : Endpoint.Ended → Prop
  | .ok none next => Muted fd next.conn
  | .ok (some ctx) next => ctx = ⟨fd, Demultiplex.writable⟩ ∧ Attached fd next.conn ∧
      next.conn.context = .dmpRegister ⟨fd, Demultiplex.defaultEvents⟩
  | .error _ next => next.conn = conn

/-- `send` after its `write`: what is left goes behind what is pending. -/
theorem store (attached : Attached fd conn) (writes : List WriteCall) (data : Region) {wrote : Int}
    (nonneg : 0 ≤ wrote) (watched granted : Bool)
    (events : if watched then conn.context = .dmpRegister ⟨fd, Demultiplex.writable⟩
      else conn.context = .dmpRegister ⟨fd, Demultiplex.defaultEvents⟩ ∧
        conn.sendBuffer.readableBytes = 0) :
    Sends fd conn (Endpoint.store ⟨conn, writes⟩ data wrote watched granted) := by
  have muted : Muted fd conn := by
    cases watched with
    | true => exact ⟨attached, Or.inr events⟩
    | false => exact ⟨attached, Or.inl events⟩
  rw [Endpoint.store]
  by_cases more : 0 < (data.1.length : Int) - wrote
  · have inside := attached.valid.inside
    have bounded := attached.valid.bounded
    rw [ArrayBuffer.maxSize] at bounded
    have small := data.2
    have noWrap : conn.sendBuffer.writerIndex + (data.1.drop wrote.toNat).length < 2 ^ 64 := by
      rw [List.length_drop]
      omega
    have rest : data.1.drop wrote.toNat ≠ [] := by
      apply List.ne_nil_of_length_pos
      rw [List.length_drop]
      omega
    rw [if_pos more]
    rcases ArrayBuffer.Call.append_spec attached.valid noWrap granted (Or.inr rest) with
      ⟨fault, -, threw⟩ | ⟨buf, returned, valid, -⟩
    · rw [threw]
      rfl
    · have kept : Attached fd (Endpoint.withBuffer ⟨conn, writes⟩ buf).conn :=
        ⟨attached.sockfd, attached.socket, valid, attached.connected⟩
      rw [returned]
      cases watched with
      | true => exact ⟨kept, Or.inr events⟩
      | false =>
          refine ⟨?_, kept, events.1⟩
          rw [Channel.enableWrite, attached.socket]
          rfl
  · rw [if_neg more]
    exact muted

theorem send (muted : Muted fd conn) (data : Region) (wrote : Option Nat) (granted : Bool) :
    Sends fd conn (Endpoint.send ⟨conn, []⟩ data wrote granted) := by
  have connected : conn.state ≠ .disconnect := by simp [muted.attached.connected]
  rw [Endpoint.send, if_neg connected]
  rcases muted.events with ⟨context, drained⟩ | context
  · simp only [context, Context.toRegister, Demultiplex.default_not_writable, Bool.false_eq_true,
      ↓reduceIte, if_pos drained]
    apply store muted.attached _ data _ false granted ⟨context, drained⟩
    split
    · next written => exact written
    · exact Int.le_refl 0
  · simp only [context, Context.toRegister, Demultiplex.writable_has_writable, ↓reduceIte]
    exact store muted.attached [] data (Int.le_refl 0) true granted context

end Muted

namespace TcpServer

def AllMuted (server : TcpServer) : Prop :=
  ∀ fd conn, server.connMap.lookup fd = some conn → Muted fd conn

/-- What a call on the connection under `fd` leaves in its entry. -/
def store (server : TcpServer) (fd : Fd) (conn : TcpConnection) : TcpServer :=
  { server with connMap := server.connMap.modify fd fun _ => conn }

variable {server : TcpServer}

theorem AllMuted.calm (muted : server.AllMuted) : server.Calm :=
  fun fd conn found => (muted fd conn found).still

theorem lookup_store (fd other : Fd) (conn : TcpConnection) :
    (server.store fd conn).connMap.lookup other =
      if other = fd then (server.connMap.lookup fd).map fun _ => conn
      else server.connMap.lookup other := UnorderedMap.lookup_modify _ _ _ _

theorem store_muted (muted : server.AllMuted) {fd : Fd} {conn : TcpConnection}
    (here : Muted fd conn) : (server.store fd conn).AllMuted := by
  intro other stored found
  rw [lookup_store] at found
  by_cases same : other = fd
  · subst same
    rw [if_pos rfl, Option.map_eq_some_iff] at found
    obtain ⟨_, _, rfl⟩ := found
    exact here
  · rw [if_neg same] at found
    exact muted other stored found

theorem register_muted {Publisher Subscriber : Type} (muted : server.AllMuted)
    (center : PubSubCenter Publisher Subscriber) (fd : Fd) (peer : InetAddr) :
    (server.updateForRegister center ⟨fd, Demultiplex.defaultEvents⟩ peer).1.AllMuted := by
  intro other conn found
  rw [updateForRegister] at found
  split at found
  · rw [remove_lookup] at found
    split at found
    · cases found
    · exact muted other conn found
  · next absent =>
      rw [UnorderedMap.lookup_emplace_fresh (AList.lookup_eq_none.mpr absent)] at found
      split at found
      · next same =>
          cases found
          rw [same]
          exact Muted.new fd peer
      · exact muted other conn found

/-- `updateForModify` for a connection that has just asked for WRITABLE. -/
theorem modify_muted (muted : server.AllMuted) {fd : Fd} {conn stored : TcpConnection}
    (found : server.connMap.lookup fd = some stored) (attached : Attached fd conn)
    (context : conn.context = .dmpRegister ⟨fd, Demultiplex.defaultEvents⟩) :
    ∃ next, (server.store fd conn).updateForModify ⟨fd, Demultiplex.writable⟩ = .ok next ∧
      next.AllMuted := by
  have there : (server.store fd conn).connMap.lookup fd = some conn := by
    rw [lookup_store, if_pos rfl, found, Option.map_some]
  simp only [updateForModify, there, context, Context.toRegister, ne_eq, not_true_eq_false,
    ↓reduceIte]
  refine ⟨_, rfl, ?_⟩
  intro other stored' found'
  rw [UnorderedMap.lookup_modify] at found'
  by_cases same : other = fd
  · subst same
    rw [if_pos rfl, there, Option.map_some, Option.some.injEq] at found'
    rw [← found']
    exact Muted.modified attached
  · rw [if_neg same, lookup_store, if_neg same] at found'
    exact muted other stored' found'

end TcpServer
end RProxy
