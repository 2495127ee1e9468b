import RProxy.Basic

/-!
`Ping::ping`: one echo request over a raw socket and a look at the reply. A raw
socket hands over the whole IP datagram, so the ICMP header starts behind an IP
header whose length is counted in words of four bytes.
-/

namespace RProxy.Ping

/-- `sockaddr_in` of the family `AF_INET` -/
structure SockAddr where
  addr : UInt32
  port : UInt16
  deriving DecidableEq

/-- What the system calls return: `none` is -1. -/
structure Network where
  inetAddr : List Char → UInt32
  socket : Option Fd
  sendto : Fd → List Byte → SockAddr → Int
  recv : Fd → Option (List Byte)

def sizeofIcmphdr : Nat := 8

def icmpEcho : Byte := 8

section Checksum

/-- `*buf`, little-endian -/
def word (low high : Byte) : UInt64 := low.toUInt64 + high.toUInt64 * 256

/-- The loop over the words, and the byte that is left of an odd number. -/
def addWords (sum : UInt64) : List Byte → UInt64
  | low :: high :: rest => addWords (sum + word low high) rest
  | [last] => sum + last.toUInt64
  | [] => sum

def fold (sum : UInt64) : UInt64 := (sum &&& (0xffff : UInt64)) + (sum >>> 16)

def checksum (buf : List Byte) : UInt16 := (~~~ fold (fold (addWords 0xffff buf))).toUInt16

end Checksum

/-- The bytes of `icmphdr`: type, code, checksum, id and sequence. -/
def header (type code : Byte) (checksum id sequence : UInt16) : List Byte :=
  let halves (field : UInt16) : List Byte := [field.toUInt8, (field >>> 8).toUInt8]
  [type, code] ++ halves checksum ++ halves id ++ halves sequence

def hdr : List Byte := header icmpEcho 0 (checksum (header icmpEcho 0 0 0 0)) 0 0

example : hdr = [8, 0, 0xf7, 0xff, 0, 0, 0, 0] := by decide

def bufSize : Nat := 1024

/-- The zeroed array after `recv`, which drops what does not fit. -/
def buf (datagram : List Byte) : List Byte :=
  datagram.take bufSize ++ List.replicate (bufSize - datagram.length) 0

/-- `iphdr_ptr->ihl`, the low half of the first byte -/
def ihl (bytes : List Byte) : Nat := (bytes.headD 0).toNat % 16

-- The pointer that is advanced is one to `icmphdr`, so `ihl * 4` counts headers.
/-- Where `icmphdr_ptr` points to, from the start of the array. -/
def icmphdrPtr (bytes : List Byte) : Nat := sizeofIcmphdr * (ihl bytes * 4)

def ping (network : Network) (host : List Char) : Except Fault Bool :=
  let addr : SockAddr := ⟨network.inetAddr host, 5050⟩
  match network.socket with
  | none => .error .runtimeError
  | some sockfd =>
      if network.sendto sockfd hdr addr < 1 then .error .runtimeError
      else
        match network.recv sockfd with
        | none | some [] => .error .runtimeError
        | some datagram =>
            let bytes := buf datagram
            .ok (bytes.getD (icmphdrPtr bytes) 0 == 0)

/-- The three system calls of a `ping` succeed and `datagram` is the answer. -/
def Replies (network : Network) (host : List Char) (datagram : List Byte) : Prop :=
  ∃ sockfd, network.socket = some sockfd ∧
    1 ≤ network.sendto sockfd hdr ⟨network.inetAddr host, 5050⟩ ∧
    network.recv sockfd = some datagram

/-- An IP header with or without options and an ICMP header fit in. -/
structure Complete (datagram : List Byte) : Prop where
  atMost : datagram.length ≤ bufSize
  words : 5 ≤ ihl datagram
  headers : 4 * ihl datagram + sizeofIcmphdr ≤ datagram.length

/-- The type of the ICMP message in a datagram. -/
def icmpType (datagram : List Byte) : Option Byte := datagram[4 * ihl datagram]?

def IsEchoReply (datagram : List Byte) : Prop := icmpType datagram = some 0

/-- The byte that `ping` looks at is the type of the message. -/
structure ReadsType (network : Network) (host : List Char) (datagram : List Byte) : Prop where
  offset : icmphdrPtr (buf datagram) = 4 * ihl datagram
  inside : icmphdrPtr (buf datagram) < datagram.length
  answer : ping network host = .ok true ↔ IsEchoReply datagram

theorem ihl_lt (bytes : List Byte) : ihl bytes < 16 := Nat.mod_lt _ (by decide)

theorem buf_getD (datagram : List Byte) (offset : Nat) (bound : offset < bufSize) :
    (buf datagram).getD offset 0 = datagram.getD offset 0 := by
  simp only [buf, List.getD_eq_getElem?_getD]
  by_cases received : offset < datagram.length
  · rw [List.getElem?_append_left (by simp; omega), List.getElem?_take_of_lt bound]
  · have behind : (datagram.take bufSize).length ≤ offset := by simp; omega
    rw [List.getElem?_append_right behind, List.getElem?_eq_none (Nat.not_lt.mp received)]
    simp only [List.getElem?_replicate]
    split <;> rfl

theorem buf_ihl (datagram : List Byte) : ihl (buf datagram) = ihl datagram := by
  have first := buf_getD datagram 0 (by decide)
  simp only [ihl, List.headD_eq_head?_getD, List.head?_eq_getElem?]
  simp only [List.getD_eq_getElem?_getD] at first
  rw [first]

theorem icmphdrPtr_lt (bytes : List Byte) : icmphdrPtr bytes < bufSize := by
  have bound := ihl_lt bytes
  simp only [icmphdrPtr, sizeofIcmphdr, bufSize]
  omega

/-- The offset is eight times what it should be, and what lies behind the reply
is zero. -/
theorem ping_tests {network : Network} {host : List Char} {datagram : List Byte}
    (replies : Replies network host datagram) (complete : Complete datagram) :
    ping network host = .ok (datagram.getD (32 * ihl datagram) 0 == 0) := by
  obtain ⟨sockfd, opened, sent, received⟩ := replies
  have pointed : icmphdrPtr (buf datagram) = 32 * ihl datagram := by
    simp only [icmphdrPtr, buf_ihl, sizeofIcmphdr]
    omega
  have tested := buf_getD datagram _ (icmphdrPtr_lt (buf datagram))
  have many := complete.headers
  cases datagram with
  | nil => simp [sizeofIcmphdr] at many
  | cons first rest =>
      simp only [ping, opened, received, if_neg (Int.not_lt.mpr sent)]
      rw [tested, pointed]

/-- No reply is read at its type. The answer is still right where the reply
ends before the byte that is read and is an echo reply, or has a zero there
exactly if it is one. -/
theorem reads_type_never (network : Network) (host : List Char) (datagram : List Byte)
    (replies : Replies network host datagram) (complete : Complete datagram) :
    ¬ ReadsType network host datagram ∧
      ((ping network host = .ok true ↔ IsEchoReply datagram) ↔
        if 32 * ihl datagram < datagram.length then
          (datagram[32 * ihl datagram]? = some 0 ↔ IsEchoReply datagram)
        else IsEchoReply datagram) := by
  constructor
  · intro reads
    have offset := reads.offset
    have words := complete.words
    simp only [icmphdrPtr, buf_ihl, sizeofIcmphdr] at offset
    omega
  · have tested := ping_tests replies complete
    rw [tested, List.getD_eq_getElem?_getD]
    split
    · rename_i within
      simp [List.getElem?_eq_getElem within]
    · rename_i behind
      simp [List.getElem?_eq_none (Nat.not_lt.mp behind)]

/-- A network that hands over `datagram` to whoever asks. -/
def answering (datagram : List Byte) : Network where
  inetAddr _ := 0
  socket := some 3
  sendto _ bytes _ := bytes.length
  recv _ := some datagram

/-- An IP header of five words and an ICMP header of the given type. -/
def reply (type : Byte) : List Byte := 0x45 :: List.replicate 19 0 ++ type :: List.replicate 7 0

theorem answering_replies (datagram : List Byte) (host : List Char) :
    Replies (answering datagram) host datagram :=
  ⟨3, rfl, by simp [answering, hdr, header], rfl⟩

theorem reply_complete (type : Byte) : Complete (reply type) where
  atMost := by simp [reply, bufSize]
  words := by simp [reply, ihl]
  headers := by simp [reply, ihl, sizeofIcmphdr]

theorem echo_reply_read_behind :
    ¬ ReadsType (answering (reply 0)) [] (reply 0) ∧
      ((ping (answering (reply 0)) [] = .ok true ↔ IsEchoReply (reply 0)) ↔
        if 32 * ihl (reply 0) < (reply 0).length then
          ((reply 0)[32 * ihl (reply 0)]? = some 0 ↔ IsEchoReply (reply 0))
        else IsEchoReply (reply 0)) :=
  reads_type_never (answering (reply 0)) [] (reply 0) (answering_replies _ _) (reply_complete 0)

/-- "Destination unreachable" passes for an echo reply. -/
theorem unreachable_passes :
    Replies (answering (reply 3)) [] (reply 3) ∧ Complete (reply 3) ∧
      icmphdrPtr (buf (reply 3)) = 160 ∧ (reply 3).length = 28 ∧
      ping (answering (reply 3)) [] = .ok true ∧ ¬ IsEchoReply (reply 3) := by
  have complete := reply_complete 3
  refine ⟨answering_replies _ _, complete, ?_, by simp [reply], ?_, ?_⟩
  · simp only [icmphdrPtr, buf_ihl]
    decide
  · rw [ping_tests (answering_replies _ _) complete]
    decide
  · simp only [IsEchoReply, icmpType]
    decide

end RProxy.Ping
