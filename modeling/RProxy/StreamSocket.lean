import RProxy.AddressKeys
import RProxy.Attach
import RProxy.Numeral

/-!
`StreamSocket` between texts and `sockaddr_in`: what `connectTo` and `bindAddr`
make of an address, and whether `getPeerAddr` is undone by it.
-/

namespace RProxy.StreamSocket

open Attach Numeral

/-- `inet_aton` from one part on; `left` parts may still follow, and `sofar` are
the parts before. The last part fills what is left of the address. -/
def atonFrom : Nat → Nat → List Char → Option Nat
  | left, sofar, text =>
      if text.head?.any Char.isDigit = false then none
      else
        let (part, rest) := strtoul text
        if 2 ^ 32 ≤ part then none
        else
          match rest with
          | '.' :: rest =>
              match left with
              | 0 => none
              | left + 1 => if 2 ^ 8 ≤ part then none else atonFrom left (256 * sofar + part) rest
          | rest =>
              if rest.head?.all isSpace = true ∧ part < 256 ^ (left + 1) then
                some (256 ^ (left + 1) * sofar + part)
              else none

/-- The address as a number, the first part on top. -/
def inetAton (text : List Char) : Option Nat := atonFrom 3 0 text

/-- INADDR_NONE where the text is no address. -/
def inetAddr (text : List Char) : Nat := (inetAton text).getD (2 ^ 32 - 1)

def octets (address : Nat) : UInt8 × UInt8 × UInt8 × UInt8 :=
  (UInt8.ofNat (address / 2 ^ 24), UInt8.ofNat (address / 2 ^ 16), UInt8.ofNat (address / 2 ^ 8),
    UInt8.ofNat address)

/-- The argument of `htons` is converted to 16 bits. -/
def htons (port : Int) : UInt16 := UInt16.ofInt port

/-- `serverAddr` in `connectTo` -/
def serverAddr (addr : InetAddr) : Option Peer :=
  (atoi (cStr addr.portText)).map fun port => ⟨octets (inetAddr (cStr addr.ip)), htons port⟩

/-- `addr` in `bindAddr`, which nobody sets where `inet_aton` fails. -/
def bindAddr (ip port : List Char) : Option Peer :=
  (atoi (cStr port)).map fun port => ⟨octets ((inetAton (cStr ip)).getD 0), htons port⟩

def number : UInt8 × UInt8 × UInt8 × UInt8 → Nat
  | (a, b, c, d) => 2 ^ 24 * a.toNat + 2 ^ 16 * b.toNat + 2 ^ 8 * c.toNat + d.toNat

theorem octets_number (address : UInt8 × UInt8 × UInt8 × UInt8) :
    octets (number address) = address := by
  obtain ⟨a, b, c, d⟩ := address
  have boundA := a.toNat_lt
  have boundB := b.toNat_lt
  have boundC := c.toNat_lt
  have boundD := d.toNat_lt
  simp only [octets, number, Prod.mk.injEq, ← UInt8.toNat_inj, UInt8.toNat_ofNat']
  refine ⟨?_, ?_, ?_, ?_⟩ <;> omega

theorem head_decimal (octet : UInt8) (rest : List Char) :
    (decimal octet ++ rest).head?.any Char.isDigit = true := by
  cases split : decimal octet with
  | nil => exact absurd split Nat.toDigits_ne_nil
  | cons first tail =>
      have digit : first.isDigit = true := by
        apply isDigit_of_mem first
        show first ∈ decimal octet
        simp [split]
      simpa using digit

theorem aton_dot (left sofar : Nat) (octet : UInt8) (rest : List Char) :
    atonFrom (left + 1) sofar (decimal octet ++ '.' :: rest) =
      atonFrom left (256 * sofar + octet.toNat) rest := by
  have bound := octet.toNat_lt
  have ends : Ends ('.' :: rest) := by simp [Ends]
  have part : strtoul (decimal octet ++ '.' :: rest) = (octet.toNat, '.' :: rest) :=
    strtoul_toDigits octet.toNat ends
  rw [atonFrom, head_decimal, part]
  simp only [Bool.true_eq_false, ↓reduceIte]
  rw [if_neg (by omega), if_neg (by omega)]

theorem aton_last (sofar : Nat) (octet : UInt8) :
    atonFrom 0 sofar (decimal octet) = some (256 * sofar + octet.toNat) := by
  have bound := octet.toNat_lt
  have part : strtoul (decimal octet ++ []) = (octet.toNat, []) :=
    strtoul_toDigits octet.toNat (by simp [Ends])
  have digit := head_decimal octet []
  rw [List.append_nil] at part digit
  rw [atonFrom, digit, part]
  simp only [Bool.true_eq_false, ↓reduceIte]
  rw [if_neg (by omega), if_pos ⟨rfl, by omega⟩]
  rfl

theorem aton_ntoa (address : UInt8 × UInt8 × UInt8 × UInt8) :
    inetAton (inetNtoa address) = some (number address) := by
  obtain ⟨a, b, c, d⟩ := address
  simp only [inetAton, inetNtoa, List.append_assoc, List.cons_append, List.nil_append]
  rw [aton_dot, aton_dot, aton_dot, aton_last]
  simp only [number, Option.some.injEq]
  omega

theorem htons_natCast (port : Nat) : htons port = UInt16.ofNat port := by
  apply UInt16.toNat_inj.mp
  rw [htons, UInt16.ofInt, UInt16.toNat_ofNat', UInt16.toNat_ofNat']
  omega

/-- Digits and points, which `c_str()` does not cut. -/
theorem cStr_ntoa (address : UInt8 × UInt8 × UInt8 × UInt8) :
    cStr (inetNtoa address) = inetNtoa address := by
  apply InetAddr.cStr_eq
  obtain ⟨a, b, c, d⟩ := address
  have unwritten : ∀ octet, '\x00' ∉ decimal octet := fun octet member =>
    absurd (isDigit_of_mem _ member) (by decide)
  simp [inetNtoa, unwritten]

theorem port_text (addr : InetAddr) :
    cStr addr.portText = addr.portText ∧ atoi addr.portText = some (addr.port.toNat : Int) := by
  have bound := addr.port.toNat_lt
  have fits : value 10 addr.portText < 2 ^ 31 := by
    rw [InetAddr.portText, value_toDigits]
    omega
  refine ⟨InetAddr.cStr_eq (addr.not_mem_portText rfl), ?_⟩
  have digits : ∀ digit ∈ addr.portText, digit.isDigit = true := isDigit_of_mem
  rw [atoi_digits digits fits, InetAddr.portText, value_toDigits]

/-- `connectTo` goes to the address that `inet_addr` reads in the IP text, and to
the port of the address. -/
theorem server_addr_eq (addr : InetAddr) :
    serverAddr addr = some ⟨octets (inetAddr (cStr addr.ip)), addr.port⟩ := by
  obtain ⟨uncut, number⟩ := port_text addr
  rw [serverAddr, uncut, number, Option.map_some, htons_natCast, UInt16.ofNat_toNat]

theorem server_addr_peer (peer : Peer) : serverAddr (getPeerAddr peer) = some peer := by
  rw [server_addr_eq, getPeerAddr, cStr_ntoa, inetAddr, aton_ntoa, Option.getD_some,
    octets_number]

/-- `connectTo` undoes `getPeerAddr` for every peer, so the text under which the
traffic of a peer is counted is the text of no other peer; and `getPeerAddr`
gives an address back exactly where `getPeerAddr` had made it. -/
theorem peer_round_trip (peer other : Peer) (addr : InetAddr) :
    serverAddr (getPeerAddr peer) = some peer ∧
      ((getPeerAddr peer).toString = (getPeerAddr other).toString ↔ peer = other) ∧
      ((serverAddr addr).map getPeerAddr = some addr ↔ ∃ peer, addr = getPeerAddr peer) := by
  refine ⟨server_addr_peer peer, ?_, ?_⟩
  · constructor
    · intro same
      have plain : ∀ peer, (getPeerAddr peer).Plain := by
        intro peer member
        rw [getPeerAddr, ← cStr_ntoa peer.octets] at member
        have symbol := List.mem_takeWhile_imp member
        simp at symbol
      have equal := InetAddr.toString_injective (plain peer) (plain other) same
      have reached := congrArg serverAddr equal
      rw [server_addr_peer, server_addr_peer] at reached
      exact Option.some.inj reached
    · intro same
      rw [same]
  · constructor
    · intro same
      obtain ⟨reached, _, rfl⟩ := Option.map_eq_some_iff.mp same
      exact ⟨reached, rfl⟩
    · rintro ⟨reached, rfl⟩
      rw [server_addr_peer, Option.map_some]

/-- An octal part: the text is another, the backend is the same. -/
example : serverAddr ⟨"010.0.0.1".toList, 80⟩ = serverAddr ⟨"8.0.0.1".toList, 80⟩ := by
  decide +kernel

/-- A port of digits is bound modulo 2^16, so it is the one that was meant exactly
below that. Any text that is no address binds to every interface. -/
theorem bind_addr_iff (ip : List Char) {port : List Char}
    (decimal : ∀ digit ∈ port, digit.isDigit = true) (fits : value 10 port < 2 ^ 31) :
    ∃ bound, bindAddr ip port = some bound ∧
      bound.port.toNat = value 10 port % 2 ^ 16 ∧
      (bound.port.toNat = value 10 port ↔ value 10 port < 2 ^ 16) ∧
      (∀ address, ip = inetNtoa address → bound.octets = address) ∧
      (inetAton (cStr ip) = none → bound.octets = (0, 0, 0, 0)) := by
  have uncut : cStr port = port := by
    apply InetAddr.cStr_eq
    intro member
    exact absurd (decimal _ member) (by decide)
  refine ⟨⟨octets ((inetAton (cStr ip)).getD 0), UInt16.ofNat (value 10 port)⟩, ?_, ?_, ?_, ?_, ?_⟩
  · rw [bindAddr, uncut, atoi_digits decimal fits, Option.map_some, htons_natCast]
  · exact UInt16.toNat_ofNat'
  · rw [UInt16.toNat_ofNat']
    omega
  · rintro address rfl
    simp only [cStr_ntoa, aton_ntoa, Option.getD_some, octets_number]
  · intro unread
    simp only [unread, Option.getD_none]
    decide

/-- A name, and a port that is too high. -/
theorem high_port_bound : ∃ bound,
    bindAddr ['h', 'o', 's', 't'] ['7', '0', '0', '0', '0'] = some bound ∧
    bound.port.toNat = value 10 ['7', '0', '0', '0', '0'] % 2 ^ 16 ∧
    (bound.port.toNat = value 10 ['7', '0', '0', '0', '0'] ↔
      value 10 ['7', '0', '0', '0', '0'] < 2 ^ 16) ∧
    (∀ address, ['h', 'o', 's', 't'] = inetNtoa address → bound.octets = address) ∧
    (inetAton (cStr ['h', 'o', 's', 't']) = none → bound.octets = (0, 0, 0, 0)) := by
  apply bind_addr_iff
  · exact List.all_eq_true.mp (by decide)
  · rw [show value 10 ['7', '0', '0', '0', '0'] = 70000 from rfl]
    norm_num

end RProxy.StreamSocket
