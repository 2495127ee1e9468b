import Mathlib

/-!
Types that the whole repository shares: descriptors, bytes, the exceptions the
code throws, and `reactor::InetAddr`.
-/

namespace RProxy

/-- A descriptor handed out by the kernel; these are never negative. -/
abbrev Fd := Nat

abbrev Byte := UInt8

/-- What a C++ call ends with when it does not return: an exception, a lock that
its own thread holds, or a dereference for which the language promises nothing. -/
inductive Fault where
  | outOfRange
  | runtimeError
  | logicError
  | lengthError
  | badAlloc
  | deadlock
  | undefined
  deriving DecidableEq, Repr

structure InetAddr where
  ip : List Char
  port : UInt16
  deriving DecidableEq, Repr

/-- `c_str()` ends at the first NUL. -/
def cStr (text : List Char) : List Char := text.takeWhile (· ≠ '\x00')

namespace InetAddr

def portText (addr : InetAddr) : List Char := Nat.toDigits 10 addr.port.toNat

/-- `[ip:port]` -/
def toString (addr : InetAddr) : List Char :=
  ['['] ++ cStr addr.ip ++ [':'] ++ cStr addr.portText ++ [']']

end InetAddr
end RProxy
