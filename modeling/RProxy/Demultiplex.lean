import RProxy.Basic

/-!
The event bits of `reactor::Demultiplex` and the contexts of `nw_ctx.hpp` that
it exchanges with `TcpServer`. `Context` keeps the dynamic type of a
`shared_ptr<Context>`, which the casts test.
-/

namespace RProxy

abbrev Mask := BitVec 32

namespace Demultiplex

def epollIn : Mask := 0x001#32
def epollOut : Mask := 0x004#32
def epollErr : Mask := 0x008#32
def epollHup : Mask := 0x010#32
def epollRdHup : Mask := 0x2000#32
def epollEt : Mask := 0x80000000#32

def readable : Mask := epollIn
def writable : Mask := epollOut
def closable : Mask := epollErr ||| epollHup ||| epollRdHup
def defaultEvents : Mask := readable ||| closable ||| epollEt

/-- `events & bits` in a condition. -/
def has (events bits : Mask) : Bool := events &&& bits != 0#32

@[simp] theorem writable_has_writable : has writable writable = true := by decide

@[simp] theorem writable_not_readable : has writable readable = false := by decide

@[simp] theorem default_has_readable : has defaultEvents readable = true := by decide

@[simp] theorem default_has_rd_hup : has defaultEvents epollRdHup = true := by decide

@[simp] theorem default_not_writable : has defaultEvents writable = false := by decide

end Demultiplex

structure DmpRegisterContext where
  fd : Fd
  events : Mask
  deriving DecidableEq

structure DmpModifyContext where
  fd : Fd
  events : Mask
  deriving DecidableEq

/-- One entry of `DmpWaitContext::resp_events_`. -/
structure Resp where
  fd : Fd
  events : Mask
  deriving DecidableEq

namespace Resp

def isReadable (resp : Resp) : Bool := Demultiplex.has resp.events Demultiplex.readable
def isWritable (resp : Resp) : Bool := Demultiplex.has resp.events Demultiplex.writable
def isClosable (resp : Resp) : Bool := Demultiplex.has resp.events Demultiplex.closable

end Resp

inductive Context where
  | dmpRegister (ctx : DmpRegisterContext)
  | dmpModify (ctx : DmpModifyContext)
  deriving DecidableEq

namespace Context

/-- `dynamic_pointer_cast<DmpRegisterContext>`, null for another type. -/
def toRegister : Context → Option DmpRegisterContext
  | .dmpRegister ctx => some ctx
  | .dmpModify _ => none

def toModify : Context → Option DmpModifyContext
  | .dmpRegister _ => none
  | .dmpModify ctx => some ctx

end Context
end RProxy
