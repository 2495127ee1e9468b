import RProxy.FdTable
import RProxy.UnorderedMap

/-!
`reactor::LoopThreadGroup`: the interest sets of its epoll instances and the
round robin of `registerFd`.
-/

namespace RProxy

structure LoopThreadGroup (n : Nat) where
  dmpes : Fin n → UnorderedSet Fd
  iter : Fin n

namespace LoopThreadGroup

variable {n : Nat}

/-- `begin()` of a vector that `init` has asserted not to be empty. -/
def init (n : Nat) [NeZero n] : LoopThreadGroup n where
  dmpes _ := ∅
  iter := ⟨0, Nat.pos_of_ne_zero (NeZero.ne n)⟩

/-- `iter_++`, and back to `begin()` at the end. -/
def advance (iter : Fin n) : Fin n :=
  if inside : iter + 1 < n then ⟨iter + 1, inside⟩ else ⟨0, Nat.zero_lt_of_lt iter.isLt⟩

/-- `epoll_ctl(ADD)` fails on a descriptor that is watched already (EEXIST) and
on one that is not open (EBADF); nobody looks at its result. -/
def registerFd (group : LoopThreadGroup n) (fds : FdTable) (fd : Fd) : LoopThreadGroup n where
  dmpes :=
    if (fds.owner fd).isSome then
      Function.update group.dmpes group.iter ((group.dmpes group.iter).emplace fd ())
    else group.dmpes
  iter := advance group.iter

/-- The kernel drops a closed descriptor from every interest set. -/
def close (group : LoopThreadGroup n) (fd : Fd) : LoopThreadGroup n :=
  { group with dmpes := fun loop => AList.erase fd (group.dmpes loop) }

theorem advance_ne (iter : Fin n) (several : n ≠ 1) : advance iter ≠ iter := by
  intro same
  have value := congrArg Fin.val same
  simp only [advance] at value
  split at value
  · simp at value
  · have bound := iter.isLt
    simp at value
    omega

@[simp] theorem init_empty [NeZero n] (loop : Fin n) (fd : Fd) : fd ∉ (init n).dmpes loop :=
  AList.notMem_empty fd

theorem mem_register (group : LoopThreadGroup n) (fds : FdTable) (loop : Fin n) (fd other : Fd) :
    other ∈ (group.registerFd fds fd).dmpes loop ↔
      (loop = group.iter ∧ other = fd ∧ (fds.owner fd).isSome) ∨ other ∈ group.dmpes loop := by
  unfold registerFd
  by_cases opened : (fds.owner fd).isSome
  · by_cases here : loop = group.iter
    · subst here
      simp [opened, UnorderedMap.mem_emplace]
    · simp [opened, here]
  · simp [opened]

theorem mem_close (group : LoopThreadGroup n) (loop : Fin n) (fd other : Fd) :
    other ∈ (group.close fd).dmpes loop ↔ other ≠ fd ∧ other ∈ group.dmpes loop := by
  simp [close, AList.mem_erase]

end LoopThreadGroup
end RProxy
