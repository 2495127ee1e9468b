import RProxy.Basic

/-!
The kernel's table of open descriptors. Connections are numbered in the order
they are opened, so a number that is used again belongs to another connection,
and no two descriptors belong to one connection.
-/

namespace RProxy

structure FdTable where
  owner : Fd → Option Nat
  next : Nat
  numbered : ∀ fd conn, owner fd = some conn → conn < next
  distinct : ∀ first second conn, owner first = some conn → owner second = some conn →
    first = second

namespace FdTable

def empty : FdTable where
  owner _ := none
  next := 0
  numbered fd conn owned := by cases owned
  distinct first second conn owned := by cases owned

/-- `fd` is handed out for the next connection. -/
def allocate (table : FdTable) (fd : Fd) : FdTable where
  owner := Function.update table.owner fd (some table.next)
  next := table.next + 1
  numbered other conn owned := by
    rw [Function.update_apply] at owned
    split at owned
    · cases owned
      exact Nat.lt_succ_self _
    · exact Nat.lt_succ_of_lt (table.numbered other conn owned)
  distinct first second conn left right := by
    rw [Function.update_apply] at left right
    split at left
    · next atFirst =>
        split at right
        · next atSecond => rw [atFirst, atSecond]
        · cases left
          exact absurd (table.numbered second _ right) (Nat.lt_irrefl _)
    · split at right
      · cases right
        exact absurd (table.numbered first _ left) (Nat.lt_irrefl _)
      · exact table.distinct first second conn left right

def close (table : FdTable) (fd : Fd) : FdTable where
  owner := Function.update table.owner fd none
  next := table.next
  numbered other conn owned := by
    rw [Function.update_apply] at owned
    split at owned
    · cases owned
    · exact table.numbered other conn owned
  distinct first second conn left right := by
    rw [Function.update_apply] at left right
    split at left
    · cases left
    · split at right
      · cases right
      · exact table.distinct first second conn left right

def closeAll (table : FdTable) (fds : List Fd) : FdTable := fds.foldl close table

@[simp] theorem empty_owner (fd : Fd) : empty.owner fd = none := rfl

theorem allocate_owner (table : FdTable) (fd other : Fd) :
    (table.allocate fd).owner other = if other = fd then some table.next else table.owner other :=
  Function.update_apply _ _ _ _

theorem close_owner (table : FdTable) (fd other : Fd) :
    (table.close fd).owner other = if other = fd then none else table.owner other :=
  Function.update_apply _ _ _ _

@[simp] theorem allocate_next (table : FdTable) (fd : Fd) :
    (table.allocate fd).next = table.next + 1 := rfl

@[simp] theorem close_next (table : FdTable) (fd : Fd) : (table.close fd).next = table.next := rfl

theorem close_all_owner (table : FdTable) (fds : List Fd) (fd : Fd) :
    (table.closeAll fds).owner fd = if fd ∈ fds then none else table.owner fd := by
  induction fds generalizing table with
  | nil => simp [closeAll]
  | cons first rest ih =>
      have later := ih (table.close first)
      simp only [closeAll, List.foldl_cons] at later ⊢
      rw [later, close_owner]
      by_cases same : fd = first <;> simp [same]

@[simp] theorem close_all_next (table : FdTable) (fds : List Fd) :
    (table.closeAll fds).next = table.next := by
  induction fds generalizing table with
  | nil => rfl
  | cons first rest ih => exact ih (table.close first)

/-- A connection that was open and is not any more. -/
def Retired (table : FdTable) (conn : Nat) : Prop :=
  conn < table.next ∧ ∀ fd, table.owner fd ≠ some conn

theorem retired_allocate {table : FdTable} {conn : Nat} (retired : table.Retired conn) (fd : Fd) :
    (table.allocate fd).Retired conn := by
  constructor
  · exact Nat.lt_succ_of_lt retired.1
  · intro other owned
    rw [allocate_owner] at owned
    split at owned
    · cases owned
      exact absurd retired.1 (Nat.lt_irrefl _)
    · exact retired.2 other owned

theorem retired_close {table : FdTable} {conn : Nat} (retired : table.Retired conn) (fd : Fd) :
    (table.close fd).Retired conn := by
  constructor
  · exact retired.1
  · intro other owned
    rw [close_owner] at owned
    split at owned
    · cases owned
    · exact retired.2 other owned

theorem close_retires {table : FdTable} {fd : Fd} {conn : Nat} (owned : table.owner fd = some conn) :
    (table.close fd).Retired conn := by
  constructor
  · exact table.numbered fd conn owned
  · intro other found
    rw [close_owner] at found
    split at found
    · cases found
    · next different => exact different (table.distinct other fd conn found owned)

theorem retired_close_all {table : FdTable} {conn : Nat} (retired : table.Retired conn)
    (fds : List Fd) : (table.closeAll fds).Retired conn := by
  induction fds generalizing table with
  | nil => exact retired
  | cons fd rest ih => exact ih (retired_close retired fd)

theorem close_all_retires {table : FdTable} {fd : Fd} {conn : Nat} {fds : List Fd}
    (owned : table.owner fd = some conn) (member : fd ∈ fds) :
    (table.closeAll fds).Retired conn := by
  constructor
  · rw [close_all_next]
    exact table.numbered fd conn owned
  · intro other found
    rw [close_all_owner] at found
    split at found
    · cases found
    · next kept =>
        rw [table.distinct other fd conn found owned] at kept
        exact kept member

end FdTable
end RProxy
