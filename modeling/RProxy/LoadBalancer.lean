import RProxy.Basic
import RProxy.UnorderedMap

/-!
`proxy::LoadBalancer`: the backend tables, the health check and the round robin
over one batch. The results of the system calls of the health check are inputs,
one for each attempt of each backend.
-/

namespace RProxy

structure LoadBalancer where
  backend : UnorderedMap (List Char) InetAddr
  checked : UnorderedMap (List Char) UInt16
  text : List Byte
  sockes : List Fd
  sockQueue : List (List Fd)

namespace LoadBalancer

def addBackend (loader : LoadBalancer) (addr : InetAddr) (checkPort : UInt16) : LoadBalancer :=
  { loader with
    backend := loader.backend.emplace addr.toString addr
    checked := loader.checked.emplace addr.toString checkPort }

def removeBackend (loader : LoadBalancer) (addr : InetAddr) : LoadBalancer :=
  { loader with backend := loader.backend.erase addr.toString }

def updateForLoadbalance (loader : LoadBalancer) (sockes : List Fd) : LoadBalancer :=
  { loader with sockQueue := loader.sockQueue ++ [sockes] }

/-- The section of `loadbalance` under the lock, once the queue is not empty. -/
def popFront (loader : LoadBalancer) : Option (List Fd × LoadBalancer) :=
  match loader.sockQueue with
  | [] => none
  | batch :: rest => some (batch, { loader with sockes := batch, sockQueue := rest })

/-- The loop of `balancing`; the iterator is the rest of the table. The result
is `none` where the code reads `iter->second` at `backend_.end()`. -/
def balancingFrom (table : List (Sigma fun _ : List Char => InetAddr)) :
    List (Sigma fun _ : List Char => InetAddr) → List Fd → UnorderedMap Fd InetAddr →
      Option (UnorderedMap Fd InetAddr)
  | _, [], sockMap => some sockMap
  | [], _ :: _, _ => none
  | entry :: iter, sock :: sockes, sockMap =>
      balancingFrom table (if iter.isEmpty then table else iter) sockes
        (sockMap.emplace sock entry.2)

def balancing (loader : LoadBalancer) (sockes : List Fd) : Option (UnorderedMap Fd InetAddr) :=
  balancingFrom loader.backend.entries loader.backend.entries sockes ∅

/-- The outcome of each attempt at one backend, counted from 0. `connect` is
`none` where `connectTo` throws; `write` and `recv` are `none` for -1. -/
structure Attempts where
  connect : Nat → Option Fd
  write : Nat → Option Nat
  recv : Nat → Option (List Byte)
  buf : List Byte

/-- `do { .. } while (--time);` where `attempt` says whether it breaks. -/
def retry {Local : Type} (attempt : Nat → Local → Except Fault (Bool × Local)) :
    Nat → Nat → Local → Except Fault (Nat × Local)
  | 0, _, vars => .ok (0, vars)
  | time + 1, index, vars =>
      match attempt index vars with
      | .error fault => .error fault
      | .ok (true, vars) => .ok (time + 1, vars)
      | .ok (false, vars) => retry attempt time (index + 1) vars

/-- `sock > 0` ends the loop, so a connection on descriptor 0 is tried again. -/
def tryConnect (attempts : Attempts) (index : Nat) (_ : Fd) : Except Fault (Bool × Fd) :=
  match attempts.connect index with
  | none => .error .runtimeError
  | some sock => .ok (decide (0 < sock), sock)

def tryWrite (attempts : Attempts) (len : Nat) (index : Nat) (_ : Unit) :
    Except Fault (Bool × Unit) :=
  .ok (decide (attempts.write index = some len), ())

/-- `text_ == buf` reads `buf` up to the first NUL, past `len` if need be; what
`recv` does not overwrite keeps its old content. -/
def tryRecv (attempts : Attempts) (text : List Byte) (index : Nat) (buf : List Byte) :
    Except Fault (Bool × List Byte) :=
  let received := ((attempts.recv index).getD []).take text.length
  let buf := received ++ buf.drop received.length
  .ok (decide (text = buf.takeWhile (· ≠ 0)), buf)

def eraseBackend (loader : LoadBalancer) (key : List Char) : LoadBalancer :=
  { loader with backend := loader.backend.erase key }

/-- The loop body of `checkAllBackend` for one entry of `checked_`. -/
def checkBackend (network : List Char → InetAddr → Attempts) (loader : LoadBalancer)
    (key : List Char) (port : UInt16) : Except Fault LoadBalancer :=
  match loader.backend.lookup key with
  | none => .error .outOfRange
  | some stored =>
      let attempts := network key ⟨stored.ip, port⟩
      match retry (tryConnect attempts) 3 0 0 with
      | .error fault => .error fault
      | .ok (_, sock) =>
          -- `connectTo` throws instead of returning a negative descriptor
          if (sock : Int) < 0 then .ok (loader.eraseBackend key)
          else
            match retry (tryWrite attempts loader.text.length) 3 0 () with
            | .error fault => .error fault
            | .ok (time, _) =>
                -- `time < 0`, where the loop ends at 0
                if (time : Int) < 0 then .ok (loader.eraseBackend key)
                else
                  match retry (tryRecv attempts loader.text) 3 0 attempts.buf with
                  | .error fault => .error fault
                  | .ok (time, _) =>
                      if (time : Int) < 0 then .ok (loader.eraseBackend key)
                      else .ok loader

def checkEntries (network : List Char → InetAddr → Attempts) :
    List (Sigma fun _ : List Char => UInt16) → LoadBalancer → Except Fault LoadBalancer
  | [], loader => .ok loader
  | entry :: rest, loader =>
      match checkBackend network loader entry.1 entry.2 with
      | .error fault => .error fault
      | .ok loader => checkEntries network rest loader

def checkAllBackend (loader : LoadBalancer) (network : List Char → InetAddr → Attempts) :
    Except Fault LoadBalancer :=
  checkEntries network loader.checked.entries loader

theorem balancing_from_keys {table iter : List (Sigma fun _ : List Char => InetAddr)}
    (nonempty : table ≠ []) (valid : iter ≠ []) (sockes : List Fd)
    (sockMap : UnorderedMap Fd InetAddr) :
    ∃ result, balancingFrom table iter sockes sockMap = some result ∧
      ∀ fd, fd ∈ result ↔ fd ∈ sockes ∨ fd ∈ sockMap := by
  induction sockes generalizing iter sockMap with
  | nil => exact ⟨sockMap, by simp [balancingFrom], by simp⟩
  | cons sock rest ih =>
      cases iter with
      | nil => exact absurd rfl valid
      | cons entry iter =>
          have next : (if iter.isEmpty then table else iter) ≠ [] := by
            cases iter with
            | nil => exact nonempty
            | cons _ _ => simp
          obtain ⟨result, assigned, keys⟩ := ih next (sockMap.emplace sock entry.2)
          refine ⟨result, assigned, fun fd => ?_⟩
          rw [keys, UnorderedMap.mem_emplace, List.mem_cons, or_left_comm, or_assoc]

/-- With a backend in the table, a batch assigns exactly its own sockets. -/
theorem balancing_keys (loader : LoadBalancer) (nonempty : loader.backend.entries ≠ [])
    (sockes : List Fd) :
    ∃ result, loader.balancing sockes = some result ∧ ∀ fd, fd ∈ result ↔ fd ∈ sockes := by
  obtain ⟨result, assigned, keys⟩ := balancing_from_keys nonempty nonempty sockes ∅
  exact ⟨result, assigned, fun fd => by simpa using keys fd⟩

theorem balancing_from_table {table iter : List (Sigma fun _ : List Char => InetAddr)}
    (inside : iter ⊆ table) {sockes : List Fd} {sockMap result : UnorderedMap Fd InetAddr}
    (known : ∀ fd addr, sockMap.lookup fd = some addr → ∃ entry ∈ table, entry.2 = addr)
    (assigned : balancingFrom table iter sockes sockMap = some result) :
    ∀ fd addr, result.lookup fd = some addr → ∃ entry ∈ table, entry.2 = addr := by
  induction sockes generalizing iter sockMap with
  | nil =>
      rw [balancingFrom, Option.some.injEq] at assigned
      rwa [← assigned]
  | cons sock rest ih =>
      cases iter with
      | nil => cases assigned
      | cons entry iter =>
          have next : (if iter.isEmpty then table else iter) ⊆ table := by
            split
            · exact List.Subset.refl table
            · exact List.subset_of_cons_subset inside
          apply ih next _ assigned
          intro fd addr found
          rw [UnorderedMap.lookup_emplace] at found
          split at found
          · cases stored : sockMap.lookup sock with
            | none =>
                rw [stored, Option.getD_none, Option.some.injEq] at found
                exact ⟨entry, inside List.mem_cons_self, found⟩
            | some earlier =>
                rw [stored, Option.getD_some] at found
                exact known sock addr (stored.trans found)
          · exact known fd addr found

/-- What a batch assigns is in `backend_`. -/
theorem balancing_registered {loader : LoadBalancer} {sockes : List Fd}
    {result : UnorderedMap Fd InetAddr} (assigned : loader.balancing sockes = some result)
    {fd : Fd} {addr : InetAddr} (found : result.lookup fd = some addr) :
    ∃ key, loader.backend.lookup key = some addr := by
  have empty : ∀ fd addr, (∅ : UnorderedMap Fd InetAddr).lookup fd = some addr →
      ∃ entry ∈ loader.backend.entries, entry.2 = addr := by
    intro fd addr none
    cases none
  obtain ⟨entry, listed, same⟩ :=
    balancing_from_table (List.Subset.refl _) empty assigned fd addr found
  exact ⟨entry.1, AList.mem_lookup_iff.mpr (same ▸ listed)⟩

end LoadBalancer
end RProxy
