import RProxy.Basic
import RProxy.UnorderedMap

/-!
`pubsub::PubSubCenter`: who is told about what, and the traffic counters. A
null publisher or subscriber pointer is `none`.
-/

namespace RProxy

inductive PubType where
  | accepted | dmpRegister | dmpModify | dmpDelete | dmpWait | forward | balance
  deriving DecidableEq

structure PubSubCenter (Publisher Subscriber : Type) where
  publishers : UnorderedMap UInt16 Publisher
  subcribers : UnorderedMap UInt16 (UnorderedMap PubType (UnorderedSet Subscriber))
  traffic : UnorderedMap (List Char) UInt64

namespace PubSubCenter

variable {Publisher Subscriber : Type} [DecidableEq Subscriber]
variable (center : PubSubCenter Publisher Subscriber)

/-- `subcribers_[pubID][type]`; a missing entry reads as an empty set. -/
def slot (pubID : UInt16) (type : PubType) : UnorderedSet Subscriber :=
  (((center.subcribers.lookup pubID).getD ∅).lookup type).getD ∅

/-- What `operator[]` stores when a set under it is assigned. -/
def setSlot (pubID : UInt16) (type : PubType) (set : UnorderedSet Subscriber) :
    PubSubCenter Publisher Subscriber :=
  { center with
    subcribers := center.subcribers.insert pubID
      (((center.subcribers.lookup pubID).getD ∅).insert type set) }

def registerPub (id : UInt16) (pub : Option Publisher) :
    Except Fault (PubSubCenter Publisher Subscriber) :=
  match pub with
  | none => .error .runtimeError
  | some pub => .ok { center with publishers := center.publishers.emplace id pub }

def unRegisterPub (id : UInt16) : PubSubCenter Publisher Subscriber :=
  if id ∈ center.publishers then
    { center with publishers := center.publishers.erase id, subcribers := center.subcribers.erase id }
  else center

def subscribe (pubID : UInt16) (type : PubType) (sub : Option Subscriber) :
    Except Fault (PubSubCenter Publisher Subscriber) :=
  match sub with
  | none => .error .logicError
  | some sub =>
      if pubID ∈ center.publishers then
        .ok (center.setSlot pubID type ((center.slot pubID type).emplace sub ()))
      else .ok center

def unSubscribe (pubID : UInt16) (type : PubType) (sub : Option Subscriber) :
    Except Fault (PubSubCenter Publisher Subscriber) :=
  match sub with
  | none => .error .logicError
  | some sub =>
      if pubID ∈ center.publishers then
        .ok (center.setSlot pubID type ((center.slot pubID type).erase sub))
      else .ok center

/-- The subscribers whose `update` is called, in the order of the set. -/
def notifySubscriber (pubID : UInt16) (type : PubType) :
    List Subscriber × PubSubCenter Publisher Subscriber :=
  if pubID ∈ center.publishers then
    ((center.slot pubID type).keys, center.setSlot pubID type (center.slot pubID type))
  else ([], center)

/-- `LONG_LONG_MAX`, compared as an unsigned number. -/
def maxTraffic : UInt64 := 2 ^ 63 - 1

/-- A first amount is stored and then added once more. -/
def account (addr : List Char) (traffic : UInt64) : PubSubCenter Publisher Subscriber :=
  { center with
    traffic := (center.traffic.emplace addr traffic).modify addr (· + traffic) }

def trafficOf (addr : List Char) : UInt64 := (center.traffic.lookup addr).getD (-1)

def isLismited (addr : List Char) : Bool := decide (maxTraffic < center.trafficOf addr)

omit [DecidableEq Subscriber] in
theorem slot_set_slot (pubID other : UInt16) (type otherType : PubType)
    (set : UnorderedSet Subscriber) :
    (center.setSlot pubID type set).slot other otherType =
      if other = pubID ∧ otherType = type then set else center.slot other otherType := by
  unfold slot setSlot
  simp only [UnorderedMap.lookup_insert_if]
  by_cases samePub : other = pubID
  · subst samePub
    by_cases sameType : otherType = type <;>
      simp [UnorderedMap.lookup_insert_if, sameType]
  · simp [samePub]

omit [DecidableEq Subscriber] in
/-- A publisher that goes takes its own entries with it, and no others. -/
theorem un_register_other {pubID other : UInt16} (different : other ≠ pubID) :
    (center.unRegisterPub pubID).publishers.lookup other = center.publishers.lookup other ∧
      ∀ type, (center.unRegisterPub pubID).slot other type = center.slot other type := by
  simp only [unRegisterPub, slot]
  split
  · simp [different]
  · exact ⟨rfl, fun type => rfl⟩

omit [DecidableEq Subscriber] in
/-- Telling subscribers about an event changes nobody's subscriptions. -/
theorem notify_keeps (pubID other : UInt16) (type otherType : PubType) :
    ((center.notifySubscriber pubID type).2.notifySubscriber other otherType).1 =
      (center.notifySubscriber other otherType).1 := by
  by_cases registered : pubID ∈ center.publishers
  · have same : (center.setSlot pubID type (center.slot pubID type)).slot other otherType =
        center.slot other otherType := by
      rw [slot_set_slot]
      split
      · next hit => rw [hit.1, hit.2]
      · rfl
    simp only [notifySubscriber, registered, ↓reduceIte, same]
    by_cases listed : other ∈ center.publishers <;> simp [setSlot, listed]
  · simp [notifySubscriber, registered]

omit [DecidableEq Subscriber] in
theorem notify_account (addr : List Char) (traffic : UInt64) (pubID : UInt16) (type : PubType) :
    ((center.account addr traffic).notifySubscriber pubID type).1 =
      (center.notifySubscriber pubID type).1 := by
  by_cases registered : pubID ∈ center.publishers <;>
    simp [notifySubscriber, account, slot, registered]

omit [DecidableEq Subscriber] in
theorem lookup_account (addr other : List Char) (traffic : UInt64) :
    (center.account addr traffic).traffic.lookup other =
      if other = addr then some ((center.traffic.lookup addr).getD traffic + traffic)
      else center.traffic.lookup other := by
  simp only [account, UnorderedMap.lookup_modify, UnorderedMap.lookup_emplace]
  by_cases same : other = addr <;> simp [same]

omit [DecidableEq Subscriber] in
theorem mem_account (addr other : List Char) (traffic : UInt64) :
    other ∈ (center.account addr traffic).traffic ↔ other = addr ∨ other ∈ center.traffic := by
  rw [← AList.lookup_isSome, lookup_account, ← AList.lookup_isSome]
  by_cases same : other = addr <;> simp [same]

omit [DecidableEq Subscriber] in
theorem limited_account_other {addr other : List Char} (different : other ≠ addr)
    (traffic : UInt64) :
    (center.account addr traffic).isLismited other = center.isLismited other := by
  have same : (center.account addr traffic).trafficOf other = center.trafficOf other := by
    rw [trafficOf, lookup_account, if_neg different, trafficOf]
  rw [isLismited, isLismited, same]

omit [DecidableEq Subscriber] in
/-- A connection that is accepted leaves the traffic of its address as it was. -/
theorem limited_account_zero {other : List Char} (known : other ∈ center.traffic)
    (addr : List Char) :
    (center.account addr 0).isLismited other = center.isLismited other := by
  by_cases same : other = addr
  · subst same
    obtain ⟨traffic, found⟩ := UnorderedMap.lookup_of_mem known
    have unchanged : (center.account other 0).trafficOf other = center.trafficOf other := by
      simp [trafficOf, lookup_account, found]
    rw [isLismited, isLismited, unchanged]
  · exact limited_account_other center same 0

end PubSubCenter
end RProxy
