import RProxy.PubSub

/-!
Who `notifySubscriber` tells after a whole history of calls. The tables of
`PubSubCenter` are compared with a reading of the history alone: the latest call
about a subscription in the current registration period of the publisher.
-/

namespace RProxy.Delivery

open PubSubCenter

/-- A call on the center; a null pointer is `none`. -/
inductive Call (Publisher Subscriber : Type) where
  | registerPub (id : UInt16) (pub : Option Publisher)
  | unRegisterPub (id : UInt16)
  | subscribe (pubID : UInt16) (type : PubType) (sub : Option Subscriber)
  | unSubscribe (pubID : UInt16) (type : PubType) (sub : Option Subscriber)
  | notifySubscriber (pubID : UInt16) (type : PubType)

variable {Publisher Subscriber : Type}

/-- A history has its latest call first. -/
abbrev History (Publisher Subscriber : Type) := List (Call Publisher Subscriber)

/-- Whether a registration period of the publisher is open. -/
def registered (id : UInt16) : History Publisher Subscriber → Bool
  | [] => false
  | .registerPub other (some _) :: earlier => decide (other = id) || registered id earlier
  | .unRegisterPub other :: earlier => !decide (other = id) && registered id earlier
  | _ :: earlier => registered id earlier

variable [DecidableEq Subscriber]

/-- Whether the latest call about a subscription, made in the current
registration period, is a `subscribe`. -/
def subscribed (id : UInt16) (type : PubType) (sub : Subscriber) :
    History Publisher Subscriber → Bool
  | [] => false
  | .registerPub other (some _) :: earlier =>
      -- a period starts where none is open
      if other = id ∧ registered id earlier = false then false else subscribed id type sub earlier
  | .unRegisterPub other :: earlier =>
      if other = id then false else subscribed id type sub earlier
  | .subscribe other otherType (some otherSub) :: earlier =>
      if other = id ∧ otherType = type ∧ otherSub = sub ∧ registered id earlier = true then true
      else subscribed id type sub earlier
  | .unSubscribe other otherType (some otherSub) :: earlier =>
      if other = id ∧ otherType = type ∧ otherSub = sub ∧ registered id earlier = true then false
      else subscribed id type sub earlier
  | _ :: earlier => subscribed id type sub earlier

/-- The subscribers that a notification is due to. -/
def due (id : UInt16) (type : PubType) (sub : Subscriber)
    (history : History Publisher Subscriber) : Bool :=
  registered id history && subscribed id type sub history

/-- A call that throws has not changed anything. -/
def kept (center : PubSubCenter Publisher Subscriber) :
    Except Fault (PubSubCenter Publisher Subscriber) → PubSubCenter Publisher Subscriber
  | .ok next => next
  | .error _ => center

def perform (center : PubSubCenter Publisher Subscriber) :
    Call Publisher Subscriber → PubSubCenter Publisher Subscriber
  | .registerPub id pub => kept center (center.registerPub id pub)
  | .unRegisterPub id => center.unRegisterPub id
  | .subscribe pubID type sub => kept center (center.subscribe pubID type sub)
  | .unSubscribe pubID type sub => kept center (center.unSubscribe pubID type sub)
  | .notifySubscriber pubID type => (center.notifySubscriber pubID type).2

theorem kept_subscribe (center : PubSubCenter Publisher Subscriber) (id : UInt16)
    (type : PubType) (sub : Subscriber) :
    kept center (center.subscribe id type (some sub)) =
      if id ∈ center.publishers then
        center.setSlot id type ((center.slot id type).emplace sub ())
      else center := by
  simp only [subscribe]
  split <;> rfl

theorem kept_un_subscribe (center : PubSubCenter Publisher Subscriber) (id : UInt16)
    (type : PubType) (sub : Subscriber) :
    kept center (center.unSubscribe id type (some sub)) =
      if id ∈ center.publishers then
        center.setSlot id type ((center.slot id type).erase sub)
      else center := by
  simp only [unSubscribe]
  split <;> rfl

/-- The center after a history that starts with an empty one. -/
def after : History Publisher Subscriber → PubSubCenter Publisher Subscriber
  | [] => ⟨∅, ∅, ∅⟩
  | call :: earlier => perform (after earlier) call

/-- The subscribers whose `update` a notification calls after the history. -/
def told (id : UInt16) (type : PubType) (history : History Publisher Subscriber) :
    List Subscriber :=
  ((after history).notifySubscriber id type).1

/-- The call is about the publisher itself, or about a subscription to `type`. -/
def Call.concerns (id : UInt16) (type : PubType) : Call Publisher Subscriber → Prop
  | .registerPub other _ => other = id
  | .unRegisterPub other => other = id
  | .subscribe other otherType _ => other = id ∧ otherType = type
  | .unSubscribe other otherType _ => other = id ∧ otherType = type
  | .notifySubscriber _ _ => False

/-- What the tables say of the history: open periods, subscriptions, and that no
entry outlives the registration of its publisher. -/
structure Recorded (history : History Publisher Subscriber)
    (center : PubSubCenter Publisher Subscriber) : Prop where
  publishers : ∀ id, id ∈ center.publishers ↔ registered id history = true
  subcribers : ∀ id type sub, sub ∈ center.slot id type ↔ subscribed id type sub history = true
  closed : ∀ id type, id ∉ center.publishers → center.slot id type = ∅

theorem empty_recorded : Recorded [] (⟨∅, ∅, ∅⟩ : PubSubCenter Publisher Subscriber) := by
  constructor
  · simp [registered]
  · simp [slot, subscribed]
  · simp [slot]

section Calls

variable {history : History Publisher Subscriber} {center : PubSubCenter Publisher Subscriber}

theorem register_recorded (recorded : Recorded history center) (id : UInt16) (pub : Publisher) :
    Recorded (.registerPub id (some pub) :: history)
      { center with publishers := center.publishers.emplace id pub } := by
  constructor
  · intro other
    rw [UnorderedMap.mem_emplace, registered, Bool.or_eq_true, decide_eq_true_eq,
      recorded.publishers, eq_comm]
  · intro other type sub
    have same := recorded.subcribers other type sub
    rw [subscribed]
    by_cases opens : id = other ∧ registered other history = false
    · -- nothing has been left behind by an earlier period
      have absent : other ∉ center.publishers := by
        rw [recorded.publishers, opens.2]
        exact Bool.false_ne_true
      rw [if_pos opens]
      have none : center.slot other type = ∅ := recorded.closed other type absent
      simp only [slot] at none ⊢
      simp [none]
    · rw [if_neg opens]
      exact same
  · intro other type absent
    apply recorded.closed
    intro present
    exact absent ((UnorderedMap.mem_emplace _ _ _ _).mpr (Or.inr present))

theorem un_register_slot (recorded : Recorded history center) (id other : UInt16)
    (type : PubType) :
    (center.unRegisterPub id).slot other type = if other = id then ∅ else center.slot other type := by
  by_cases same : other = id
  · subst same
    rw [if_pos rfl, unRegisterPub]
    split
    · simp [slot]
    · next absent => exact recorded.closed other type absent
  · rw [if_neg same]
    exact (center.un_register_other same).2 type

omit [DecidableEq Subscriber] in
theorem un_register_mem (id other : UInt16) :
    other ∈ (center.unRegisterPub id).publishers ↔ other ≠ id ∧ other ∈ center.publishers := by
  by_cases present : id ∈ center.publishers
  · rw [unRegisterPub, if_pos present]
    exact AList.mem_erase
  · rw [unRegisterPub, if_neg present]
    constructor
    · intro there
      exact ⟨fun same => present (same ▸ there), there⟩
    · exact And.right

theorem un_register_recorded (recorded : Recorded history center) (id : UInt16) :
    Recorded (.unRegisterPub id :: history) (center.unRegisterPub id) := by
  constructor
  · intro other
    rw [un_register_mem, registered, recorded.publishers, Bool.and_eq_true, Bool.not_eq_true',
      decide_eq_false_iff_not, ne_comm]
  · intro other type sub
    rw [un_register_slot recorded, subscribed]
    by_cases same : other = id
    · simp [same]
    · rw [if_neg same, if_neg (Ne.symm same), recorded.subcribers]
  · intro other type absent
    rw [un_register_slot recorded]
    split
    · rfl
    · next different =>
        apply recorded.closed
        intro present
        exact absent ((un_register_mem id other).mpr ⟨different, present⟩)

/-- A call about one subscription replaces one set of the tables. -/
theorem set_slot_recorded (recorded : Recorded history center) (id : UInt16) (type : PubType)
    (present : id ∈ center.publishers) (set : UnorderedSet Subscriber)
    (call : Call Publisher Subscriber)
    (sameRegistered : ∀ other, registered other (call :: history) = registered other history)
    (inSet : ∀ sub, sub ∈ set ↔ subscribed id type sub (call :: history) = true)
    (others : ∀ other otherType sub, ¬ (other = id ∧ otherType = type) →
      subscribed other otherType sub (call :: history) = subscribed other otherType sub history) :
    Recorded (call :: history) (center.setSlot id type set) := by
  constructor
  · intro other
    rw [sameRegistered]
    exact recorded.publishers other
  · intro other otherType sub
    rw [slot_set_slot]
    by_cases same : other = id ∧ otherType = type
    · rw [if_pos same, same.1, same.2, inSet]
    · rw [if_neg same, others other otherType sub same, recorded.subcribers]
  · intro other otherType absent
    have different : ¬ (other = id ∧ otherType = type) := by
      rintro ⟨rfl, -⟩
      exact absent present
    rw [slot_set_slot, if_neg different]
    exact recorded.closed other otherType absent

/-- A call that leaves the tables alone and that the history disregards. -/
theorem same_recorded (recorded : Recorded history center) (call : Call Publisher Subscriber)
    (sameRegistered : ∀ id, registered id (call :: history) = registered id history)
    (sameSubscribed : ∀ id type sub,
      subscribed id type sub (call :: history) = subscribed id type sub history) :
    Recorded (call :: history) center := by
  constructor
  · intro id
    rw [sameRegistered, recorded.publishers]
  · intro id type sub
    rw [sameSubscribed, recorded.subcribers]
  · exact recorded.closed

theorem registered_of_mem (recorded : Recorded history center) {id : UInt16}
    (absent : id ∉ center.publishers) : registered id history ≠ true :=
  mt (recorded.publishers id).mpr absent

/-- A call about one subscription: where the publisher is registered it stores
a set that has the subscribers the history says, and elsewhere it does nothing. -/
theorem assigned_recorded (recorded : Recorded history center) (id : UInt16) (type : PubType)
    (set : UnorderedSet Subscriber) (call : Call Publisher Subscriber)
    (sameRegistered : ∀ other, registered other (call :: history) = registered other history)
    (inSet : registered id history = true →
      ∀ sub, sub ∈ set ↔ subscribed id type sub (call :: history) = true)
    (elsewhere : ∀ other otherType sub,
      ¬ (other = id ∧ otherType = type ∧ registered id history = true) →
        subscribed other otherType sub (call :: history) =
          subscribed other otherType sub history) :
    Recorded (call :: history)
      (if id ∈ center.publishers then center.setSlot id type set else center) := by
  split
  · next present =>
      have opened := (recorded.publishers id).mp present
      apply set_slot_recorded recorded id type present set call sameRegistered (inSet opened)
      intro other otherType sub different
      apply elsewhere
      rintro ⟨rfl, rfl, -⟩
      exact different ⟨rfl, rfl⟩
  · next absent =>
      apply same_recorded recorded call sameRegistered
      intro other otherType sub
      apply elsewhere
      rintro ⟨-, -, opened⟩
      exact registered_of_mem recorded absent opened

theorem subscribe_recorded (recorded : Recorded history center) (id : UInt16) (type : PubType)
    (sub : Subscriber) :
    Recorded (.subscribe id type (some sub) :: history)
      (kept center (center.subscribe id type (some sub))) := by
  rw [kept_subscribe]
  apply assigned_recorded recorded
  · intro other
    rfl
  · intro opened other
    rw [UnorderedMap.mem_emplace, recorded.subcribers, subscribed]
    by_cases same : other = sub
    · simp [same, opened]
    · simp [same, Ne.symm same]
  · intro other otherType otherSub different
    rw [subscribed, if_neg]
    rintro ⟨rfl, rfl, -, opened⟩
    exact different ⟨rfl, rfl, opened⟩

theorem un_subscribe_recorded (recorded : Recorded history center) (id : UInt16) (type : PubType)
    (sub : Subscriber) :
    Recorded (.unSubscribe id type (some sub) :: history)
      (kept center (center.unSubscribe id type (some sub))) := by
  rw [kept_un_subscribe]
  apply assigned_recorded recorded
  · intro other
    rfl
  · intro opened other
    rw [AList.mem_erase, recorded.subcribers, subscribed]
    by_cases same : other = sub
    · simp [same, opened]
    · simp [same, Ne.symm same]
  · intro other otherType otherSub different
    rw [subscribed, if_neg]
    rintro ⟨rfl, rfl, -, opened⟩
    exact different ⟨rfl, rfl, opened⟩

theorem notify_recorded (recorded : Recorded history center) (id : UInt16) (type : PubType) :
    Recorded (.notifySubscriber id type :: history) (center.notifySubscriber id type).2 := by
  by_cases present : id ∈ center.publishers
  · simp only [notifySubscriber, if_pos present]
    exact set_slot_recorded recorded id type present _ _ (fun _ => rfl)
      (fun sub => recorded.subcribers id type sub) (fun _ _ _ _ => rfl)
  · simp only [notifySubscriber, if_neg present]
    exact same_recorded recorded _ (fun _ => rfl) (fun _ _ _ => rfl)

theorem perform_recorded (recorded : Recorded history center)
    (call : Call Publisher Subscriber) : Recorded (call :: history) (perform center call) := by
  cases call with
  | registerPub id pub =>
      cases pub with
      | none => exact same_recorded recorded _ (fun _ => rfl) (fun _ _ _ => rfl)
      | some pub => exact register_recorded recorded id pub
  | unRegisterPub id => exact un_register_recorded recorded id
  | subscribe id type sub =>
      cases sub with
      | none => exact same_recorded recorded _ (fun _ => rfl) (fun _ _ _ => rfl)
      | some sub => exact subscribe_recorded recorded id type sub
  | unSubscribe id type sub =>
      cases sub with
      | none => exact same_recorded recorded _ (fun _ => rfl) (fun _ _ _ => rfl)
      | some sub => exact un_subscribe_recorded recorded id type sub
  | notifySubscriber id type => exact notify_recorded recorded id type

end Calls

theorem after_recorded (history : History Publisher Subscriber) :
    Recorded history (after history) := by
  induction history with
  | nil => exact empty_recorded
  | cons call earlier ih => exact perform_recorded ih call

theorem told_registered {id : UInt16} {history : History Publisher Subscriber}
    (present : id ∈ (after history).publishers) (type : PubType) :
    told id type history = ((after history).slot id type).keys := by
  rw [told, notifySubscriber, if_pos present]

theorem told_unregistered {id : UInt16} {history : History Publisher Subscriber}
    (absent : id ∉ (after history).publishers) (type : PubType) :
    told id type history = [] := by
  rw [told, notifySubscriber, if_neg absent]

/-- A subscriber is told once if the notification is due to it, and not at all
otherwise. -/
theorem told_count (id : UInt16) (type : PubType) (history : History Publisher Subscriber)
    (sub : Subscriber) :
    (told id type history).count sub = if due id type sub history = true then 1 else 0 := by
  have recorded := after_recorded history
  by_cases present : id ∈ (after history).publishers
  · have opened := (recorded.publishers id).mp present
    have member : sub ∈ told id type history ↔ due id type sub history = true := by
      rw [told_registered present, due, opened, Bool.true_and, ← recorded.subcribers]
      exact AList.mem_keys
    have once : (told id type history).Nodup := by
      rw [told_registered present]
      exact AList.keys_nodup _
    rw [once.count, if_congr member rfl rfl]
  · have closed : due id type sub history = false := by
      rw [due, Bool.eq_false_iff.mpr (registered_of_mem recorded present), Bool.false_and]
    simp [told_unregistered present, closed]

/-- A period starts with no subscribers. -/
theorem told_opened (id : UInt16) (type : PubType) (history : History Publisher Subscriber)
    (closed : registered id history = false) (pub : Publisher) :
    told id type (.registerPub id (some pub) :: history) = [] := by
  have nobody : ∀ sub, (told id type (.registerPub id (some pub) :: history)).count sub = 0 := by
    intro sub
    simp [told_count, due, subscribed, closed]
  exact List.eq_nil_iff_forall_not_mem.mpr fun sub => List.count_eq_zero.mp (nobody sub)

/-- What a notification reads of the center. -/
theorem told_of_same {id : UInt16} {type : PubType} {call : Call Publisher Subscriber}
    {history : History Publisher Subscriber}
    (publishers : id ∈ (after (call :: history)).publishers ↔ id ∈ (after history).publishers)
    (slots : (after (call :: history)).slot id type = (after history).slot id type) :
    told id type (call :: history) = told id type history := by
  by_cases present : id ∈ (after history).publishers
  · rw [told_registered (publishers.mpr present), told_registered present, slots]
  · rw [told_unregistered (mt publishers.mp present), told_unregistered present]

/-- A call that does no more than store a set at another place. -/
theorem told_of_assigned {id other : UInt16} {type otherType : PubType}
    {call : Call Publisher Subscriber} {history : History Publisher Subscriber}
    {set : UnorderedSet Subscriber}
    (stored : after (call :: history) = if other ∈ (after history).publishers then
      (after history).setSlot other otherType set else after history)
    (different : ¬ (other = id ∧ otherType = type)) :
    told id type (call :: history) = told id type history := by
  split at stored
  · apply told_of_same
    · rw [stored]
      rfl
    · rw [stored, slot_set_slot, if_neg]
      rintro ⟨rfl, rfl⟩
      exact different ⟨rfl, rfl⟩
  · rw [told, told, stored]

theorem told_unconcerned (id : UInt16) (type : PubType) (history : History Publisher Subscriber)
    (call : Call Publisher Subscriber) (elsewhere : ¬ call.concerns id type) :
    told id type (call :: history) = told id type history := by
  cases call with
  | registerPub other pub =>
      cases pub with
      | none => rfl
      | some pub =>
          have different : id ≠ other := fun same => elsewhere same.symm
          apply told_of_same
          · rw [after, perform, registerPub, kept, UnorderedMap.mem_emplace]
            exact or_iff_right different
          · rfl
  | unRegisterPub other =>
      have different : id ≠ other := fun same => elsewhere same.symm
      apply told_of_same
      · rw [after, perform, un_register_mem]
        exact and_iff_right different
      · rw [after, perform, un_register_slot (after_recorded history), if_neg different]
  | subscribe other otherType sub =>
      cases sub with
      | none => rfl
      | some sub => exact told_of_assigned (kept_subscribe _ other otherType sub) elsewhere
  | unSubscribe other otherType sub =>
      cases sub with
      | none => rfl
      | some sub => exact told_of_assigned (kept_un_subscribe _ other otherType sub) elsewhere
  | notifySubscriber other otherType => exact notify_keeps _ other id otherType type

/-- Delivery follows the history of calls: one `update` for each subscriber whose
latest call in the current period is a `subscribe`, none at the start of a
period, and no change by a call about another publisher or type. -/
theorem delivery_exact (id : UInt16) (type : PubType) (history : History Publisher Subscriber) :
    (∀ sub, (told id type history).count sub = if due id type sub history = true then 1 else 0) ∧
      (∀ pub, registered id history = false →
        told id type (.registerPub id (some pub) :: history) = []) ∧
      ∀ call : Call Publisher Subscriber, ¬ call.concerns id type →
        told id type (call :: history) = told id type history := by
  refine ⟨told_count id type history, ?_, told_unconcerned id type history⟩
  intro pub closed
  exact told_opened id type history closed pub

end RProxy.Delivery
