import RProxy.Buffer
import RProxy.Machine

/-!
`ArrayBuffer` as a queue of bytes: any number of buffers, and next to each the
queue that the same calls make of it.
-/

namespace RProxy.FifoBuffer

open ArrayBuffer

inductive IntWidth where
  | int64 | int32 | int16 | int8
  deriving DecidableEq

namespace IntWidth

def bytes : IntWidth → Nat
  | .int64 => 8
  | .int32 => 4
  | .int16 => 2
  | .int8 => 1

def retrieveInt : IntWidth → Call Unit
  | .int64 => Call.retrieveInt64
  | .int32 => Call.retrieveInt32
  | .int16 => Call.retrieveInt16
  | .int8 => Call.retrieveInt8

end IntWidth

/-- A call on one buffer; `write` is for the bytes that a caller puts at
`beginWrite()` before `hasWritten`. -/
inductive BufferCall where
  | append (data : Option (List Byte))
  | retrieve (len : Nat)
  | retrieveUntil (distance : Int)
  | retrieveAll
  | retrieveAsString (len : Nat)
  | retrieveAllAsString
  | retrieveInt (width : IntWidth)
  | ensureWritableBytes (len : Nat)
  | write (data : List Byte)

namespace BufferCall

/-- A call that returns nothing answers with no bytes. -/
def silent (call : Call Unit) : Call (List Byte) := do
  call
  return []

def perform (granted : Bool) : BufferCall → Call (List Byte)
  | .append data => silent (Call.append data granted)
  | .retrieve len => silent (Call.retrieve len)
  | .retrieveUntil distance => silent (Call.retrieveUntil distance)
  | .retrieveAll => silent (modify ArrayBuffer.retrieveAll)
  | .retrieveAsString len => Call.retrieveAsString len granted
  | .retrieveAllAsString => Call.retrieveAllAsString granted
  | .retrieveInt width => silent width.retrieveInt
  | .ensureWritableBytes len => silent (Call.ensureWritableBytes len granted)
  | .write data => silent (Call.write data)

/-- What a queue of bytes makes of the call: the answer and the queue after it,
or nothing where the queue has to refuse. -/
def onQueue : BufferCall → List Byte → Option (List Byte × List Byte)
  | .append none, _ => none
  | .append (some data), queue => some ([], queue ++ data)
  | .retrieve len, queue => if len ≤ queue.length then some ([], queue.drop len) else none
  | .retrieveUntil distance, queue =>
      if 0 ≤ distance ∧ distance ≤ queue.length then some ([], queue.drop distance.toNat) else none
  | .retrieveAll, _ => some ([], [])
  | .retrieveAsString len, queue =>
      if len ≤ queue.length then some (queue.take len, queue.drop len) else none
  | .retrieveAllAsString, queue => some (queue, [])
  | .retrieveInt width, queue =>
      if width.bytes ≤ queue.length then some ([], queue.drop width.bytes) else none
  | .ensureWritableBytes _, queue => some ([], queue)
  | .write data, queue => some ([], queue ++ data)

/-- The sum of the index with a size that is asked for stays below `2 ^ 64`, and
a caller writes no more than there is room for. -/
def NoWrap (buf : ArrayBuffer) : BufferCall → Prop
  | .append (some data) => buf.writerIndex + data.length < 2 ^ 64
  | .ensureWritableBytes len => buf.writerIndex + len < 2 ^ 64
  | .write data => data.length ≤ buf.writableBytes
  | _ => True

/-- Where the call takes a pointer into the vector there is an element to point to. -/
def Based (buf : ArrayBuffer) : BufferCall → Prop
  | .append (some data) => buf.buffer ≠ [] ∨ data ≠ []
  | .retrieveUntil _ => buf.buffer ≠ []
  | .retrieveAsString len => buf.buffer ≠ [] ∨ 0 < len
  | .retrieveAllAsString => buf.buffer ≠ []
  | .write _ => buf.buffer ≠ []
  | _ => True

/-- The room that the call needs in the vector. -/
def asks : BufferCall → Option Nat
  | .append (some data) => some data.length
  | .ensureWritableBytes len => some len
  | _ => none

/-- The calls that make a string. -/
def answers : BufferCall → Bool
  | .retrieveAsString _ => true
  | .retrieveAllAsString => true
  | _ => false

/-- What the call promises of the buffer besides its content. -/
def Promised (next : ArrayBuffer) : BufferCall → Prop
  | .ensureWritableBytes len => len ≤ next.writableBytes
  | _ => True

end BufferCall

open BufferCall

/-- Why a call may throw: the queue refuses it too, which is never so in an `append` of
data that is not null, or there is no room and none to be had, or no memory for a
string. -/
inductive Throws (granted : Bool) (buf : ArrayBuffer) (queue : List Byte) (call : BufferCall) :
    Fault → Prop where
  | refused (refuses : call.onQueue queue = none) (given : ∀ data, call ≠ .append (some data)) :
      Throws granted buf queue call .logicError
  | full {len : Nat} {fault : Fault} (asked : call.asks = some len)
      (refuses : buf.Refuses len granted fault) : Throws granted buf queue call fault
  | noString (answered : call.answers = true) (short : granted = false) :
      Throws granted buf queue call .badAlloc

/-- The call returns with the answer and the content of the queue, or throws with reason
and leaves the buffer alone. -/
def Exact (granted : Bool) (buf : ArrayBuffer) (queue : List Byte) (call : BufferCall) :
    EStateM.Result Fault ArrayBuffer (List Byte) → Prop
  | .ok answer next =>
      call.onQueue queue = some (answer, next.content) ∧ call.Promised next
  | .error fault next =>
      next.readerIndex = buf.readerIndex ∧ next.writerIndex = buf.writerIndex ∧
        next.content = buf.content ∧ Throws granted buf queue call fault

theorem Throws.not_undefined {granted : Bool} {buf : ArrayBuffer} {queue : List Byte}
    {call : BufferCall} {fault : Fault} (throws : Throws granted buf queue call fault) :
    fault ≠ .undefined := by
  cases throws with
  | refused => exact Fault.noConfusion
  | full _ refuses => exact refuses.not_undefined
  | noString => exact Fault.noConfusion

section Specifications

variable {buf : ArrayBuffer}

theorem silent_ok {call : Call Unit} {next : ArrayBuffer} (returned : call buf = .ok () next) :
    silent call buf = .ok [] next := by
  rw [silent, bind_of_ok returned, pure_apply]

theorem silent_error {call : Call Unit} {fault : Fault} (threw : call buf = .error fault buf) :
    silent call buf = .error fault buf := bind_of_error threw _

/-- What a call does to a valid buffer whose vector has what it points to. -/
def Performed (granted : Bool) (buf : ArrayBuffer) (call : BufferCall) : Prop :=
  (∃ answer next, call.perform granted buf = .ok answer next ∧ next.Valid ∧
    call.onQueue buf.content = some (answer, next.content) ∧ call.Promised next) ∨
  ∃ fault, call.perform granted buf = .error fault buf ∧
    Throws granted buf buf.content call fault

theorem performed_retrieve (valid : buf.Valid) (granted : Bool) (call : BufferCall) (len : Nat)
    (performs : call.perform granted = silent (Call.retrieve len))
    (queued : ∀ queue : List Byte, call.onQueue queue =
      if len ≤ queue.length then some ([], queue.drop len) else none)
    (promised : ∀ next, call.Promised next) (other : ∀ data, call ≠ .append (some data)) :
    Performed granted buf call := by
  have spec := Call.retrieve_spec valid len
  by_cases fits : len ≤ buf.content.length
  · rw [if_pos fits] at spec
    obtain ⟨next, returned, nextValid, rest⟩ := spec
    refine Or.inl ⟨[], next, ?_, nextValid, ?_, promised next⟩
    · rw [performs, silent_ok returned]
    · rw [queued, if_pos fits, rest]
  · rw [if_neg fits] at spec
    refine Or.inr ⟨.logicError, ?_, .refused ?_ other⟩
    · rw [performs, silent_error spec]
    · rw [queued, if_neg fits]

theorem performed_as_string (valid : buf.Valid) (granted : Bool) (len : Nat)
    (based : buf.buffer ≠ [] ∨ 0 < len) : Performed granted buf (.retrieveAsString len) := by
  have spec := Call.retrieve_as_string_spec valid len granted based
  by_cases fits : len ≤ buf.content.length
  · rw [if_pos fits] at spec
    rcases spec with ⟨short, refused⟩ | ⟨next, returned, nextValid, rest⟩
    · exact Or.inr ⟨.badAlloc, refused, .noString rfl short⟩
    · refine Or.inl ⟨_, next, returned, nextValid, ?_, trivial⟩
      rw [onQueue, if_pos fits, rest]
  · rw [if_neg fits] at spec
    exact Or.inr ⟨.logicError, spec, .refused (if_neg fits) (by simp)⟩

theorem performed (valid : buf.Valid) (granted : Bool) (call : BufferCall)
    (noWrap : call.NoWrap buf) (based : call.Based buf) : Performed granted buf call := by
  cases call with
  | append data =>
      cases data with
      | none => exact Or.inr ⟨.logicError, rfl, .refused rfl (by simp)⟩
      | some data =>
          have fits : buf.writerIndex + data.length < 2 ^ 64 := noWrap
          rcases Call.append_spec valid fits granted based with
            ⟨fault, refuses, threw⟩ | ⟨next, returned, nextValid, appended⟩
          · exact Or.inr ⟨fault, silent_error threw, .full rfl refuses⟩
          · exact Or.inl ⟨[], next, silent_ok returned, nextValid, by rw [onQueue, appended], trivial⟩
  | retrieve len =>
      exact performed_retrieve valid granted _ len rfl (fun _ => rfl) (fun _ => trivial) (by simp)
  | retrieveUntil distance =>
      have spec := Call.retrieve_until_spec valid based distance
      by_cases inside : 0 ≤ distance ∧ distance ≤ buf.content.length
      · rw [if_pos inside] at spec
        obtain ⟨next, returned, nextValid, rest⟩ := spec
        refine Or.inl ⟨[], next, silent_ok returned, nextValid, ?_, trivial⟩
        rw [onQueue, if_pos inside, rest]
      · rw [if_neg inside] at spec
        exact Or.inr ⟨.logicError, silent_error spec, .refused (if_neg inside) (by simp)⟩
  | retrieveAll =>
      refine Or.inl ⟨[], buf.retrieveAll, rfl, retrieve_all_valid valid, ?_, trivial⟩
      rw [onQueue, retrieve_all_content]
  | retrieveAsString len => exact performed_as_string valid granted len based
  | retrieveAllAsString =>
      have same : Call.retrieveAllAsString granted buf =
          Call.retrieveAsString buf.content.length granted buf := by
        rw [Call.retrieveAllAsString, get_bind, valid.content_length]
      have spec := Call.retrieve_as_string_spec valid buf.content.length granted (Or.inl based)
      rw [if_pos (Nat.le_refl _), List.take_length, List.drop_length, ← same] at spec
      rcases spec with ⟨short, refused⟩ | ⟨next, returned, nextValid, rest⟩
      · exact Or.inr ⟨.badAlloc, refused, .noString rfl short⟩
      · exact Or.inl ⟨buf.content, next, returned, nextValid, by rw [onQueue, rest], trivial⟩
  | retrieveInt width =>
      refine performed_retrieve valid granted _ width.bytes ?_ (fun _ => rfl) (fun _ => trivial)
        (by simp)
      cases width <;> rfl
  | ensureWritableBytes len =>
      have fits : buf.writerIndex + len < 2 ^ 64 := noWrap
      rcases Call.ensure_writable_spec valid fits granted with
        ⟨fault, refuses, threw⟩ | ⟨next, returned, nextValid, same, room⟩
      · exact Or.inr ⟨fault, silent_error threw, .full rfl refuses⟩
      · exact Or.inl ⟨[], next, silent_ok returned, nextValid, by rw [onQueue, same], room⟩
  | write data =>
      have room : data.length ≤ buf.writableBytes := noWrap
      obtain ⟨next, returned, nextValid, appended⟩ := Call.write_spec valid based room
      exact Or.inl ⟨[], next, silent_ok returned, nextValid, by rw [onQueue, appended], trivial⟩

/-- Without an element to point to there is neither an answer nor an exception. -/
theorem performed_unbased (granted : Bool) (call : BufferCall) (valid : buf.Valid)
    (unbased : ¬ call.Based buf) : call.perform granted buf = .error .undefined buf := by
  have empty_content (empty : buf.buffer = []) : buf.readableBytes = 0 := by
    rw [← valid.content_length, content, empty]
    simp
  cases call with
  | append data =>
      cases data with
      | none => exact absurd trivial unbased
      | some data =>
          obtain ⟨empty, rfl⟩ : buf.buffer = [] ∧ data = [] := by simpa [Based] using unbased
          exact silent_error (Call.append_empty empty granted)
  | retrieveUntil distance =>
      have empty : buf.buffer = [] := Decidable.not_not.mp unbased
      exact silent_error (bind_of_error (Call.begin_empty empty) _)
  | retrieveAsString len =>
      obtain ⟨empty, rfl⟩ : buf.buffer = [] ∧ len = 0 := by simpa [Based] using unbased
      rw [perform, Call.retrieveAsString, get_bind, branch_apply, if_neg (Nat.not_lt_zero _)]
      exact bind_of_error (Call.begin_empty empty) _
  | retrieveAllAsString =>
      have empty : buf.buffer = [] := Decidable.not_not.mp unbased
      rw [perform, Call.retrieveAllAsString, get_bind, Call.retrieveAsString, get_bind, branch_apply,
        if_neg (Nat.lt_irrefl _)]
      exact bind_of_error (Call.begin_empty empty) _
  | write data =>
      have empty : buf.buffer = [] := Decidable.not_not.mp unbased
      exact silent_error (bind_of_error (Call.begin_empty empty) _)
  | _ => exact absurd trivial unbased

instance (buf : ArrayBuffer) : (call : BufferCall) → Decidable (call.Based buf)
  | .append none => isTrue trivial
  | .append (some data) => inferInstanceAs (Decidable (buf.buffer ≠ [] ∨ data ≠ []))
  | .retrieve _ => isTrue trivial
  | .retrieveUntil _ => inferInstanceAs (Decidable (buf.buffer ≠ []))
  | .retrieveAll => isTrue trivial
  | .retrieveAsString len => inferInstanceAs (Decidable (buf.buffer ≠ [] ∨ 0 < len))
  | .retrieveAllAsString => inferInstanceAs (Decidable (buf.buffer ≠ []))
  | .retrieveInt _ => isTrue trivial
  | .ensureWritableBytes _ => isTrue trivial
  | .write _ => inferInstanceAs (Decidable (buf.buffer ≠ []))

theorem perform_valid (valid : buf.Valid) {call : BufferCall} (noWrap : call.NoWrap buf)
    (granted : Bool) : (stateOf (call.perform granted buf)).Valid := by
  by_cases based : call.Based buf
  · rcases performed valid granted call noWrap based with
      ⟨answer, next, returned, nextValid, -⟩ | ⟨fault, threw, -⟩
    · rw [returned]
      exact nextValid
    · rw [threw]
      exact valid
  · rw [performed_unbased granted call valid based]
    exact valid

end Specifications

section Runs

variable {Name : Type}

/-- The buffers, and the queues that the calls so far have made. -/
structure State (Name : Type) where
  buffers : Name → ArrayBuffer
  queues : Name → List Byte

/-- The sizes with which the constructor returns. -/
abbrev InitSize := { initSize : Nat // initSize ≤ maxSize }

def start (initSize : Name → InitSize) : State Name :=
  ⟨fun name => .new (initSize name), fun _ => []⟩

inductive Action (Name : Type) where
  | call (name : Name) (call : BufferCall) (granted : Bool)
  | swap (name other : Name)

def Fits (state : State Name) : Action Name → Prop
  | .call name call _ => call.NoWrap (state.buffers name)
  | .swap _ _ => True

/-- No call takes a pointer into an empty vector. -/
def BasedStep (state : State Name) : Action Name → Prop
  | .call name call _ => call.Based (state.buffers name)
  | .swap _ _ => True

def ExactStep (state : State Name) : Action Name → Prop
  | .call name call granted =>
      Exact granted (state.buffers name) (state.queues name) call
        (call.perform granted (state.buffers name))
  | .swap _ _ => True

/-- The bytes between the indices are the queue, and the indices are in bounds. -/
def Refines (state : State Name) : Prop :=
  ∀ name, (state.buffers name).Valid ∧ (state.buffers name).content = state.queues name

instance (buf : ArrayBuffer) : (call : BufferCall) → Decidable (call.NoWrap buf)
  | .append none => isTrue trivial
  | .append (some data) => inferInstanceAs (Decidable (buf.writerIndex + data.length < 2 ^ 64))
  | .retrieve _ => isTrue trivial
  | .retrieveUntil _ => isTrue trivial
  | .retrieveAll => isTrue trivial
  | .retrieveAsString _ => isTrue trivial
  | .retrieveAllAsString => isTrue trivial
  | .retrieveInt _ => isTrue trivial
  | .ensureWritableBytes len => inferInstanceAs (Decidable (buf.writerIndex + len < 2 ^ 64))
  | .write data => inferInstanceAs (Decidable (data.length ≤ buf.writableBytes))

instance (state : State Name) : (action : Action Name) → Decidable (Fits state action)
  | .call name call _ => inferInstanceAs (Decidable (call.NoWrap (state.buffers name)))
  | .swap _ _ => isTrue trivial

instance (state : State Name) : (action : Action Name) → Decidable (BasedStep state action)
  | .call name call _ => inferInstanceAs (Decidable (call.Based (state.buffers name)))
  | .swap _ _ => isTrue trivial

theorem start_refines (initSize : Name → InitSize) : Refines (start initSize) := by
  intro name
  exact ⟨new_valid (initSize name).2, new_content _⟩

/-- A call of the run is that of a queue exactly where it has what it points to. -/
theorem exact_iff_based (state : State Name) (action : Action Name) (refines : Refines state)
    (fits : Fits state action) : ExactStep state action ↔ BasedStep state action := by
  cases action with
  | swap name other => exact Iff.rfl
  | call name call granted =>
      obtain ⟨valid, same⟩ := refines name
      rw [ExactStep, BasedStep, ← same]
      constructor
      · intro exactly
        by_contra unbased
        rw [performed_unbased granted call valid unbased] at exactly
        exact exactly.2.2.2.not_undefined rfl
      · intro based
        rcases performed valid granted call fits based with
          ⟨answer, next, returned, -, queued, promised⟩ | ⟨fault, threw, throws⟩
        · rw [returned]
          exact ⟨queued, promised⟩
        · rw [threw]
          exact ⟨rfl, rfl, rfl, throws⟩

variable [DecidableEq Name]

/-- A call that throws is none that the queue has to follow. -/
def State.settle (state : State Name) (name : Name) (call : BufferCall) :
    EStateM.Result Fault ArrayBuffer (List Byte) → State Name
  | .ok _ next =>
      { buffers := Function.update state.buffers name next
        queues := Function.update state.queues name
          (((call.onQueue (state.queues name)).map Prod.snd).getD (state.queues name)) }
  | .error _ next => { state with buffers := Function.update state.buffers name next }

def State.swap (state : State Name) (name other : Name) : State Name :=
  let swapped := (state.buffers name).swap (state.buffers other)
  { buffers := Function.update (Function.update state.buffers name swapped.1) other swapped.2
    queues := Function.update (Function.update state.queues name (state.queues other)) other
      (state.queues name) }

def buffers : Machine (State Name) (Action Name) where
  step state action :=
    match action with
    | .call name call granted =>
        some (state.settle name call (call.perform granted (state.buffers name)))
    | .swap name other => some (state.swap name other)

theorem call_refines (state : State Name) (refines : Refines state) (name : Name)
    (call : BufferCall) (granted : Bool) (fits : call.NoWrap (state.buffers name)) :
    Refines (state.settle name call (call.perform granted (state.buffers name))) := by
  obtain ⟨valid, same⟩ := refines name
  have unchanged (fault : Fault) :
      Refines (state.settle name call (.error fault (state.buffers name))) := by
    simpa [State.settle] using refines
  by_cases based : call.Based (state.buffers name)
  · rcases performed valid granted call fits based with
      ⟨answer, next, returned, nextValid, queued, -⟩ | ⟨fault, threw, -⟩
    · rw [returned]
      intro other
      by_cases here : other = name
      · subst here
        rw [same] at queued
        simp [State.settle, queued, nextValid]
      · simpa [State.settle, here] using refines other
    · rw [threw]
      exact unchanged fault
  · rw [performed_unbased granted call valid based]
    exact unchanged .undefined

theorem swap_refines (state : State Name) (refines : Refines state) (name other : Name) :
    Refines (state.swap name other) := by
  intro third
  by_cases second : third = other
  · subst second
    simpa [State.swap, ArrayBuffer.swap] using refines name
  · by_cases first : third = name
    · subst first
      simpa [State.swap, ArrayBuffer.swap, second] using refines other
    · simpa [State.swap, first, second] using refines third

theorem step_refines (state : State Name) (action : Action Name) (next : State Name)
    (refines : Refines state) (fits : Fits state action)
    (stepped : buffers.step state action = some next) : Refines next := by
  cases action with
  | call name call granted => cases stepped; exact call_refines state refines name call granted fits
  | swap name other => cases stepped; exact swap_refines state refines name other

/-- The buffers are the queues of the same calls, with the indices in bounds, and each
call does what it does to a queue or throws with reason and without effect, exactly in
the runs in which no call takes a pointer into an empty vector. -/
theorem buffers_are_queues_iff (initSize : Name → InitSize) (actions : List (Action Name))
    (fits : buffers.Meets Fits (start initSize) actions) :
    buffers.Always Refines (start initSize) actions ∧
        buffers.Meets ExactStep (start initSize) actions ↔
      buffers.Meets BasedStep (start initSize) actions := by
  have always : buffers.Always Refines (start initSize) actions :=
    buffers.always_of_invariant step_refines (fun _ refines => refines)
      (start_refines initSize) fits
  have steps (target source : State Name → Action Name → Prop)
      (implies : ∀ state action, Refines state → Fits state action → source state action →
        target state action)
      (meets : buffers.Meets source (start initSize) actions) :
      buffers.Meets target (start initSize) actions :=
    buffers.meets_of_invariant
      (fun state action next refines allowed => step_refines state action next refines allowed.1)
      (fun state action refines allowed => implies state action refines allowed.1 allowed.2)
      (start_refines initSize) (buffers.meets_and fits meets)
  constructor
  · rintro ⟨-, exactly⟩
    exact steps BasedStep ExactStep
      (fun state action refines here => (exact_iff_based state action refines here).mp) exactly
  · intro based
    exact ⟨always, steps ExactStep BasedStep
      (fun state action refines here => (exact_iff_based state action refines here).mpr) based⟩

/-- One buffer that compacts and then grows, and another that it is swapped with. -/
def sample : List (Action Bool) :=
  [.call true (.append (some [1, 2, 3])) true, .call true (.retrieve 2) true,
    .call true (.append (some [4, 5, 6])) true, .call true (.append (some [7, 8])) true,
    .swap true false, .call false (.retrieveAsString 2) true, .call true (.retrieveInt .int32) true]

theorem sample_is_queue :
    buffers.Always Refines (start fun _ : Bool => ⟨4, by decide⟩) sample ∧
      buffers.Meets ExactStep (start fun _ : Bool => ⟨4, by decide⟩) sample :=
  (buffers_are_queues_iff (fun _ => ⟨4, by decide⟩) sample (by decide +kernel)).mpr
    (by decide +kernel)

/-- A buffer without a byte is asked for all it has. -/
theorem empty_vector_aborts : ¬ ∀ (initSize : Unit → InitSize) (actions : List (Action Unit)),
    buffers.Meets Fits (start initSize) actions →
      buffers.Always Refines (start initSize) actions ∧
        buffers.Meets ExactStep (start initSize) actions := by
  intro claim
  let empty : InitSize := ⟨0, Nat.zero_le _⟩
  have exactly : ExactStep (start fun _ : Unit => empty) (.call () .retrieveAllAsString true) :=
    (claim (fun _ => empty) [.call () .retrieveAllAsString true] ⟨trivial, trivial⟩).2.1
  have aborts : BufferCall.perform true .retrieveAllAsString (new 0) =
      .error .undefined (new 0) :=
    performed_unbased true .retrieveAllAsString (new_valid (Nat.zero_le _)) (by decide)
  simp only [ExactStep, start, empty, aborts] at exactly
  exact exactly.2.2.2.not_undefined rfl

end Runs
end RProxy.FifoBuffer
