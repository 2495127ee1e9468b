import RProxy.FifoBuffer

/-!
The room in an `ArrayBuffer`: the constructor that copies data into a vector of
another size, `ensureWritableBytes` for every `size_t`, and how large the vector
becomes over a run.
-/

namespace RProxy.Space

open ArrayBuffer FifoBuffer

/-- `ArrayBuffer(ptr, len, initSize)`, where `len` bytes are at `ptr`. The
vector is made first, and the check compares with PACKETSIZE, not with its size:
`memcpy` may run past its end. -/
def ofData (ptr : Option (List Byte)) (initSize : Nat) (granted : Bool) :
    Except Fault ArrayBuffer :=
  if maxSize < initSize then .error .lengthError
  else if 0 < initSize ∧ granted = false then .error .badAlloc
  else
    match ptr with
    | none => .error .logicError
    | some data =>
        if packetSize < data.length then .error .logicError
        else if initSize < data.length then .error .undefined
        else
          let buf := (new initSize).copyTo 0 data
          .ok { buf with writerIndex := (buf.writerIndex + data.length) % 2 ^ 64 }

/-- A buffer that holds the data, and goes on to hold what is appended to it. -/
structure Holds (data : List Byte) (buf : ArrayBuffer) : Prop where
  valid : buf.Valid
  content : buf.content = data
  writable : buf.writableBytes + buf.writerIndex = buf.buffer.length
  appends : ∀ (more : List Byte) (granted : Bool), more.length ≤ maxSize →
    match Call.append (some more) granted buf with
    | .ok _ next => next.Valid ∧ next.content = data ++ more
    | .error fault next => fault ≠ .undefined ∧ next = buf

/-- The constructor throws or builds such a buffer. -/
def Constructs (data : List Byte) : Except Fault ArrayBuffer → Prop
  | .ok buf => Holds data buf
  | .error fault => fault ≠ .undefined

/-- The call throws and leaves the buffer, or returns with the room asked for. -/
def Reserves (buf : ArrayBuffer) (len : Nat) : EStateM.Result Fault ArrayBuffer Unit → Prop
  | .ok _ next => len ≤ next.writableBytes ∧ next.Valid ∧ next.content = buf.content
  | .error _ next => next = buf

section Specifications

variable {buf : ArrayBuffer}

theorem holds_of_valid (valid : buf.Valid) (nonempty : buf.buffer ≠ []) :
    Holds buf.content buf := by
  have inside := valid.inside
  have bounded := valid.bounded
  refine ⟨valid, rfl, ?_, ?_⟩
  · rw [valid.writable]
    omega
  · intro more granted fits
    have noWrap : buf.writerIndex + more.length < 2 ^ 64 := by
      rw [maxSize] at bounded fits
      omega
    rcases Call.append_spec valid noWrap granted (Or.inl nonempty) with
      ⟨fault, refuses, threw⟩ | ⟨next, returned, nextValid, appended⟩
    · rw [threw]
      exact ⟨refuses.not_undefined, rfl⟩
    · rw [returned]
      exact ⟨nextValid, appended⟩

/-- Nothing can be appended where there is no vector to append it to. -/
theorem nonempty_of_holds {data : List Byte} (holds : Holds data buf) : buf.buffer ≠ [] := by
  intro empty
  have appends := holds.appends [] true (Nat.zero_le _)
  rw [Call.append_empty empty] at appends
  exact appends.1 rfl

theorem of_data_fits {data : List Byte} {initSize : Nat} {granted : Bool}
    (bounded : initSize ≤ maxSize) (memory : ¬ (0 < initSize ∧ granted = false))
    (small : data.length ≤ packetSize) (fits : data.length ≤ initSize) :
    ∃ buf, ofData (some data) initSize granted = .ok buf ∧ buf.Valid ∧ buf.content = data ∧
      buf.buffer.length = initSize := by
  have size : (new initSize).buffer.length = initSize := List.length_replicate
  have room : data.length ≤ (new initSize).writableBytes := by
    rw [(new_valid bounded).writable, size]
    exact fits
  obtain ⟨next, written, nextValid, content⟩ := written_appends (new_valid bounded) room
  rw [new_content, List.nil_append] at content
  rw [hasWritten] at written
  split at written
  · cases written
  · have length : next.buffer.length = initSize := by
      cases written
      exact (copy_length (by rw [size]; exact Nat.le_trans (Nat.zero_add _).le fits)).trans size
    refine ⟨next, ?_, nextValid, content, length⟩
    rw [ofData, if_neg (Nat.not_lt.mpr bounded), if_neg memory]
    simp only
    rw [if_neg (Nat.not_lt.mpr small), if_neg (Nat.not_lt.mpr fits)]
    exact written

theorem wraps_shrinks (valid : buf.Valid) {len : Nat} (size : len < 2 ^ 64)
    (wraps : 2 ^ 64 ≤ buf.writerIndex + len) (granted : Bool) :
    ∃ next, Call.ensureWritableBytes len granted buf = .ok () next ∧
      next.buffer.length < next.writerIndex := by
  obtain ⟨-, inside, bounded⟩ := valid.indices
  have short : buf.writableBytes < len := by
    rw [valid.writable]
    omega
  have full : (buf.writableBytes + buf.prependableBytes) % 2 ^ 64 < (len + prepend) % 2 ^ 64 := by
    have ordered := valid.ordered
    rw [valid.writable, prependableBytes, prepend]
    omega
  obtain ⟨rest, wrapped⟩ : ∃ rest, (buf.writerIndex + len) % 2 ^ 64 = rest := ⟨_, rfl⟩
  have less : rest < buf.writerIndex := by omega
  refine ⟨{ buf with
    buffer := buf.buffer.take rest ++ List.replicate (rest - buf.buffer.length) 0 }, ?_, ?_⟩
  · rw [Call.ensureWritableBytes, get_bind, branch_apply, if_pos short, Call.makeSpace, get_bind,
      branch_apply, if_pos full, wrapped]
    apply Call.throwing_ok
    rw [resize, if_neg (by rw [maxSize]; omega), if_neg (by omega)]
  · simp only [List.length_append, List.length_take, List.length_replicate]
    omega

/-- The new size is the sum of the writer index and `len`, and is right where
that sum is. -/
theorem ensure_reserves_iff (valid : buf.Valid) {len : Nat} (size : len < 2 ^ 64)
    (granted : Bool) :
    Reserves buf len (Call.ensureWritableBytes len granted buf) ↔
      buf.writerIndex + len < 2 ^ 64 := by
  constructor
  · intro reserves
    by_contra wraps
    obtain ⟨next, returned, shrunk⟩ := wraps_shrinks valid size (Nat.le_of_not_lt wraps) granted
    rw [returned] at reserves
    exact absurd reserves.2.1.inside (Nat.not_le.mpr shrunk)
  · intro noWrap
    rcases Call.ensure_writable_spec valid noWrap granted with
      ⟨fault, -, threw⟩ | ⟨next, returned, nextValid, same, room⟩
    · rw [threw, Reserves]
    · rw [returned]
      exact ⟨room, nextValid, same⟩

theorem three_bytes_reserved :
    Reserves (new 2) 3 (Call.ensureWritableBytes 3 true (new 2)) :=
  (ensure_reserves_iff (new_valid (by decide)) (by decide) true).mpr (by decide)

/-- With one byte written, the largest `len` resizes the vector to nothing. -/
theorem largest_len_shrinks : ¬ ∀ (buf : ArrayBuffer) (len : Nat) (granted : Bool), buf.Valid →
    len < 2 ^ 64 → Reserves buf len (Call.ensureWritableBytes len granted buf) := by
  intro claim
  have valid : ArrayBuffer.Valid ⟨0, 1, [7, 0]⟩ := ⟨by decide, by decide, by decide⟩
  have reserves := claim ⟨0, 1, [7, 0]⟩ (2 ^ 64 - 1) true valid (by decide)
  exact absurd reserves.2.1.inside (by decide)

theorem resize_length {next : ArrayBuffer} {size : Nat} {granted : Bool}
    (resized : buf.resize size granted = .ok next) : next.buffer.length = size := by
  rw [resize] at resized
  split at resized
  · cases resized
  · split at resized
    · cases resized
    · cases resized
      simp only [List.length_append, List.length_take, List.length_replicate]
      omega

/-- The vector is left alone, enlarged or compacted. It is enlarged only where
the consumed part in front of the reader index is shorter than `len`. -/
theorem ensure_cases (valid : buf.Valid) {len : Nat} (noWrap : buf.writerIndex + len < 2 ^ 64)
    (granted : Bool) :
    Call.ensureWritableBytes len granted buf = .ok () buf ∨
      (buf.readerIndex < len ∧ Call.ensureWritableBytes len granted buf =
        Call.throwing (·.resize (buf.writerIndex + len) granted) buf) ∨
      Call.ensureWritableBytes len granted buf = .ok () buf.compact := by
  obtain ⟨ordered, inside, bounded⟩ := valid.indices
  have writable := valid.writable
  rw [Call.ensureWritableBytes, get_bind, branch_apply, pure_apply]
  split
  · rw [Call.makeSpace, get_bind, branch_apply, Nat.mod_eq_of_lt noWrap]
    split
    · next full =>
        rw [prependableBytes, prepend, Nat.add_zero, Nat.mod_eq_of_lt (by omega),
          Nat.mod_eq_of_lt (by omega)] at full
        exact Or.inr (Or.inl ⟨by omega, rfl⟩)
    · next short enough =>
      obtain ⟨nextValid, same, -, -⟩ := compact_keeps valid
      have kept : buf.readableBytes = buf.compact.readableBytes := by
        rw [← nextValid.content_length, same, valid.content_length]
      rw [prependableBytes, prepend] at enough
      have nonempty : buf.buffer ≠ [] := List.ne_nil_of_length_pos (by omega)
      rw [bind_of_ok (Call.begin_ok nonempty), set_bind, get_bind, branch_apply, throw_apply,
        pure_apply, if_neg (fun differs => differs kept)]
      exact Or.inr (Or.inr rfl)
  · exact Or.inl rfl

/-- What an enlarged vector keeps of the consumed part is less than what is
asked for. -/
theorem ensure_size (valid : buf.Valid) {len : Nat} (noWrap : buf.writerIndex + len < 2 ^ 64)
    (granted : Bool) :
    (stateOf (Call.ensureWritableBytes len granted buf)).buffer.length ≤
      max buf.buffer.length (2 * (buf.readableBytes + len)) := by
  have ordered := valid.ordered
  have readable := valid.readable
  rcases ensure_cases valid noWrap granted with same | ⟨less, enlarged⟩ | compacted
  · rw [same]
    exact Nat.le_max_left _ _
  · rw [enlarged, Call.throwing]
    split
    · exact Nat.le_max_left _ _
    · next next resized =>
        rw [stateOf, resize_length resized]
        omega
  · rw [compacted, stateOf, (compact_keeps valid).2.2.1]
    exact Nat.le_max_left _ _

/-- Memory for twice the demand is enough. -/
theorem ensure_refused (valid : buf.Valid) {len : Nat} (noWrap : buf.writerIndex + len < 2 ^ 64)
    {granted : Bool} {fault : Fault} {next : ArrayBuffer}
    (threw : Call.ensureWritableBytes len granted buf = .error fault next) :
    granted = false ∨ maxSize < 2 * (buf.readableBytes + len) := by
  have ordered := valid.ordered
  have readable := valid.readable
  rcases ensure_cases valid noWrap granted with same | ⟨less, enlarged⟩ | compacted
  · rw [same] at threw
    cases threw
  · rw [enlarged, Call.throwing, resize] at threw
    split at threw
    · next refused =>
        split at refused
        · right
          omega
        · split at refused
          · next short => exact Or.inl short.2
          · cases refused
    · cases threw
  · rw [compacted] at threw
    cases threw

/-- Answering after a call leaves the buffer as the call did. -/
theorem answer_state (call : Call Unit) (answer : List Byte) :
    stateOf ((call >>= fun _ => pure answer) buf) = stateOf (call buf) := by
  change stateOf (EStateM.bind call _ buf) = _
  rw [EStateM.bind]
  cases call buf with
  | ok value next => rfl
  | error fault next => rfl

theorem silent_state (call : Call Unit) :
    stateOf (BufferCall.silent call buf) = stateOf (call buf) := answer_state call []

/-- What comes after `begin()` starts with the same buffer, or does not come. -/
theorem begin_state {Value : Type} (kept : ArrayBuffer → Prop) (call : Unit → Call Value)
    (here : kept buf) (later : kept (stateOf (call () buf))) :
    kept (stateOf ((Call.begin >>= call) buf)) := by
  by_cases empty : buf.buffer = []
  · rw [bind_of_error (Call.begin_empty empty)]
    exact here
  · rw [bind_of_ok (Call.begin_ok empty)]
    exact later

theorem retrieve_buffer (len : Nat) :
    (stateOf (Call.retrieve len buf)).buffer = buf.buffer := by
  rw [Call.retrieve, Call.throwing]
  split
  · rfl
  · next next retrieved =>
      rw [ArrayBuffer.retrieve] at retrieved
      split at retrieved
      · cases retrieved
      · split at retrieved <;> cases retrieved <;> rfl

theorem retrieve_until_buffer (distance : Int) :
    (stateOf (Call.retrieveUntil distance buf)).buffer = buf.buffer := by
  refine begin_state (fun next => next.buffer = buf.buffer) _ rfl ?_
  rw [get_bind, branch_apply]
  split
  · rfl
  · exact retrieve_buffer distance.toNat

theorem retrieve_as_string_buffer (len : Nat) (granted : Bool) :
    (stateOf (Call.retrieveAsString len granted buf)).buffer = buf.buffer := by
  rw [Call.retrieveAsString, get_bind, branch_apply]
  split
  · rfl
  · refine begin_state (fun next => next.buffer = buf.buffer) _ rfl ?_
    rw [branch_apply]
    split
    · rfl
    · rw [answer_state]
      exact retrieve_buffer len

theorem write_size (valid : buf.Valid) {data : List Byte} (room : data.length ≤ buf.writableBytes) :
    (stateOf (Call.write data buf)).buffer.length = buf.buffer.length := by
  have inside := valid.inside
  rw [valid.writable] at room
  have size : (buf.copyTo buf.writerIndex data).buffer.length = buf.buffer.length :=
    copy_length (by omega)
  refine begin_state (fun next => next.buffer.length = buf.buffer.length) _ rfl ?_
  rw [modify_bind, Call.throwing]
  split
  · exact size
  · next next written =>
      rw [hasWritten] at written
      split at written
      · cases written
      · cases written
        exact size

theorem append_size (valid : buf.Valid) {data : List Byte}
    (noWrap : buf.writerIndex + data.length < 2 ^ 64) (granted : Bool) :
    (stateOf (Call.append (some data) granted buf)).buffer.length ≤
      max buf.buffer.length (2 * (buf.readableBytes + data.length)) := by
  have grown := ensure_size valid noWrap granted
  rw [Call.append_unfold]
  rcases Call.ensure_writable_spec valid noWrap granted with
    ⟨fault, -, threw⟩ | ⟨middle, ensured, middleValid, -, room⟩
  · rw [bind_of_error threw]
    exact Nat.le_max_left _ _
  · rw [ensured] at grown
    rw [bind_of_ok ensured, write_size middleValid room]
    exact grown

/-- Data were appended to some vector. -/
theorem append_nonempty {data : List Byte} {granted : Bool} {next : ArrayBuffer}
    (valid : buf.Valid) (noWrap : buf.writerIndex + data.length < 2 ^ 64)
    (appended : Call.append (some data) granted buf = .ok () next) : next.buffer ≠ [] := by
  rw [Call.append_unfold] at appended
  rcases Call.ensure_writable_spec valid noWrap granted with
    ⟨fault, -, threw⟩ | ⟨middle, ensured, middleValid, -, room⟩
  · rw [bind_of_error threw] at appended
    cases appended
  · have size := write_size middleValid room
    rw [bind_of_ok ensured] at appended
    rw [appended] at size
    have nonempty : middle.buffer ≠ [] := by
      intro empty
      rw [Call.write, bind_of_error (Call.begin_empty empty)] at appended
      cases appended
    exact List.ne_nil_of_length_pos (size ▸ List.length_pos_iff.mpr nonempty)

/-- An `append` throws and leaves the buffer, or the data are behind its content. -/
theorem append_cases (valid : buf.Valid) {data : List Byte}
    (noWrap : buf.writerIndex + data.length < 2 ^ 64) (granted : Bool) :
    (∃ fault, Call.append (some data) granted buf = .error fault buf) ∨
      ∃ next, Call.append (some data) granted buf = .ok () next ∧ next.Valid ∧
        next.content = buf.content ++ data ∧ next.buffer ≠ [] := by
  by_cases based : buf.buffer ≠ [] ∨ data ≠ []
  · rcases Call.append_spec valid noWrap granted based with
      ⟨fault, -, threw⟩ | ⟨next, returned, nextValid, appended⟩
    · exact Or.inl ⟨fault, threw⟩
    · exact Or.inr ⟨next, returned, nextValid, appended, append_nonempty valid noWrap returned⟩
  · obtain ⟨empty, rfl⟩ : buf.buffer = [] ∧ data = [] := by simpa using based
    exact Or.inl ⟨.undefined, Call.append_empty empty granted⟩

theorem append_refused (valid : buf.Valid) {data : List Byte}
    (noWrap : buf.writerIndex + data.length < 2 ^ 64) {granted : Bool} {fault : Fault}
    {next : ArrayBuffer} (based : buf.buffer ≠ [] ∨ data ≠ [])
    (threw : Call.append (some data) granted buf = .error fault next) :
    fault ≠ .undefined ∧ (granted = false ∨ maxSize < 2 * (buf.readableBytes + data.length)) := by
  rcases Call.append_spec valid noWrap granted based with
    ⟨cause, refuses, refused⟩ | ⟨last, returned, -, -⟩
  · rw [refused] at threw
    cases threw
    refine ⟨refuses.not_undefined, ?_⟩
    rw [Call.append_unfold] at refused
    rcases Call.ensure_writable_spec valid noWrap granted with
      ⟨other, -, unreserved⟩ | ⟨middle, ensured, middleValid, -, room⟩
    · exact ensure_refused valid noWrap unreserved
    · -- with the room there is a byte to write to, and nothing throws any more
      have positive := Nat.lt_of_le_of_lt (Nat.zero_le _) refuses.cause.1
      have nonempty := middleValid.nonempty (Or.inl (Nat.lt_of_lt_of_le positive room))
      obtain ⟨last, written, -, -⟩ := Call.write_spec middleValid nonempty room
      rw [bind_of_ok ensured, written] at refused
      cases refused
  · rw [returned] at threw
    cases threw

/-- The readable bytes and those that the call asks room for. -/
def demand (buf : ArrayBuffer) : BufferCall → Nat
  | .append (some data) => buf.readableBytes + data.length
  | .ensureWritableBytes len => buf.readableBytes + len
  | _ => 0

theorem perform_size (valid : buf.Valid) {call : BufferCall} (noWrap : call.NoWrap buf)
    (granted : Bool) :
    (stateOf (call.perform granted buf)).buffer.length ≤
      max buf.buffer.length (2 * demand buf call) := by
  cases call with
  | append data =>
      rw [BufferCall.perform, silent_state]
      cases data with
      | none => exact Nat.le_max_left _ _
      | some data => exact append_size valid noWrap granted
  | retrieve len =>
      rw [BufferCall.perform, silent_state, retrieve_buffer]
      exact Nat.le_max_left _ _
  | retrieveUntil distance =>
      rw [BufferCall.perform, silent_state, retrieve_until_buffer]
      exact Nat.le_max_left _ _
  | retrieveAll => exact Nat.le_max_left _ _
  | retrieveAsString len =>
      rw [BufferCall.perform, retrieve_as_string_buffer]
      exact Nat.le_max_left _ _
  | retrieveAllAsString =>
      rw [BufferCall.perform, Call.retrieveAllAsString, get_bind, retrieve_as_string_buffer]
      exact Nat.le_max_left _ _
  | retrieveInt width =>
      have same : width.retrieveInt = Call.retrieve width.bytes := by cases width <;> rfl
      rw [BufferCall.perform, silent_state, same, retrieve_buffer]
      exact Nat.le_max_left _ _
  | ensureWritableBytes len =>
      rw [BufferCall.perform, silent_state]
      exact ensure_size valid noWrap granted
  | write data =>
      rw [BufferCall.perform, silent_state, write_size valid noWrap]
      exact Nat.le_max_left _ _

end Specifications

/-! The largest demand of the calls so far, next to the buffer. -/

structure Usage where
  buf : ArrayBuffer
  peak : Nat

def Usage.start (initSize : InitSize) : Usage := ⟨.new initSize, 0⟩

def usage : Machine Usage (BufferCall × Bool) where
  step state action := some
    { buf := stateOf (action.1.perform action.2 state.buf)
      peak := max state.peak (demand state.buf action.1) }

def FitsUsage (state : Usage) (action : BufferCall × Bool) : Prop := action.1.NoWrap state.buf

def Bounded (initSize : InitSize) (state : Usage) : Prop :=
  state.buf.buffer.length ≤ max initSize.1 (2 * state.peak)

instance (state : Usage) (action : BufferCall × Bool) : Decidable (FitsUsage state action) :=
  inferInstanceAs (Decidable (action.1.NoWrap state.buf))

theorem call_bounded {initSize : InitSize} (state : Usage) (action : BufferCall × Bool)
    (next : Usage) (holds : state.buf.Valid ∧ Bounded initSize state)
    (fits : FitsUsage state action) (stepped : usage.step state action = some next) :
    next.buf.Valid ∧ Bounded initSize next := by
  obtain ⟨valid, bounded⟩ := holds
  cases stepped
  refine ⟨perform_valid valid fits action.2, ?_⟩
  have grown := perform_size valid fits action.2
  rw [Bounded] at bounded ⊢
  simp only
  omega

theorem usage_bounded (initSize : InitSize) (actions : List (BufferCall × Bool))
    (fits : usage.Meets FitsUsage (.start initSize) actions) :
    usage.Always (Bounded initSize) (.start initSize) actions :=
  usage.always_of_invariant call_bounded (fun _ holds => holds.2)
    ⟨new_valid initSize.2, by simp [Bounded, Usage.start, new]⟩ fits

/-- A reader that keeps up bounds the demands, and so the vector. -/
theorem usage_limited (initSize : InitSize) (limit : Nat) (actions : List (BufferCall × Bool))
    (fits : usage.Meets FitsUsage (.start initSize) actions)
    (limited : usage.Meets (fun state action => demand state.buf action.1 ≤ limit)
      (.start initSize) actions) :
    usage.Always (fun state => state.buf.buffer.length ≤ max initSize.1 (2 * limit))
      (.start initSize) actions := by
  let kept (state : Usage) : Prop := (state.buf.Valid ∧ Bounded initSize state) ∧ state.peak ≤ limit
  have initial : kept (.start initSize) :=
    ⟨⟨new_valid initSize.2, by simp [Bounded, Usage.start, new]⟩, Nat.zero_le _⟩
  refine usage.always_of_invariant ?_ ?_ initial (usage.meets_and fits limited)
  · rintro state action next ⟨holds, below⟩ ⟨fits, small⟩ stepped
    refine ⟨call_bounded state action next holds fits stepped, ?_⟩
    cases stepped
    exact Nat.max_le.mpr ⟨below, small⟩
  · rintro state ⟨⟨-, bounded⟩, below⟩
    rw [Bounded] at bounded
    omega

/-- In every run the vector is at most as large as it was made, or twice as
large as the largest demand so far; where the demands stay below a limit, it
does not grow without bound. -/
theorem size_bounded (initSize : InitSize) (actions : List (BufferCall × Bool))
    (fits : usage.Meets FitsUsage (.start initSize) actions) :
    usage.Always (Bounded initSize) (.start initSize) actions ∧
      ∀ limit, usage.Meets (fun state action => demand state.buf action.1 ≤ limit)
        (.start initSize) actions →
        usage.Always (fun state => state.buf.buffer.length ≤ max initSize.1 (2 * limit))
          (.start initSize) actions :=
  ⟨usage_bounded initSize actions fits, fun limit limited =>
    usage_limited initSize limit actions fits limited⟩

/-- A vector of two bytes that grows behind a consumed byte. -/
def growing : List (BufferCall × Bool) :=
  [(.append (some [1, 2]), true), (.retrieve 1, true), (.append (some [3, 4]), true),
    (.ensureWritableBytes 4, true)]

theorem growing_bounded :
    usage.Always (Bounded ⟨2, by decide⟩) (.start ⟨2, by decide⟩) growing ∧
      ∀ limit, usage.Meets (fun state action => demand state.buf action.1 ≤ limit)
        (.start ⟨2, by decide⟩) growing →
        usage.Always (fun state => state.buf.buffer.length ≤ max 2 (2 * limit))
          (.start ⟨2, by decide⟩) growing :=
  size_bounded ⟨2, by decide⟩ growing (by decide +kernel)

end RProxy.Space
