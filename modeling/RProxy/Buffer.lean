import RProxy.Basic

/-!
`reactor::ArrayBuffer`: a vector of bytes with a readable part between two
indices.
-/

namespace RProxy

/-! How the statements of a call act on the state it is made in. -/

section Calls

variable {Fault State Value Other : Type} (state : State)

/-- A call that throws leaves the state that it has come to. -/
def stateOf : EStateM.Result Fault State Value → State
  | .ok _ state => state
  | .error _ state => state

theorem get_bind (next : State → EStateM Fault State Value) :
    (get >>= next) state = next state state := rfl

theorem set_bind (stored : State) (next : PUnit → EStateM Fault State Value) :
    (set stored >>= next) state = next () stored := rfl

theorem modify_bind (change : State → State) (next : PUnit → EStateM Fault State Value) :
    (modify change >>= next) state = next () (change state) := rfl

theorem throw_apply (fault : Fault) :
    (throw fault : EStateM Fault State Value) state = .error fault state := rfl

theorem pure_apply (value : Value) :
    (pure value : EStateM Fault State Value) state = .ok value state := rfl

variable {state}

theorem bind_of_ok {first : EStateM Fault State Other} {value : Other} {after : State}
    (returned : first state = .ok value after) (next : Other → EStateM Fault State Value) :
    (first >>= next) state = next value after := by
  change EStateM.bind first next state = _
  rw [EStateM.bind, returned]

theorem bind_of_error {first : EStateM Fault State Other} {fault : Fault} {after : State}
    (threw : first state = .error fault after) (next : Other → EStateM Fault State Value) :
    (first >>= next) state = .error fault after := by
  change EStateM.bind first next state = _
  rw [EStateM.bind, threw]

variable (state)

theorem branch_apply (condition : Prop) [Decidable condition]
    (yes no : EStateM Fault State Value) :
    (if condition then yes else no) state = if condition then yes state else no state := by
  by_cases holds : condition
  · rw [if_pos holds, if_pos holds]
  · rw [if_neg holds, if_neg holds]

end Calls

/-- `buffer_`, with its two indices in `size_t` arithmetic. -/
structure ArrayBuffer where
  readerIndex : Nat
  writerIndex : Nat
  buffer : List Byte

namespace ArrayBuffer

def packetSize : Nat := 40960
def prepend : Nat := 0

def new (initSize : Nat) : ArrayBuffer := ⟨prepend, prepend, List.replicate initSize 0⟩

def swap (buf other : ArrayBuffer) : ArrayBuffer × ArrayBuffer :=
  (⟨other.readerIndex, other.writerIndex, other.buffer⟩,
    ⟨buf.readerIndex, buf.writerIndex, buf.buffer⟩)

def readableBytes (buf : ArrayBuffer) : Nat :=
  (2 ^ 64 + buf.writerIndex - buf.readerIndex) % 2 ^ 64

def retrieveAll (buf : ArrayBuffer) : ArrayBuffer :=
  { buf with readerIndex := prepend, writerIndex := prepend }

def retrieve (buf : ArrayBuffer) (len : Nat) : Except Fault ArrayBuffer :=
  if buf.readableBytes < len then .error .logicError
  else if len < buf.readableBytes then
    .ok { buf with readerIndex := (buf.readerIndex + len) % 2 ^ 64 }
  else .ok buf.retrieveAll

def writableBytes (buf : ArrayBuffer) : Nat :=
  (2 ^ 64 + buf.buffer.length - buf.writerIndex) % 2 ^ 64

def prependableBytes (buf : ArrayBuffer) : Nat := buf.readerIndex

def hasWritten (buf : ArrayBuffer) (len : Nat) : Except Fault ArrayBuffer :=
  if buf.writableBytes < len then .error .logicError
  else .ok { buf with writerIndex := (buf.writerIndex + len) % 2 ^ 64 }

/-- `buffer_.max_size()` -/
def maxSize : Nat := 2 ^ 63 - 1

/-- `buffer_.resize(size)`, which throws before it changes anything; `granted`
says whether an allocation succeeds. -/
def resize (buf : ArrayBuffer) (size : Nat) (granted : Bool) : Except Fault ArrayBuffer :=
  if maxSize < size then .error .lengthError
  else if buf.buffer.length < size ∧ granted = false then .error .badAlloc
  else .ok { buf with
    buffer := buf.buffer.take size ++ List.replicate (size - buf.buffer.length) 0 }

/-- `std::copy` of some bytes to `begin() + index`. -/
def copyTo (buf : ArrayBuffer) (index : Nat) (data : List Byte) : ArrayBuffer :=
  { buf with
    buffer := buf.buffer.take index ++ data ++ buf.buffer.drop (index + data.length) }

/-- The bytes in `[peek(), beginWrite())`. -/
def content (buf : ArrayBuffer) : List Byte :=
  (buf.buffer.take buf.writerIndex).drop buf.readerIndex

/-- The readable part is copied to the front. -/
def compact (buf : ArrayBuffer) : ArrayBuffer :=
  { buf.copyTo prepend buf.content with
    readerIndex := prepend
    writerIndex := (prepend + buf.readableBytes) % 2 ^ 64 }

/-! A call that throws leaves the buffer as it is then. -/

abbrev Call := EStateM Fault ArrayBuffer

namespace Call

/-- A function that throws before its first assignment. -/
def throwing (change : ArrayBuffer → Except Fault ArrayBuffer) : Call Unit := fun buf =>
  match change buf with
  | .error fault => .error fault buf
  | .ok next => .ok () next

/-- `&*buffer_.begin()`, on which `peek()` and `beginWrite()` rest too. An empty vector
has no first element; with the checked containers of the build that is an abort. -/
def begin : Call Unit := do
  let buf ← get
  if buf.buffer = [] then throw .undefined

def retrieve (len : Nat) : Call Unit := throwing (·.retrieve len)

/-- `end` is at `peek() + distance`. -/
def retrieveUntil (distance : Int) : Call Unit := do
  begin
  let buf ← get
  if distance < 0 ∨ (buf.writerIndex : Int) < buf.readerIndex + distance then throw .logicError
  else retrieve distance.toNat

def retrieveAsString (len : Nat) (granted : Bool) : Call (List Byte) := do
  let buf ← get
  if buf.readableBytes < len then throw .logicError
  else
    begin
    if granted = false then throw .badAlloc
    else
      let result := (buf.buffer.drop buf.readerIndex).take len
      retrieve len
      return result

def retrieveAllAsString (granted : Bool) : Call (List Byte) := do
  let buf ← get
  retrieveAsString buf.readableBytes granted

def retrieveInt64 : Call Unit := retrieve 8
def retrieveInt32 : Call Unit := retrieve 4
def retrieveInt16 : Call Unit := retrieve 2
def retrieveInt8 : Call Unit := retrieve 1

def makeSpace (len : Nat) (granted : Bool) : Call Unit := do
  let buf ← get
  if (buf.writableBytes + buf.prependableBytes) % 2 ^ 64 < (len + prepend) % 2 ^ 64 then
    throwing (·.resize ((buf.writerIndex + len) % 2 ^ 64) granted)
  else
    begin
    set buf.compact
    let moved ← get
    if buf.readableBytes ≠ moved.readableBytes then throw .logicError

def ensureWritableBytes (len : Nat) (granted : Bool) : Call Unit := do
  let buf ← get
  if buf.writableBytes < len then makeSpace len granted

/-- The bytes of a null pointer are `none`. -/
def append (data : Option (List Byte)) (granted : Bool) : Call Unit :=
  match data with
  | none => throw .logicError
  | some data => do
      ensureWritableBytes data.length granted
      begin
      modify fun buf => buf.copyTo buf.writerIndex data
      throwing (·.hasWritten data.length)

/-- Bytes put at `beginWrite()` by the caller, and then `hasWritten`. -/
def write (data : List Byte) : Call Unit := do
  begin
  modify fun buf => buf.copyTo buf.writerIndex data
  throwing (·.hasWritten data.length)

end Call

/-- The indices are in order and inside the vector. -/
structure Valid (buf : ArrayBuffer) : Prop where
  ordered : buf.readerIndex ≤ buf.writerIndex
  inside : buf.writerIndex ≤ buf.buffer.length
  bounded : buf.buffer.length ≤ maxSize

/-- There is room for `len` more bytes, with what has been consumed, or the vector can
have it. -/
def Room (buf : ArrayBuffer) (len : Nat) (granted : Bool) : Prop :=
  len ≤ buf.writableBytes + buf.prependableBytes ∨
    (granted = true ∧ buf.writerIndex + len ≤ maxSize)

instance (buf : ArrayBuffer) (len : Nat) (granted : Bool) : Decidable (buf.Room len granted) :=
  inferInstanceAs (Decidable (_ ∨ _))

/-- There is no room for `len` more bytes and none to be had: why a call throws. -/
def Refuses (buf : ArrayBuffer) (len : Nat) (granted : Bool) : Fault → Prop
  | .badAlloc => buf.writableBytes + buf.prependableBytes < len ∧ granted = false
  | .lengthError =>
      buf.writableBytes + buf.prependableBytes < len ∧ maxSize < buf.writerIndex + len
  | _ => False

theorem Refuses.not_undefined {buf : ArrayBuffer} {len : Nat} {granted : Bool} {fault : Fault}
    (refuses : buf.Refuses len granted fault) : fault ≠ .undefined := by
  rintro rfl
  exact refuses

theorem Refuses.cause {buf : ArrayBuffer} {len : Nat} {granted : Bool} {fault : Fault}
    (refuses : buf.Refuses len granted fault) :
    buf.writableBytes + buf.prependableBytes < len ∧
      (granted = false ∨ maxSize < buf.writerIndex + len) := by
  cases fault with
  | badAlloc => exact ⟨refuses.1, Or.inl refuses.2⟩
  | lengthError => exact ⟨refuses.1, Or.inr refuses.2⟩
  | _ => cases refuses

theorem Refuses.no_room {buf : ArrayBuffer} {len : Nat} {granted : Bool} {fault : Fault}
    (refuses : buf.Refuses len granted fault) : ¬ buf.Room len granted := by
  obtain ⟨short, noMemory | tooLarge⟩ := refuses.cause
  · rintro (fits | ⟨memory, _⟩)
    · omega
    · rw [noMemory] at memory
      cases memory
  · rintro (fits | ⟨_, bounded⟩)
    · omega
    · omega

@[simp] theorem new_readable (initSize : Nat) : (new initSize).readableBytes = 0 := by
  simp [new, readableBytes, prepend]

@[simp] theorem new_content (initSize : Nat) : (new initSize).content = [] := by
  simp [new, content, prepend]

theorem new_valid {initSize : Nat} (fits : initSize ≤ maxSize) : (new initSize).Valid :=
  ⟨Nat.le_refl _, Nat.zero_le _, by simpa [new] using fits⟩

theorem packet_valid : (new packetSize).Valid := new_valid (by decide)

section Specifications

variable {buf : ArrayBuffer}

theorem Valid.indices (valid : buf.Valid) :
    buf.readerIndex ≤ buf.writerIndex ∧ buf.writerIndex ≤ buf.buffer.length ∧
      buf.buffer.length < 2 ^ 63 := by
  have bounded := valid.bounded
  rw [maxSize] at bounded
  exact ⟨valid.ordered, valid.inside, by omega⟩

theorem Valid.readable (valid : buf.Valid) :
    buf.readableBytes = buf.writerIndex - buf.readerIndex := by
  obtain ⟨ordered, inside, bounded⟩ := valid.indices
  rw [readableBytes]
  omega

theorem Valid.writable (valid : buf.Valid) :
    buf.writableBytes = buf.buffer.length - buf.writerIndex := by
  obtain ⟨-, inside, bounded⟩ := valid.indices
  rw [writableBytes]
  omega

theorem new_writable {initSize : Nat} (bounded : initSize ≤ maxSize) :
    (new initSize).writableBytes = initSize := by
  have size : (new initSize).buffer.length = initSize := List.length_replicate
  rw [(new_valid bounded).writable, size]
  rfl

/-- A vector with room or with something readable is not empty. -/
theorem Valid.nonempty (valid : buf.Valid)
    (some_byte : 0 < buf.writableBytes ∨ 0 < buf.content.length) : buf.buffer ≠ [] := by
  intro empty
  have inside := valid.inside
  rw [valid.writable, content, empty] at some_byte
  simp at some_byte

theorem Valid.content_length (valid : buf.Valid) : buf.content.length = buf.readableBytes := by
  have inside := valid.inside
  rw [valid.readable, content, List.length_drop, List.length_take]
  omega

@[simp] theorem retrieve_all_content (buf : ArrayBuffer) : buf.retrieveAll.content = [] := by
  simp [retrieveAll, content, prepend]

theorem retrieve_all_valid (valid : buf.Valid) : buf.retrieveAll.Valid :=
  ⟨Nat.le_refl _, Nat.zero_le _, valid.bounded⟩

theorem retrieve_refuses (valid : buf.Valid) {len : Nat} (tooMany : buf.content.length < len) :
    buf.retrieve len = .error .logicError := by
  rw [valid.content_length] at tooMany
  rw [retrieve, if_pos tooMany]

theorem retrieve_drops (valid : buf.Valid) {len : Nat} (fits : len ≤ buf.content.length) :
    ∃ next, buf.retrieve len = .ok next ∧ next.Valid ∧ next.content = buf.content.drop len := by
  obtain ⟨ordered, inside, bounded⟩ := valid.indices
  rw [valid.content_length] at fits
  rcases Nat.lt_or_eq_of_le fits with less | all
  · refine ⟨{ buf with readerIndex := buf.readerIndex + len }, ?_, ?_, ?_⟩
    · have small : (buf.readerIndex + len) % 2 ^ 64 = buf.readerIndex + len := by
        rw [valid.readable] at less
        omega
      rw [retrieve, if_neg (Nat.not_lt.mpr fits), if_pos less, small]
    · rw [valid.readable] at less
      exact ⟨by simp only; omega, valid.inside, valid.bounded⟩
    · simp only [content, List.drop_drop]
  · refine ⟨buf.retrieveAll, ?_, retrieve_all_valid valid, ?_⟩
    · rw [retrieve, if_neg (Nat.not_lt.mpr fits), if_neg (by omega)]
    · rw [retrieve_all_content, all, ← valid.content_length, List.drop_length]

theorem copy_length {index : Nat} {data : List Byte}
    (fits : index + data.length ≤ buf.buffer.length) :
    (buf.copyTo index data).buffer.length = buf.buffer.length := by
  simp only [copyTo, List.length_append, List.length_take, List.length_drop]
  omega

/-- Bytes copied no further than `beginWrite()` and counted by `hasWritten`. -/
theorem copy_has_written (valid : buf.Valid) {index : Nat} {data : List Byte}
    (before : index ≤ buf.writerIndex) (room : data.length ≤ buf.writableBytes) :
    ∃ next, (buf.copyTo index data).hasWritten data.length = .ok next ∧ next.Valid ∧
      next.content = ((buf.copyTo index data).buffer.take
        (buf.writerIndex + data.length)).drop buf.readerIndex := by
  obtain ⟨-, inside, bounded⟩ := valid.indices
  have fits := room
  rw [valid.writable] at fits
  have size : (buf.copyTo index data).buffer.length = buf.buffer.length :=
    copy_length (by omega)
  have same : (buf.copyTo index data).writableBytes = buf.writableBytes := by
    rw [writableBytes, size, writableBytes]
    rfl
  have small : (buf.writerIndex + data.length) % 2 ^ 64 = buf.writerIndex + data.length := by omega
  refine ⟨{ buf.copyTo index data with writerIndex := buf.writerIndex + data.length },
    ?_, ⟨?_, ?_, ?_⟩, rfl⟩
  · rw [hasWritten, same, if_neg (Nat.not_lt.mpr room)]
    simp only [copyTo, small]
  · exact Nat.le_trans valid.ordered (Nat.le_add_right _ _)
  · simp only [size]
    omega
  · simpa only [size] using valid.bounded

/-- Bytes written behind the readable part, once there is room. -/
theorem written_appends (valid : buf.Valid) {data : List Byte}
    (room : data.length ≤ buf.writableBytes) :
    ∃ next, (buf.copyTo buf.writerIndex data).hasWritten data.length = .ok next ∧ next.Valid ∧
      next.content = buf.content ++ data := by
  obtain ⟨next, written, nextValid, same⟩ := copy_has_written valid (Nat.le_refl _) room
  refine ⟨next, written, nextValid, ?_⟩
  have ordered := valid.ordered
  have front : (buf.buffer.take buf.writerIndex).length = buf.writerIndex := by
    rw [List.length_take]
    exact Nat.min_eq_left valid.inside
  rw [same, content, copyTo]
  simp only
  rw [List.take_append_of_le_length (by simp [front]), List.take_of_length_le (by simp [front]),
    List.drop_append_of_le_length (by simpa [front] using ordered)]

theorem resize_grows (valid : buf.Valid) {size : Nat} (larger : buf.buffer.length ≤ size)
    (granted : Bool) :
    ((maxSize < size ∧ buf.resize size granted = .error .lengthError) ∨
      (granted = false ∧ buf.resize size granted = .error .badAlloc)) ∨
      ∃ next, buf.resize size granted = .ok next ∧ next.Valid ∧ next.content = buf.content ∧
        next.writableBytes = size - buf.writerIndex := by
  have inside := valid.inside
  rw [resize]
  split
  · next tooLarge => exact Or.inl (Or.inl ⟨tooLarge, rfl⟩)
  · next bounded =>
      split
      · next noMemory => exact Or.inl (Or.inr ⟨noMemory.2, rfl⟩)
      · have length : (buf.buffer.take size ++
            List.replicate (size - buf.buffer.length) (0 : Byte)).length = size := by
          rw [List.length_append, List.length_take, List.length_replicate]
          omega
        have grown : ArrayBuffer.Valid ⟨buf.readerIndex, buf.writerIndex,
            buf.buffer.take size ++ List.replicate (size - buf.buffer.length) 0⟩ :=
          ⟨valid.ordered, by simp only [length]; omega, by simp only [length]; omega⟩
        refine Or.inr ⟨_, rfl, grown, ?_, ?_⟩
        · rw [content, List.take_of_length_le larger, List.take_append_of_le_length inside, content]
        · rw [grown.writable, length]

theorem compact_keeps (valid : buf.Valid) :
    buf.compact.Valid ∧ buf.compact.content = buf.content ∧
      buf.compact.buffer.length = buf.buffer.length ∧
      buf.compact.writerIndex = buf.readableBytes := by
  obtain ⟨ordered, inside, bounded⟩ := valid.indices
  have length := valid.content_length
  have readable := valid.readable
  have small : buf.compact.writerIndex = buf.readableBytes := by
    simp only [compact, prepend]
    omega
  have size : buf.compact.buffer.length = buf.buffer.length :=
    copy_length (by rw [prepend]; omega)
  refine ⟨⟨Nat.zero_le _, ?_, ?_⟩, ?_, size, small⟩
  · rw [small, size]
    omega
  · rw [size]
    exact valid.bounded
  · rw [content, small, ← length]
    simp [compact, copyTo, prepend]

namespace Call

theorem throwing_ok {change : ArrayBuffer → Except Fault ArrayBuffer} {next : ArrayBuffer}
    (changed : change buf = .ok next) : throwing change buf = .ok () next := by
  rw [throwing, changed]

theorem throwing_error {change : ArrayBuffer → Except Fault ArrayBuffer} {fault : Fault}
    (threw : change buf = .error fault) : throwing change buf = .error fault buf := by
  rw [throwing, threw]

theorem begin_ok (nonempty : buf.buffer ≠ []) : begin buf = .ok () buf := by
  rw [begin, get_bind, branch_apply, if_neg nonempty, pure_apply]

theorem begin_empty (empty : buf.buffer = []) : begin buf = .error .undefined buf := by
  rw [begin, get_bind, branch_apply, if_pos empty, throw_apply]

theorem retrieve_spec (valid : buf.Valid) (len : Nat) :
    if len ≤ buf.content.length then
      ∃ next, retrieve len buf = .ok () next ∧ next.Valid ∧ next.content = buf.content.drop len
    else retrieve len buf = .error .logicError buf := by
  split
  · next fits =>
      obtain ⟨next, retrieved, nextValid, rest⟩ := retrieve_drops valid fits
      exact ⟨next, throwing_ok retrieved, nextValid, rest⟩
  · next tooMany => exact throwing_error (retrieve_refuses valid (Nat.lt_of_not_le tooMany))

theorem retrieve_until_spec (valid : buf.Valid) (nonempty : buf.buffer ≠ []) (distance : Int) :
    if 0 ≤ distance ∧ distance ≤ buf.content.length then
      ∃ next, retrieveUntil distance buf = .ok () next ∧ next.Valid ∧
        next.content = buf.content.drop distance.toNat
    else retrieveUntil distance buf = .error .logicError buf := by
  have ordered := valid.ordered
  have length := valid.content_length
  rw [valid.readable] at length
  rw [retrieveUntil, bind_of_ok (begin_ok nonempty), get_bind, branch_apply, throw_apply]
  split
  · next inside =>
      have spec := retrieve_spec valid distance.toNat
      rw [if_pos (by omega)] at spec
      rwa [if_neg (by omega)]
  · next outside =>
      rw [if_pos (by omega)]

theorem retrieve_as_string_spec (valid : buf.Valid) (len : Nat) (granted : Bool)
    (based : buf.buffer ≠ [] ∨ 0 < len) :
    if len ≤ buf.content.length then
      (granted = false ∧ retrieveAsString len granted buf = .error .badAlloc buf) ∨
        ∃ next, retrieveAsString len granted buf = .ok (buf.content.take len) next ∧ next.Valid ∧
          next.content = buf.content.drop len
    else retrieveAsString len granted buf = .error .logicError buf := by
  have length := valid.content_length
  rw [retrieveAsString, get_bind, branch_apply, throw_apply]
  split
  · next fits =>
      obtain ⟨next, retrieved, nextValid, rest⟩ := retrieve_drops valid fits
      have returned : retrieve len buf = .ok () next := throwing_ok retrieved
      have result : (buf.buffer.drop buf.readerIndex).take len = buf.content.take len := by
        rw [content, List.drop_take, List.take_take, Nat.min_eq_left]
        rw [← valid.readable]
        omega
      have nonempty : buf.buffer ≠ [] :=
        based.elim id fun positive => valid.nonempty (Or.inr (by omega))
      rw [if_neg (by omega), bind_of_ok (begin_ok nonempty), branch_apply, throw_apply,
        bind_of_ok returned, pure_apply, result]
      cases granted with
      | false => exact Or.inl ⟨rfl, if_pos rfl⟩
      | true => exact Or.inr ⟨next, if_neg Bool.noConfusion, nextValid, rest⟩
  · next tooMany => rw [if_pos (by omega)]

theorem make_space_spec (valid : buf.Valid) {len : Nat} (short : buf.writableBytes < len)
    (noWrap : buf.writerIndex + len < 2 ^ 64) (granted : Bool) :
    (∃ fault, buf.Refuses len granted fault ∧ makeSpace len granted buf = .error fault buf) ∨
      ∃ next, makeSpace len granted buf = .ok () next ∧ next.Valid ∧
        next.content = buf.content ∧ len ≤ next.writableBytes := by
  obtain ⟨ordered, inside, bounded⟩ := valid.indices
  have writable := valid.writable
  have small : (buf.writerIndex + len) % 2 ^ 64 = buf.writerIndex + len := Nat.mod_eq_of_lt noWrap
  rw [makeSpace, get_bind, branch_apply]
  split
  · next full =>
    have larger : buf.buffer.length ≤ buf.writerIndex + len := by omega
    have short : buf.writableBytes + buf.prependableBytes < len := by
      simp only [prependableBytes, prepend] at full ⊢
      omega
    rw [small]
    rcases resize_grows valid larger granted with
      (⟨tooLarge, refused⟩ | ⟨noMemory, refused⟩) | ⟨next, resized, nextValid, same, room⟩
    · exact Or.inl ⟨.lengthError, ⟨short, tooLarge⟩, throwing_error refused⟩
    · exact Or.inl ⟨.badAlloc, ⟨short, noMemory⟩, throwing_error refused⟩
    · refine Or.inr ⟨next, throwing_ok resized, nextValid, same, ?_⟩
      rw [room]
      omega
  · next enough =>
      obtain ⟨nextValid, same, size, moved⟩ := compact_keeps valid
      have kept : buf.readableBytes = buf.compact.readableBytes := by
        rw [← nextValid.content_length, same, valid.content_length]
      simp only [prependableBytes, prepend] at enough
      -- there is a consumed part to move into
      have nonempty : buf.buffer ≠ [] := List.ne_nil_of_length_pos (by omega)
      rw [bind_of_ok (begin_ok nonempty), set_bind, get_bind, branch_apply, throw_apply, pure_apply,
        if_neg (fun differs => differs kept)]
      refine Or.inr ⟨buf.compact, rfl, nextValid, same, ?_⟩
      have readable := valid.readable
      rw [nextValid.writable, size, moved]
      omega

theorem ensure_writable_spec (valid : buf.Valid) {len : Nat}
    (noWrap : buf.writerIndex + len < 2 ^ 64) (granted : Bool) :
    (∃ fault, buf.Refuses len granted fault ∧
      ensureWritableBytes len granted buf = .error fault buf) ∨
      ∃ next, ensureWritableBytes len granted buf = .ok () next ∧ next.Valid ∧
        next.content = buf.content ∧ len ≤ next.writableBytes := by
  rw [ensureWritableBytes, get_bind, branch_apply, pure_apply]
  split
  · next short => exact make_space_spec valid short noWrap granted
  · next room => exact Or.inr ⟨buf, rfl, valid, rfl, Nat.le_of_not_lt room⟩

theorem write_spec (valid : buf.Valid) (nonempty : buf.buffer ≠ []) {data : List Byte}
    (room : data.length ≤ buf.writableBytes) :
    ∃ next, write data buf = .ok () next ∧ next.Valid ∧ next.content = buf.content ++ data := by
  obtain ⟨next, written, nextValid, appended⟩ := written_appends valid room
  refine ⟨next, ?_, nextValid, appended⟩
  rw [write, bind_of_ok (begin_ok nonempty), modify_bind]
  exact throwing_ok written

theorem append_unfold (data : List Byte) (granted : Bool) : append (some data) granted =
    (ensureWritableBytes data.length granted >>= fun _ => write data) := rfl

theorem ensure_nothing (buf : ArrayBuffer) (granted : Bool) :
    ensureWritableBytes 0 granted buf = .ok () buf := by
  rw [ensureWritableBytes, get_bind, branch_apply, if_neg (Nat.not_lt_zero _), pure_apply]

/-- Data that is not null is appended, unless there is no memory for it. -/
theorem append_spec (valid : buf.Valid) {data : List Byte}
    (noWrap : buf.writerIndex + data.length < 2 ^ 64) (granted : Bool)
    (based : buf.buffer ≠ [] ∨ data ≠ []) :
    (∃ fault, buf.Refuses data.length granted fault ∧
      append (some data) granted buf = .error fault buf) ∨
      ∃ next, append (some data) granted buf = .ok () next ∧ next.Valid ∧
        next.content = buf.content ++ data := by
  rw [append_unfold]
  by_cases nothing : data = []
  · subst nothing
    have nonempty := based.resolve_right fun other => other rfl
    obtain ⟨next, written, nextValid, appended⟩ :=
      write_spec valid nonempty (show ([] : List Byte).length ≤ _ from Nat.zero_le _)
    exact Or.inr ⟨next, (bind_of_ok (ensure_nothing buf granted) _).trans written, nextValid,
      appended⟩
  · rcases ensure_writable_spec valid noWrap granted with
      ⟨fault, cause, refused⟩ | ⟨middle, ensured, middleValid, same, room⟩
    · exact Or.inl ⟨fault, cause, bind_of_error refused _⟩
    · have positive := List.length_pos_iff.mpr nothing
      have nonempty := middleValid.nonempty (Or.inl (Nat.lt_of_lt_of_le positive room))
      obtain ⟨next, written, nextValid, appended⟩ := write_spec middleValid nonempty room
      rw [bind_of_ok ensured]
      exact Or.inr ⟨next, written, nextValid, by rw [appended, same]⟩

/-- Without room nothing is appended. -/
theorem append_full (valid : buf.Valid) {data : List Byte}
    (noWrap : buf.writerIndex + data.length < 2 ^ 64) {granted : Bool}
    (full : ¬ buf.Room data.length granted) :
    ∃ fault, append (some data) granted buf = .error fault buf := by
  have ordered := valid.ordered
  have writable := valid.writable
  have inside := valid.inside
  rw [Room, not_or, Nat.not_le] at full
  obtain ⟨short, dear⟩ := full
  have large : (buf.writableBytes + buf.prependableBytes) % 2 ^ 64 <
      (data.length + prepend) % 2 ^ 64 := by
    simp only [prependableBytes, prepend] at short ⊢
    omega
  have refused : ∃ fault, buf.resize (buf.writerIndex + data.length) granted = .error fault := by
    rw [resize]
    split
    · exact ⟨.lengthError, rfl⟩
    · next bounded =>
        have noMemory : granted = false := by
          rw [← Bool.not_eq_true]
          exact fun memory => dear ⟨memory, Nat.le_of_not_lt bounded⟩
        rw [if_pos ⟨by omega, noMemory⟩]
        exact ⟨.badAlloc, rfl⟩
  obtain ⟨fault, threw⟩ := refused
  refine ⟨fault, bind_of_error ?_ _⟩
  rw [ensureWritableBytes, get_bind, branch_apply, if_pos (by omega), makeSpace, get_bind,
    branch_apply, if_pos large, Nat.mod_eq_of_lt noWrap]
  exact throwing_error threw

/-- An empty vector has no place for nothing either. -/
theorem append_empty (empty : buf.buffer = []) (granted : Bool) :
    append (some []) granted buf = .error .undefined buf := by
  rw [append_unfold]
  exact (bind_of_ok (ensure_nothing buf granted) _).trans (bind_of_error (begin_empty empty) _)

/-- A new buffer that is too small is not enlarged without memory. -/
theorem append_new_refused {initSize : Nat} {data : List Byte} (larger : initSize < data.length)
    (fits : data.length < 2 ^ 63) :
    append (some data) false (.new initSize) = .error .badAlloc (.new initSize) := by
  have bounded : initSize ≤ maxSize := by
    rw [maxSize]
    omega
  have size : (ArrayBuffer.new initSize).buffer.length = initSize := List.length_replicate
  have writable := new_writable bounded
  have grown : (0 + data.length) % 2 ^ 64 = data.length := by omega
  have refused : (ArrayBuffer.new initSize).resize data.length false = .error .badAlloc := by
    rw [resize, if_neg (by rw [maxSize]; omega), if_pos ⟨by rw [size]; exact larger, rfl⟩]
  have threw : ensureWritableBytes data.length false (.new initSize) =
      .error .badAlloc (.new initSize) := by
    rw [ensureWritableBytes, get_bind, branch_apply, if_pos (by rw [writable]; exact larger),
      makeSpace, get_bind, branch_apply, if_pos]
    · apply throwing_error
      simp only [new, prepend] at refused ⊢
      rw [grown]
      exact refused
    · rw [writable]
      simp only [prependableBytes, new, prepend]
      omega
  exact bind_of_error threw _

end Call
end Specifications
end ArrayBuffer

end RProxy
