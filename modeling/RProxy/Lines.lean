import RProxy.Framing
import RProxy.Outgoing
import RProxy.Space

/-!
Lines taken out of an `ArrayBuffer` between the calls of `append` that fill it:
`findEOL` searches what is readable, and the line up to there is retrieved, as
long as there is one.
-/

namespace RProxy.Lines

open ArrayBuffer Call

def eol : Byte := 10

/-- `memchr(peek(), '\n', readableBytes())`, as the distance from `peek()`. -/
def findEOL : Call (Option Nat) := do
  begin
  let buf ← get
  return ((buf.buffer.drop buf.readerIndex).take buf.readableBytes).idxOf? eol

/-- `while (findEOL()) lines.push_back(retrieveAsString(findEOL() + 1 - peek()));`
Each line takes at least one byte, so more `fuel` than there are readable bytes is
not used up. -/
def takeLines (granted : Bool) : Nat → Call (List (List Byte))
  | 0 => return []
  | fuel + 1 => do
      match ← findEOL with
      | none => return []
      | some distance =>
          let line ← Call.retrieveAsString (distance + 1) granted
          let more ← takeLines granted fuel
          return line :: more

def feed (granted : Bool) : List (List Byte) → Call (List (List Byte))
  | [] => return []
  | chunk :: rest => do
      Call.append (some chunk) granted
      let buf ← get
      let lines ← takeLines granted (buf.readableBytes + 1)
      let more ← feed granted rest
      return lines ++ more

section Loop

variable {buf : ArrayBuffer}

theorem find_eol_spec (valid : buf.Valid) (nonempty : buf.buffer ≠ []) :
    findEOL buf = .ok (buf.content.idxOf? eol) buf := by
  rw [findEOL, bind_of_ok (begin_ok nonempty), get_bind, pure_apply, content, List.drop_take,
    valid.readable]

theorem find_eol_empty (empty : buf.buffer = []) : findEOL buf = .error .undefined buf :=
  bind_of_error (begin_empty empty) _

/-- The line that is found, and what is readable after it. -/
theorem find_eol_cut {distance : Nat} (found : buf.content.idxOf? eol = some distance) :
    distance + 1 ≤ buf.content.length ∧ ∃ body, eol ∉ body ∧
      buf.content.take (distance + 1) = body ++ [eol] := by
  rw [List.idxOf?_eq_some_iff] at found
  obtain ⟨inside, here, before⟩ := found
  refine ⟨inside, buf.content.take distance, ?_, ?_⟩
  · intro early
    obtain ⟨i, less, same⟩ := List.mem_take_iff_getElem.mp early
    exact before i (by omega) same
  · rw [List.take_succ_eq_append_getElem inside, here]

/-- A line that is found can be retrieved, and the vector stays as large as it was. -/
theorem retrieve_line_spec (granted : Bool) (valid : buf.Valid) (nonempty : buf.buffer ≠ [])
    {distance : Nat} (found : buf.content.idxOf? eol = some distance) :
    (granted = false ∧
        Call.retrieveAsString (distance + 1) granted buf = .error .badAlloc buf) ∨
      ∃ next, Call.retrieveAsString (distance + 1) granted buf =
          .ok (buf.content.take (distance + 1)) next ∧
        next.Valid ∧ next.buffer ≠ [] ∧ next.content = buf.content.drop (distance + 1) := by
  have spec := Call.retrieve_as_string_spec valid (distance + 1) granted (Or.inl nonempty)
  rw [if_pos (find_eol_cut found).1] at spec
  rcases spec with refused | ⟨next, returned, nextValid, rest⟩
  · exact Or.inl refused
  · have same := @Space.retrieve_as_string_buffer buf (distance + 1) granted
    rw [returned] at same
    exact Or.inr ⟨next, returned, nextValid, ne_of_eq_of_ne same nonempty, rest⟩

/-- All complete lines are taken, in order, unless a string gets no memory. -/
theorem take_lines_spec (granted : Bool) (fuel : Nat) (valid : buf.Valid)
    (nonempty : buf.buffer ≠ []) (enough : buf.content.length < fuel) :
    (granted = false ∧ ∃ next, takeLines granted fuel buf = .error .badAlloc next) ∨
      ∃ lines next, takeLines granted fuel buf = .ok lines next ∧ next.Valid ∧
        next.buffer ≠ [] ∧ Framed eol buf.content lines next.content := by
  induction fuel generalizing buf with
  | zero => exact absurd enough (Nat.not_lt_zero _)
  | succ fuel ih =>
      rw [takeLines, bind_of_ok (find_eol_spec valid nonempty)]
      cases found : buf.content.idxOf? eol with
      | none =>
          rw [List.idxOf?_eq_none_iff] at found
          exact Or.inr ⟨[], buf, rfl, valid, nonempty, Framed.of_not_mem found⟩
      | some distance =>
          obtain ⟨inside, body, plain, line⟩ := find_eol_cut found
          simp only
          rcases retrieve_line_spec granted valid nonempty found with
            ⟨short, refused⟩ | ⟨next, returned, nextValid, kept, rest⟩
          · exact Or.inl ⟨short, buf, bind_of_error refused _⟩
          · rw [bind_of_ok returned]
            have shorter : next.content.length < fuel := by
              rw [rest, List.length_drop]
              omega
            rcases ih nextValid kept shorter with
              ⟨short, last, threw⟩ | ⟨more, last, took, lastValid, lastKept, framed⟩
            · exact Or.inl ⟨short, last, bind_of_error threw _⟩
            · refine Or.inr ⟨_, last, bind_of_ok took _, lastValid, lastKept, ?_⟩
              have whole : buf.content = body ++ eol :: next.content := by
                rw [← List.take_append_drop (distance + 1) buf.content, line, rest]
                simp
              rw [line, whole]
              exact framed.cons plain

/-- The lines taken so far and what is left, or an allocation that failed. -/
def Extracted (granted : Bool) (text : List Byte) :
    EStateM.Result Fault ArrayBuffer (List (List Byte)) → Prop
  | .ok lines next => next.Valid ∧ Framed eol text lines next.content
  | .error fault _ => fault ≠ .undefined ∧ (granted = false ∨ maxSize < 2 * text.length)

/-- The first chunk is not nothing for a vector that is nothing. -/
def Started (buf : ArrayBuffer) (chunks : List (List Byte)) : Prop :=
  buf.buffer ≠ [] ∨ chunks.head? ≠ some []

instance (buf : ArrayBuffer) (chunks : List (List Byte)) : Decidable (Started buf chunks) :=
  inferInstanceAs (Decidable (_ ∨ _))

theorem feed_spec (granted : Bool) (chunks : List (List Byte)) (valid : buf.Valid)
    (started : Started buf chunks) (unfinished : eol ∉ buf.content)
    (fits : (buf.content ++ chunks.flatten).length ≤ maxSize) :
    Extracted granted (buf.content ++ chunks.flatten) (feed granted chunks buf) := by
  induction chunks generalizing buf with
  | nil =>
      rw [List.flatten_nil, List.append_nil]
      exact ⟨valid, Framed.of_not_mem unfinished⟩
  | cons chunk rest ih =>
      rw [List.flatten_cons, ← List.append_assoc] at fits ⊢
      have noWrap : buf.writerIndex + chunk.length < 2 ^ 64 := by
        have inside := valid.inside
        have bounded := valid.bounded
        rw [List.length_append, List.length_append] at fits
        rw [maxSize] at bounded fits
        omega
      have based : buf.buffer ≠ [] ∨ chunk ≠ [] := started.imp_right fun other same =>
        other (congrArg some same)
      rw [feed]
      rcases Space.append_cases valid noWrap granted with
        ⟨fault, threw⟩ | ⟨filled, returned, filledValid, appended, nonempty⟩
      · obtain ⟨defined, cause⟩ := Space.append_refused valid noWrap based threw
        rw [bind_of_error threw]
        refine ⟨defined, cause.imp_right fun large => ?_⟩
        rw [← valid.content_length] at large
        rw [List.length_append, List.length_append]
        omega
      · rw [bind_of_ok returned, get_bind]
        have enough : filled.content.length < filled.readableBytes + 1 :=
          Nat.lt_succ_of_le (Nat.le_of_eq filledValid.content_length)
        rcases take_lines_spec granted (filled.readableBytes + 1) filledValid nonempty enough with
          ⟨short, last, threw⟩ | ⟨lines, middle, took, middleValid, kept, framed⟩
        · rw [bind_of_error threw]
          exact ⟨Fault.noConfusion, Or.inl short⟩
        · rw [bind_of_ok took]
          rw [← appended] at fits ⊢
          have tail : (middle.content ++ rest.flatten).length ≤
              (filled.content ++ rest.flatten).length := by
            rw [← framed.joined]
            simp
          have later := ih middleValid (Or.inl kept) framed.unfinished (Nat.le_trans tail fits)
          cases ran : feed granted rest middle with
          | error fault last =>
              rw [ran] at later
              rw [bind_of_error ran]
              exact ⟨later.1, later.2.imp_right fun large => by omega⟩
          | ok more last =>
              rw [ran] at later
              rw [bind_of_ok ran]
              exact ⟨later.1, framed.append later.2⟩

theorem feed_text_iff (granted : Bool) (valid : buf.Valid) (empty : buf.content = [])
    (whole : Region) {chunks : List (List Byte)} (split : chunks.flatten = whole.1) :
    Extracted granted whole.1 (feed granted chunks buf) ↔ Started buf chunks := by
  constructor
  · intro extracted
    by_contra aborts
    obtain ⟨noVector, first⟩ : buf.buffer = [] ∧ chunks.head? = some [] := by
      simpa [Started] using aborts
    obtain ⟨rest, rfl⟩ := List.head?_eq_some_iff.mp first
    rw [feed, bind_of_error (append_empty noVector granted)] at extracted
    exact extracted.1 rfl
  · intro started
    have fits : (buf.content ++ chunks.flatten).length ≤ maxSize := by
      rw [empty, List.nil_append, split, maxSize]
      exact Nat.le_sub_one_of_lt whole.2
    have spec := feed_spec granted chunks valid started (by simp [empty]) fits
    rwa [empty, List.nil_append, split] at spec

/-- Both runs take the lines of the text, unless an allocation fails, and they take the
same and leave the same. -/
structure Agrees (granted : Bool) (text : List Byte)
    (first second : EStateM.Result Fault ArrayBuffer (List (List Byte))) : Prop where
  chunked : Extracted granted text first
  atOnce : Extracted granted text second
  same : ∀ lines next, first = .ok lines next → ∀ lines' next', second = .ok lines' next' →
    lines = lines' ∧ next.content = next'.content

/-- However a text is split into chunks, the same lines are taken and the same
bytes are left as when it is appended at once, exactly where neither run begins with
an `append` of nothing to a buffer without a vector. -/
theorem chunking_irrelevant_iff (whole : Region) (chunks : List (List Byte))
    (split : chunks.flatten = whole.1) {buf other : ArrayBuffer} (valid : buf.Valid)
    (empty : buf.content = []) (otherValid : other.Valid) (otherEmpty : other.content = [])
    (granted : Bool) :
    Agrees granted whole.1 (feed granted chunks buf) (feed granted [whole.1] other) ↔
      Started buf chunks ∧ Started other [whole.1] := by
  have chunked := feed_text_iff granted valid empty whole split
  have atOnce := feed_text_iff granted otherValid otherEmpty whole (List.flatten_singleton)
  constructor
  · intro agrees
    exact ⟨chunked.mp agrees.chunked, atOnce.mp agrees.atOnce⟩
  · rintro ⟨started, otherStarted⟩
    have extracted := chunked.mpr started
    have extractedAtOnce := atOnce.mpr otherStarted
    refine ⟨extracted, extractedAtOnce, fun lines next ran lines' next' ranAtOnce => ?_⟩
    rw [ran] at extracted
    rw [ranAtOnce] at extractedAtOnce
    exact extracted.2.unique extractedAtOnce.2

theorem split_line_taken :
    Agrees true [97, 10, 98] (feed true [[97], [10, 98]] (new 2))
      (feed true [[97, 10, 98]] (new 2)) :=
  (chunking_irrelevant_iff ⟨[97, 10, 98], by decide⟩ [[97], [10, 98]] rfl (new_valid (by decide))
    (new_content 2) (new_valid (by decide)) (new_content 2) true).mpr (by decide)

/-- A buffer without a vector takes the line at once, and not behind an empty chunk. -/
theorem empty_chunk_aborts : ¬ ∀ (whole : Region) (chunks : List (List Byte)) (initSize : Nat)
    (granted : Bool), chunks.flatten = whole.1 → initSize ≤ maxSize →
    Agrees granted whole.1 (feed granted chunks (new initSize))
      (feed granted [whole.1] (new initSize)) := by
  intro claim
  have agrees := claim ⟨[97, 10], by decide⟩ [[], [97, 10]] 0 true rfl (Nat.zero_le _)
  exact agrees.chunked.1 rfl

end Loop

/-- `findEOL(start)` with `start` at `peek() + distance`; what is found is given
as the distance from `peek()` too. -/
def findEOLFrom (distance : Int) : Call (Option Nat) := do
  begin
  let buf ← get
  if distance < 0 then throw .runtimeError
  else if (buf.writerIndex : Int) < buf.readerIndex + distance then throw .runtimeError
  else
    let start := buf.readerIndex + distance.toNat
    return (((buf.buffer.drop start).take (buf.writerIndex - start)).idxOf? eol).map
      (distance.toNat + ·)

/-- `takeLines` that begins its first search at `searched`. -/
def takeLinesFrom (granted : Bool) : Nat → Nat → Call (List (List Byte))
  | 0, _ => return []
  | fuel + 1, searched => do
      match ← findEOLFrom searched with
      | none => return []
      | some distance =>
          let line ← Call.retrieveAsString (distance + 1) granted
          -- what follows a line has not been searched
          let more ← takeLinesFrom granted fuel 0
          return line :: more

/-- `feed` that searches of each chunk only what it appends. -/
def feedFrom (granted : Bool) : List (List Byte) → Call (List (List Byte))
  | [] => return []
  | chunk :: rest => do
      let before ← get
      Call.append (some chunk) granted
      let buf ← get
      let lines ← takeLinesFrom granted (buf.readableBytes + 1) before.readableBytes
      let more ← feedFrom granted rest
      return lines ++ more

section Rescan

variable {buf : ArrayBuffer}

/-- Where `findEOL(start)` throws, and what it finds elsewhere. -/
theorem find_eol_from_content (valid : buf.Valid) (nonempty : buf.buffer ≠ []) (distance : Int) :
    findEOLFrom distance buf =
      if 0 ≤ distance ∧ distance ≤ buf.content.length then
        .ok (((buf.content.drop distance.toNat).idxOf? eol).map (distance.toNat + ·)) buf
      else .error .runtimeError buf := by
  have ordered := valid.ordered
  have length := valid.content_length
  rw [valid.readable] at length
  rw [findEOLFrom, bind_of_ok (begin_ok nonempty), get_bind, branch_apply, branch_apply, throw_apply,
    pure_apply]
  by_cases negative : distance < 0
  · rw [if_pos negative, if_neg (by omega)]
  · rw [if_neg negative]
    by_cases beyond : (buf.writerIndex : Int) < buf.readerIndex + distance
    · rw [if_pos beyond, if_neg (by omega)]
    · rw [if_neg beyond, if_pos (by omega), content, List.drop_drop, List.drop_take]

theorem idxOf_append {text more : List Byte} (plain : eol ∉ text) :
    (text ++ more).idxOf? eol = (more.idxOf? eol).map (text.length + ·) := by
  induction text with
  | nil => simp
  | cons byte rest ih =>
      rw [List.mem_cons, not_or] at plain
      have differs : (byte == eol) = false := beq_false_of_ne (Ne.symm plain.1)
      rw [List.cons_append, List.idxOf?_cons, differs, ih plain.2, if_neg Bool.false_ne_true,
        Option.map_map]
      congr 1
      funext index
      simp only [Function.comp_apply, List.length_cons]
      omega

theorem find_eol_from_agrees (valid : buf.Valid) {searched : Nat}
    (inside : searched ≤ buf.content.length) (plain : eol ∉ buf.content.take searched) :
    findEOLFrom searched buf = findEOL buf := by
  by_cases empty : buf.buffer = []
  · rw [find_eol_empty empty, findEOLFrom, bind_of_error (begin_empty empty)]
  · rw [find_eol_from_content valid empty, if_pos (by omega), find_eol_spec valid empty,
      Int.toNat_natCast]
    conv_rhs => rw [← List.take_append_drop searched buf.content, idxOf_append plain]
    rw [List.length_take, Nat.min_eq_left inside]

theorem take_lines_from_agrees (granted : Bool) (fuel : Nat) (valid : buf.Valid) {searched : Nat}
    (inside : searched ≤ buf.content.length) (plain : eol ∉ buf.content.take searched) :
    takeLinesFrom granted fuel searched buf = takeLines granted fuel buf := by
  induction fuel generalizing buf searched with
  | zero => rfl
  | succ fuel ih =>
      have same := find_eol_from_agrees valid inside plain
      rw [takeLinesFrom, takeLines]
      by_cases empty : buf.buffer = []
      · have aborts := find_eol_empty empty
        rw [bind_of_error aborts, bind_of_error (same.trans aborts)]
      · have spec := find_eol_spec valid empty
        rw [bind_of_ok spec, bind_of_ok (same.trans spec)]
        cases found : buf.content.idxOf? eol with
        | none => rfl
        | some distance =>
            simp only
            rcases retrieve_line_spec granted valid empty found with
              ⟨_, refused⟩ | ⟨next, returned, nextValid, _, _⟩
            · rw [bind_of_error refused, bind_of_error refused]
            · rw [bind_of_ok returned, bind_of_ok returned]
              have later := ih nextValid (Nat.zero_le _) (by simp)
              cases took : takeLines granted fuel next with
              | ok more last => rw [bind_of_ok took, bind_of_ok (later.trans took)]
              | error fault last => rw [bind_of_error took, bind_of_error (later.trans took)]

theorem feed_from_agrees (granted : Bool) (chunks : List (List Byte)) (valid : buf.Valid)
    (unfinished : eol ∉ buf.content) (fits : (buf.content ++ chunks.flatten).length ≤ maxSize) :
    feedFrom granted chunks buf = feed granted chunks buf := by
  induction chunks generalizing buf with
  | nil => rfl
  | cons chunk rest ih =>
      rw [List.flatten_cons, ← List.append_assoc] at fits
      have noWrap : buf.writerIndex + chunk.length < 2 ^ 64 := by
        have inside := valid.inside
        have bounded := valid.bounded
        rw [List.length_append, List.length_append] at fits
        rw [maxSize] at bounded fits
        omega
      rw [feedFrom, feed, get_bind]
      rcases Space.append_cases valid noWrap granted with
        ⟨fault, threw⟩ | ⟨filled, returned, filledValid, appended, nonempty⟩
      · rw [bind_of_error threw, bind_of_error threw]
      · rw [bind_of_ok returned, bind_of_ok returned, get_bind, get_bind]
        have before : buf.readableBytes = buf.content.length := valid.content_length.symm
        have agrees : takeLinesFrom granted (filled.readableBytes + 1) buf.readableBytes filled =
            takeLines granted (filled.readableBytes + 1) filled := by
          apply take_lines_from_agrees granted (filled.readableBytes + 1) filledValid
          · rw [appended, before, List.length_append]
            exact Nat.le_add_right _ _
          · rwa [appended, before, List.take_left]
        have enough : filled.content.length < filled.readableBytes + 1 :=
          Nat.lt_succ_of_le (Nat.le_of_eq filledValid.content_length)
        rcases take_lines_spec granted (filled.readableBytes + 1) filledValid nonempty enough with
          ⟨short, last, threw⟩ | ⟨lines, middle, took, middleValid, kept, framed⟩
        · rw [bind_of_error threw, bind_of_error (agrees.trans threw)]
        · rw [bind_of_ok took, bind_of_ok (agrees.trans took)]
          rw [← appended] at fits
          have tail : (middle.content ++ rest.flatten).length ≤
              (filled.content ++ rest.flatten).length := by
            rw [← framed.joined]
            simp
          have later := ih middleValid framed.unfinished (Nat.le_trans tail fits)
          cases ran : feed granted rest middle with
          | ok more last => rw [bind_of_ok ran, bind_of_ok (later.trans ran)]
          | error fault last => rw [bind_of_error ran, bind_of_error (later.trans ran)]

/-- Searching each chunk only once takes the same lines and leaves the same
buffer, or ends with the same exception. -/
theorem searched_once (granted : Bool) (whole : Region) {chunks : List (List Byte)}
    (split : chunks.flatten = whole.1) (valid : buf.Valid) (empty : buf.content = []) :
    feedFrom granted chunks buf = feed granted chunks buf := by
  apply feed_from_agrees granted chunks valid (by simp [empty])
  rw [empty, List.nil_append, split, maxSize]
  exact Nat.le_sub_one_of_lt whole.2

theorem split_line_searched_once :
    feedFrom true [[97], [10, 98]] (new 2) = feed true [[97], [10, 98]] (new 2) :=
  searched_once true ⟨[97, 10, 98], by decide⟩ rfl (new_valid (by decide)) (new_content 2)

end Rescan
end RProxy.Lines
