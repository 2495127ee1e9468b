import Mathlib

/-!
A queue that several callers fill one after the other, each with a load of its
own, and that gives out its front to whoever asks. What is in it is what is left
of the loads, in the order in which they came.
-/

namespace RProxy.Conduit

universe u
variable {Item : Type u}

structure Load (Item : Type u) where
  items : List Item
  sent : Nat

def Load.rest (load : Load Item) : List Item := load.items.drop load.sent

def Load.send (load : Load Item) (count : Nat) : Load Item :=
  { load with sent := load.sent + count }

theorem Load.rest_send (load : Load Item) (count : Nat) :
    (load.send count).rest = load.rest.drop count := by
  rw [rest, rest, send, List.drop_drop]

/-- The queue, where each item has the number of its load. -/
def waiting : Nat → List (Load Item) → List (Nat × Item)
  | _, [] => []
  | number, load :: later => load.rest.map (number, ·) ++ waiting (number + 1) later

theorem waiting_append (number : Nat) (loads more : List (Load Item)) :
    waiting number (loads ++ more) =
      waiting number loads ++ waiting (number + loads.length) more := by
  induction loads generalizing number with
  | nil => rfl
  | cons load later ih =>
      rw [List.cons_append, waiting, waiting, ih, List.append_assoc, List.length_cons]
      rw [Nat.add_assoc, Nat.add_comm 1]

/-- Loads that are all out leave nothing in the queue. -/
theorem waiting_sent {loads : List (Load Item)} (sent : ∀ load ∈ loads, load.rest = [])
    (number : Nat) : waiting number loads = [] := by
  induction loads generalizing number with
  | nil => rfl
  | cons load later ih =>
      rw [waiting, sent load List.mem_cons_self,
        ih fun other member => sent other (List.mem_cons_of_mem _ member)]
      rfl

/-- Where the earlier loads are out, the front of the queue is of this load. -/
theorem waiting_front {earlier : List (Load Item)} {load : Load Item} {count : Nat}
    (sent : ∀ other ∈ earlier, other.rest = []) (fits : count ≤ load.rest.length)
    (later : List (Load Item)) :
    (waiting 0 (earlier ++ load :: later)).take count =
        (load.rest.take count).map (earlier.length, ·) ∧
      (waiting 0 (earlier ++ load :: later)).drop count =
        waiting 0 (earlier ++ load.send count :: later) := by
  simp only [waiting_append, waiting_sent sent, List.nil_append, waiting, Nat.zero_add]
  constructor
  · rw [List.take_append_of_le_length (by simpa using fits), List.map_take]
  · rw [List.drop_append_of_le_length (by simpa using fits), Load.rest_send, List.map_drop]

/-- Otherwise it is of one of the earlier loads. -/
theorem waiting_overtaken {earlier : List (Load Item)}
    (left : ∃ other ∈ earlier, other.rest ≠ []) (later : List (Load Item)) (number : Nat) :
    ∃ front rest, waiting number (earlier ++ later) = front :: rest ∧
      front.1 < number + earlier.length := by
  induction earlier generalizing number with
  | nil =>
      obtain ⟨other, member, _⟩ := left
      cases member
  | cons load earlier ih =>
      cases own : load.rest with
      | cons item rest =>
          refine ⟨(number, item), rest.map (number, ·) ++ waiting (number + 1) (earlier ++ later),
            ?_, ?_⟩
          · rw [List.cons_append, waiting, own]
            rfl
          · simp
      | nil =>
          have still : ∃ other ∈ earlier, other.rest ≠ [] := by
            obtain ⟨other, member, unsent⟩ := left
            rcases List.mem_cons.mp member with rfl | later
            · exact absurd own unsent
            · exact ⟨other, later, unsent⟩
          obtain ⟨front, rest, here, before⟩ := ih still (number + 1)
          refine ⟨front, rest, ?_, ?_⟩
          · rw [List.cons_append, waiting, own]
            exact here
          · rw [List.length_cons]
            omega

end RProxy.Conduit
