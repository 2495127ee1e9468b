import RProxy.Machine

/-!
What a relay is for, in general: what arrives at a source is moved, front first,
to the sink that belongs to it, and every item that is moved is counted for its
source.
-/

namespace RProxy.Pump

universe u v
variable {End : Type u} {Item : Type v} [DecidableEq End]

structure Links (End : Type u) (Item : Type v) where
  arrived : End → List Item
  queue : End → List Item
  got : End → List Item
  counted : End → Nat

def Links.start : Links End Item := ⟨fun _ => [], fun _ => [], fun _ => [], fun _ => 0⟩

namespace Links

variable (links : Links End Item)

def arrive (source : End) (items : List Item) : Links End Item :=
  { links with
    arrived := Function.update links.arrived source (links.arrived source ++ items)
    queue := Function.update links.queue source (links.queue source ++ items) }

/-- The items that leave the queue, those that the sink gets, and the count. -/
def transfer (source dest : End) (taken passed : List Item) (count : Nat) : Links End Item :=
  { links with
    queue := Function.update links.queue source ((links.queue source).drop taken.length)
    got := Function.update links.got dest (links.got dest ++ passed)
    counted := Function.update links.counted source (links.counted source + count) }

/-- A sink got what arrived at its source, apart from what is still queued. -/
structure Balanced (sink : End → End) : Prop where
  whole : ∀ source, links.got (sink source) ++ links.queue source = links.arrived source
  counted : ∀ source, links.counted source = (links.got (sink source)).length

variable {links} {sink : End → End}

omit [DecidableEq End] in
theorem start_balanced : (Links.start : Links End Item).Balanced sink :=
  ⟨fun _ => rfl, fun _ => rfl⟩

theorem Balanced.arrive (balanced : links.Balanced sink) (source : End) (items : List Item) :
    (links.arrive source items).Balanced sink := by
  constructor
  · intro other
    have whole := balanced.whole other
    simp only [Links.arrive, Function.update_apply]
    split
    · next same =>
        subst same
        rw [← List.append_assoc, whole]
    · exact whole
  · exact balanced.counted

/-- All that is taken from the front of the queue is passed on and counted. -/
theorem Balanced.transfer (balanced : links.Balanced sink) (injective : Function.Injective sink)
    (source : End) {taken : List Item} (front : taken <+: links.queue source) :
    (links.transfer source (sink source) taken taken taken.length).Balanced sink := by
  obtain ⟨rest, split⟩ := front
  constructor
  · intro other
    have whole := balanced.whole other
    by_cases same : other = source
    · subst same
      rw [← split] at whole
      simp only [Links.transfer, Function.update_self, ← split, List.drop_left, List.append_assoc]
      exact whole
    · simp only [Links.transfer, Function.update_of_ne same,
        Function.update_of_ne (injective.ne same)]
      exact whole
  · intro other
    by_cases same : other = source
    · subst same
      simp only [Links.transfer, Function.update_self, List.length_append, balanced.counted]
    · simp only [Links.transfer, Function.update_of_ne same,
        Function.update_of_ne (injective.ne same)]
      exact balanced.counted other

omit [DecidableEq End] in
/-- Two relays that were given the same differ in what they have not yet moved. -/
theorem Balanced.agree {other : Links End Item} (balanced : links.Balanced sink)
    (also : other.Balanced sink) (same : links.arrived = other.arrived) (source : End) :
    links.got (sink source) ++ links.queue source =
        other.got (sink source) ++ other.queue source ∧
      (links.queue source = [] → other.queue source = [] →
        links.got (sink source) = other.got (sink source) ∧
          links.counted source = other.counted source) := by
  have whole : links.got (sink source) ++ links.queue source =
      other.got (sink source) ++ other.queue source := by
    rw [balanced.whole, also.whole, same]
  refine ⟨whole, fun drained otherDrained => ?_⟩
  rw [drained, otherDrained, List.append_nil, List.append_nil] at whole
  exact ⟨whole, by rw [balanced.counted, also.counted, whole]⟩

end Links
end RProxy.Pump
