import Mathlib

/-!
A visit that removes each node before it goes on to the node's successors, with
the calls that are still to be made as a list. Nodes that are gone are passed
over, so the visit ends, and what it removes is what can be reached: the order
of the calls does not matter.
-/

namespace RProxy.DepthFirst

variable {Node : Type} [DecidableEq Node]

/-- The nodes that a visit removes from those that are `alive`. -/
def reach (next : Node → List Node) : List Node → Finset Node → Finset Node
  | [], _ => ∅
  | node :: rest, alive =>
      if node ∈ alive then insert node (reach next (next node ++ rest) (alive.erase node))
      else reach next rest alive
termination_by pending alive => (alive.card, pending.length)
decreasing_by
  · rename_i present
    exact Prod.Lex.left _ _ (Finset.card_erase_lt_of_mem present)
  · exact Prod.Lex.right _ (Nat.lt_succ_self _)

/-- Reachable from the roots over nodes that are alive. -/
inductive Reached (next : Node → List Node) (alive : Finset Node) (roots : List Node) :
    Node → Prop where
  | root {node : Node} (listed : node ∈ roots) (present : node ∈ alive) :
      Reached next alive roots node
  | step {node other : Node} (reached : Reached next alive roots node)
      (listed : other ∈ next node) (present : other ∈ alive) : Reached next alive roots other

section Reached

variable {next other : Node → List Node} {alive : Finset Node} {roots rest : List Node}
  {first node : Node}

omit [DecidableEq Node] in
theorem Reached.mem (reached : Reached next alive roots node) : node ∈ alive := by
  cases reached with
  | root listed present => exact present
  | step reached listed present => exact present

omit [DecidableEq Node] in
/-- Only which nodes are listed matters. -/
theorem Reached.imp {others : List Node} (roots_sub : ∀ node ∈ roots, node ∈ others)
    (next_sub : ∀ node ∈ alive, ∀ target ∈ next node, target ∈ other node)
    (reached : Reached next alive roots node) : Reached other alive others node := by
  induction reached with
  | root listed present => exact .root (roots_sub _ listed) present
  | step reached listed present ih =>
      exact .step ih (next_sub _ reached.mem _ listed) present

omit [DecidableEq Node] in
theorem reached_nil : ¬ Reached next alive [] node := by
  intro reached
  induction reached with
  | root listed present => cases listed
  | step reached listed present ih => exact ih

omit [DecidableEq Node] in
theorem reached_gone (gone : first ∉ alive) :
    Reached next alive (first :: rest) node ↔ Reached next alive rest node := by
  constructor
  · intro reached
    induction reached with
    | root listed present =>
        rcases List.mem_cons.mp listed with rfl | later
        · exact absurd present gone
        · exact .root later present
    | step reached listed present ih => exact .step ih listed present
  · exact Reached.imp (fun _ => List.mem_cons_of_mem first) fun _ _ _ => id

theorem reached_cons (present : first ∈ alive) :
    Reached next alive (first :: rest) node ↔
      node = first ∨ Reached next (alive.erase first) (next first ++ rest) node := by
  constructor
  · intro reached
    induction reached with
    | @root node listed present =>
        by_cases same : node = first
        · exact Or.inl same
        · have later := (List.mem_cons.mp listed).resolve_left same
          have live := Finset.mem_erase.mpr ⟨same, present⟩
          exact Or.inr (.root (List.mem_append_right _ later) live)
    | @step node target reached listed present ih =>
        by_cases same : target = first
        · exact Or.inl same
        · have live := Finset.mem_erase.mpr ⟨same, present⟩
          rcases ih with rfl | ih
          · exact Or.inr (.root (List.mem_append_left _ listed) live)
          · exact Or.inr (.step ih listed live)
  · have begun : Reached next alive (first :: rest) first := .root List.mem_cons_self present
    rintro (rfl | reached)
    · exact begun
    · induction reached with
      | root listed live =>
          have live := Finset.mem_of_mem_erase live
          rcases List.mem_append.mp listed with here | later
          · exact .step begun here live
          · exact .root (List.mem_cons_of_mem first later) live
      | step reached listed live ih => exact .step ih listed (Finset.mem_of_mem_erase live)

end Reached

variable (next : Node → List Node) (alive : Finset Node)

theorem reach_nil : reach next [] alive = ∅ := by rw [reach]

variable {alive} in
theorem reach_cons {first : Node} (present : first ∈ alive) (rest : List Node) :
    reach next (first :: rest) alive =
      insert first (reach next (next first ++ rest) (alive.erase first)) := by
  rw [reach, if_pos present]

variable {alive} in
theorem reach_gone {first : Node} (gone : first ∉ alive) (rest : List Node) :
    reach next (first :: rest) alive = reach next rest alive := by
  rw [reach, if_neg gone]

theorem mem_reach (roots : List Node) (node : Node) :
    node ∈ reach next roots alive ↔ Reached next alive roots node := by
  induction roots, alive using reach.induct next with
  | case1 alive =>
      rw [reach]
      exact ⟨fun listed => absurd listed (Finset.notMem_empty node), fun reached =>
        absurd reached reached_nil⟩
  | case2 first rest alive present ih =>
      rw [reach_cons next present, Finset.mem_insert, reached_cons present, ih]
  | case3 first rest alive gone ih => rw [reach_gone next gone, reached_gone gone, ih]

/-- A visit depends on the sets that its lists stand for. -/
theorem reach_congr {roots others : List Node} {other : Node → List Node}
    (same : ∀ node, node ∈ roots ↔ node ∈ others)
    (targets : ∀ node ∈ alive, ∀ target, target ∈ next node ↔ target ∈ other node) :
    reach next roots alive = reach other others alive := by
  ext node
  rw [mem_reach, mem_reach]
  constructor
  · exact Reached.imp (fun node => (same node).mp) fun node live target =>
      (targets node live target).mp
  · exact Reached.imp (fun node => (same node).mpr) fun node live target =>
      (targets node live target).mpr

/-- A second visit finds what the first one has left. -/
theorem reach_append (roots later : List Node) :
    reach next (roots ++ later) alive =
      reach next roots alive ∪ reach next later (alive \ reach next roots alive) := by
  induction roots, alive using reach.induct next with
  | case1 alive => rw [List.nil_append, reach_nil, Finset.sdiff_empty, Finset.empty_union]
  | case2 first rest alive present ih =>
      rw [List.cons_append, reach_cons next present, reach_cons next present, ← List.append_assoc,
        ih, Finset.insert_union, Finset.sdiff_insert, Finset.erase_sdiff_comm]
  | case3 first rest alive gone ih =>
      rw [List.cons_append, reach_gone next gone, reach_gone next gone, ih]

/-- A node that is removed for itself may just as well be left where it is while
its successors are visited, as long as it leads nowhere again. -/
theorem reach_leaf {first : Node} (present : first ∈ alive) :
    insert first (reach (Function.update next first []) (next first) alive) =
      reach next [first] alive := by
  ext node
  rw [Finset.mem_insert, mem_reach, mem_reach]
  constructor
  · have begun : Reached next alive [first] first := .root List.mem_cons_self present
    rintro (rfl | reached)
    · exact begun
    · induction reached with
      | root listed live => exact .step begun listed live
      | @step node target reached listed live ih =>
          by_cases same : node = first
          · subst same
            rw [Function.update_self] at listed
            cases listed
          · rw [Function.update_of_ne same] at listed
            exact .step ih listed live
  · intro reached
    induction reached with
    | root listed live => exact Or.inl (List.mem_singleton.mp listed)
    | @step node target reached listed live ih =>
        right
        by_cases same : node = first
        · subst same
          exact .root listed live
        · refine .step (ih.resolve_left same) ?_ live
          rw [Function.update_of_ne same]
          exact listed

end RProxy.DepthFirst
