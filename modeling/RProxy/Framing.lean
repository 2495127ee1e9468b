import Mathlib

/-!
A text cut after each separator: the complete pieces and the unfinished rest.
Pieces of consecutive texts join up, and there is one way to cut a text.
-/

namespace RProxy

universe u

variable {Symbol : Type u}

/-- `lines` are the pieces of `text` up to its last separator, each with its
own separator at the end, and `rest` is what comes after. -/
structure Framed (sep : Symbol) (text : List Symbol) (lines : List (List Symbol))
    (rest : List Symbol) : Prop where
  joined : lines.flatten ++ rest = text
  ended : ∀ line ∈ lines, ∃ body, sep ∉ body ∧ line = body ++ [sep]
  unfinished : sep ∉ rest

/-- The first separator of a text is found in one place only. -/
theorem cut_unique {sep : Symbol} {body body' text text' : List Symbol} (plain : sep ∉ body)
    (plain' : sep ∉ body') (same : body ++ sep :: text = body' ++ sep :: text') :
    body = body' ∧ text = text' := by
  rcases List.append_eq_append_iff.mp same with ⟨between, longer, after⟩ | ⟨between, longer, after⟩
  · cases between with
    | nil => exact ⟨by simpa using longer.symm, by simpa using after⟩
    | cons symbol _ =>
        obtain ⟨rfl, -⟩ := List.cons.inj after
        exact absurd (by simp [longer]) plain'
  · cases between with
    | nil => exact ⟨by simpa using longer, by simpa using after.symm⟩
    | cons symbol _ =>
        obtain ⟨rfl, -⟩ := List.cons.inj after
        exact absurd (by simp [longer]) plain

/-- The last separator is, too: it is the first one from the right. -/
theorem last_cut_unique {sep : Symbol} {body body' rest rest' : List Symbol} (plain : sep ∉ rest)
    (plain' : sep ∉ rest') (same : body ++ sep :: rest = body' ++ sep :: rest') :
    body = body' ∧ rest = rest' := by
  have mirrored : rest.reverse ++ sep :: body.reverse = rest'.reverse ++ sep :: body'.reverse := by
    simpa using congrArg List.reverse same
  rcases cut_unique (by simpa using plain) (by simpa using plain') mirrored with ⟨right, left⟩
  exact ⟨List.reverse_injective left, List.reverse_injective right⟩

namespace Framed

variable {sep : Symbol} {text more body rest rest' : List Symbol} {lines lines' : List (List Symbol)}

theorem of_not_mem (absent : sep ∉ text) : Framed sep text [] text :=
  ⟨rfl, by simp, absent⟩

theorem cons (plain : sep ∉ body) (framed : Framed sep text lines rest) :
    Framed sep (body ++ sep :: text) ((body ++ [sep]) :: lines) rest := by
  refine ⟨?_, ?_, framed.unfinished⟩
  · rw [List.flatten_cons, List.append_assoc, framed.joined, List.append_assoc,
      List.singleton_append]
  · intro line listed
    rcases List.mem_cons.mp listed with rfl | later
    · exact ⟨body, plain, rfl⟩
    · exact framed.ended line later

/-- What is unfinished goes on with the next text. -/
theorem append (framed : Framed sep text lines rest)
    (next : Framed sep (rest ++ more) lines' rest') :
    Framed sep (text ++ more) (lines ++ lines') rest' := by
  refine ⟨?_, ?_, next.unfinished⟩
  · rw [List.flatten_append, List.append_assoc, next.joined, ← List.append_assoc, framed.joined]
  · intro line listed
    rcases List.mem_append.mp listed with first | second
    · exact framed.ended line first
    · exact next.ended line second

theorem unique (first : Framed sep text lines rest) (second : Framed sep text lines' rest') :
    lines = lines' ∧ rest = rest' := by
  induction lines generalizing text lines' with
  | nil =>
      have joined : rest = text := first.joined
      cases lines' with
      | nil => exact ⟨rfl, joined.trans second.joined.symm⟩
      | cons line later =>
          -- the separator at the end of a line would be in the rest
          obtain ⟨body, -, rfl⟩ := second.ended line List.mem_cons_self
          have same := joined.trans second.joined.symm
          exact absurd (by simp [same]) first.unfinished
  | cons line later ih =>
      obtain ⟨body, plain, rfl⟩ := first.ended line List.mem_cons_self
      cases lines' with
      | nil =>
          have same := second.joined.trans first.joined.symm
          have joined : rest' = body ++ sep :: (later.flatten ++ rest) := by simpa using same
          exact absurd (by simp [joined]) second.unfinished
      | cons line' later' =>
          obtain ⟨body', plain', rfl⟩ := second.ended line' List.mem_cons_self
          have same := first.joined.trans second.joined.symm
          simp only [List.flatten_cons, List.append_assoc, List.cons_append, List.nil_append] at same
          obtain ⟨rfl, after⟩ := cut_unique plain plain' same
          have tail : Framed sep (later.flatten ++ rest) later rest :=
            ⟨rfl, fun line listed => first.ended line (List.mem_cons_of_mem _ listed),
              first.unfinished⟩
          have tail' : Framed sep (later.flatten ++ rest) later' rest' :=
            ⟨after.symm, fun line listed => second.ended line (List.mem_cons_of_mem _ listed),
              second.unfinished⟩
          obtain ⟨rfl, unfinished⟩ := ih tail tail'
          exact ⟨rfl, unfinished⟩

end Framed
end RProxy
