import Mathlib

/-!
Sticky sessions in general: a client is given a server, and keeps it until that
server closes. A history of such a service determines who has which server at
its end, and a history that always acts on that assignment is sticky.
-/

namespace RProxy.Session

universe u v

inductive Event (Client : Type u) (Server : Type v) where
  | given (client : Client) (server : Server)
  | forwarded (client : Client) (server : Server)
  | returned (server : Server) (client : Client)
  | closed (server : Server)
  deriving DecidableEq

variable {Client : Type u} {Server : Type v}

/-- What a client sends goes to the server it was given last, and what that
server answers goes to this client, as long as the server has not closed. -/
def Sticky (history : List (Event Client Server)) : Prop :=
  ∀ before client server between event after,
    history = before ++ .given client server :: (between ++ event :: after) →
    .closed server ∉ between →
      (∀ other, event = .forwarded client other → other = server) ∧
        ∀ other, event = .returned server other → other = client

abbrev Assignment (Client : Type u) (Server : Type v) := Client → Option Server

namespace Assignment

def empty : Assignment Client Server := fun _ => none

/-- Nobody else has the server. -/
def Exclusive (assigned : Assignment Client Server) : Prop :=
  ∀ first second server, assigned first = some server → assigned second = some server →
    first = second

theorem exclusive_empty : (empty : Assignment Client Server).Exclusive := by
  intro first second server left
  cases left

variable [DecidableEq Client] [DecidableEq Server] (assigned : Assignment Client Server)

def after : Event Client Server → Assignment Client Server
  | .given client server => Function.update assigned client (some server)
  | .forwarded _ _ => assigned
  | .returned _ _ => assigned
  | .closed server => fun client => if assigned client = some server then none else assigned client

/-- The event acts on the assignment as it is; only a new server is given. -/
def Permits : Event Client Server → Prop
  | .given client server => assigned client = none ∧ ∀ other, assigned other ≠ some server
  | .forwarded client server => assigned client = some server
  | .returned server client => assigned client = some server
  | .closed _ => True

def replay : Assignment Client Server → List (Event Client Server) → Assignment Client Server
  | assigned, [] => assigned
  | assigned, event :: rest => replay (assigned.after event) rest

def PermitsAll : Assignment Client Server → List (Event Client Server) → Prop
  | _, [] => True
  | assigned, event :: rest => assigned.Permits event ∧ PermitsAll (assigned.after event) rest

variable {assigned}

theorem replay_append (first second : List (Event Client Server)) :
    assigned.replay (first ++ second) = (assigned.replay first).replay second := by
  induction first generalizing assigned with
  | nil => rfl
  | cons event rest ih => exact ih

theorem permits_all_append (first second : List (Event Client Server)) :
    assigned.PermitsAll (first ++ second) ↔
      assigned.PermitsAll first ∧ (assigned.replay first).PermitsAll second := by
  induction first generalizing assigned with
  | nil => simp [PermitsAll, replay]
  | cons event rest ih => simp only [List.cons_append, PermitsAll, replay, ih, and_assoc]

theorem Exclusive.after (exclusive : assigned.Exclusive) (event : Event Client Server)
    (permitted : assigned.Permits event) : (assigned.after event).Exclusive := by
  cases event with
  | given client server =>
      obtain ⟨_, fresh⟩ := permitted
      intro first second shared left right
      simp only [Assignment.after, Function.update_apply] at left right
      split at left
      · next isFirst =>
          split at right
          · next isSecond => rw [isFirst, isSecond]
          · cases left
            exact absurd right (fresh second)
      · split at right
        · cases right
          exact absurd left (fresh first)
        · exact exclusive first second shared left right
  | forwarded => exact exclusive
  | returned => exact exclusive
  | closed server =>
      intro first second shared left right
      simp only [Assignment.after] at left right
      split at left
      · cases left
      · split at right
        · cases right
        · exact exclusive first second shared left right

theorem Exclusive.replay (history : List (Event Client Server)) (exclusive : assigned.Exclusive)
    (permitted : assigned.PermitsAll history) : (assigned.replay history).Exclusive := by
  induction history generalizing assigned with
  | nil => exact exclusive
  | cons event rest ih => exact ih (exclusive.after event permitted.1) permitted.2

/-- Only the close of the server takes it from its client. -/
theorem kept_after {client : Client} {server : Server} (has : assigned client = some server)
    (event : Event Client Server) (permitted : assigned.Permits event)
    (serving : event ≠ .closed server) : (assigned.after event) client = some server := by
  cases event with
  | given other _ =>
      have different : client ≠ other := by
        rintro rfl
        rw [permitted.1] at has
        cases has
      rw [Assignment.after, Function.update_of_ne different]
      exact has
  | forwarded => exact has
  | returned => exact has
  | closed other =>
      have different : server ≠ other := fun same => serving (congrArg Event.closed same.symm)
      simp [Assignment.after, has, different]

theorem kept_replay {client : Client} {server : Server} (between : List (Event Client Server))
    (has : assigned client = some server) (permitted : assigned.PermitsAll between)
    (serving : .closed server ∉ between) : (assigned.replay between) client = some server := by
  induction between generalizing assigned with
  | nil => exact has
  | cons event rest ih =>
      simp only [List.mem_cons, not_or] at serving
      exact ih (kept_after has event permitted.1 (Ne.symm serving.1)) permitted.2 serving.2

/-- Acting on the assignment makes a history sticky. -/
theorem sticky_of_permitted {history : List (Event Client Server)}
    (permitted : (empty : Assignment Client Server).PermitsAll history) : Sticky history := by
  intro before client server between event after shape serving
  rw [shape, permits_all_append] at permitted
  obtain ⟨earlier, given, later⟩ := permitted
  rw [permits_all_append] at later
  obtain ⟨meanwhile, acts, _⟩ := later
  have exclusive := (exclusive_empty.replay before earlier).after (.given client server) given
  have has : ((replay empty before).after (.given client server)) client = some server := by
    rw [Assignment.after, Function.update_self]
  have still := kept_replay between has meanwhile serving
  constructor
  · rintro other rfl
    exact Option.some.inj (acts.symm.trans still)
  · rintro other rfl
    exact exclusive.replay between meanwhile other client server acts still

end Assignment
end RProxy.Session
