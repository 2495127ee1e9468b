import RProxy.Delivery
import RProxy.Machine
import RProxy.Ticket

/-!
The ids that publishers draw and the table of `PubSubCenter` they index.
`PublisherID` is `static` in a header, so each `.cc` file counts for itself, in
16 bits. Objects are named by the order of their construction.
-/

namespace RProxy.PublisherIds

inductive TranslationUnit where
  | demultiplex | tcpServer | loader | proxyServer
  deriving DecidableEq, Repr

inductive Kind where
  | demultiplex | acceptor | tcpServer | loadBalancer | proxyServer
  deriving DecidableEq, Repr

namespace Kind

/-- Where the constructor calls `pub_id`; `Acceptor` has its own inline in a
header that only `tcp_server.cc` constructs one from. -/
def file : Kind → TranslationUnit
  | .demultiplex => .demultiplex
  | .acceptor => .tcpServer
  | .tcpServer => .tcpServer
  | .loadBalancer => .loader
  | .proxyServer => .proxyServer

end Kind

/-- A `member` belongs to another object and does not go before it. -/
structure Object where
  name : Nat
  kind : Kind
  id : UInt16
  member : Bool
  deriving DecidableEq

/-- A call `subscribe(publisher.pubID(), type)` of a subscriber. -/
structure Subscription where
  publisher : Object
  type : PubType
  subscriber : Nat
  deriving DecidableEq

/-- All objects ever constructed, the latest first. -/
structure Process where
  counters : TranslationUnit → UInt16
  objects : List Object
  destroyed : List Nat
  center : PubSubCenter Nat Nat
  subscriptions : List Subscription

def Process.start : Process where
  counters _ := 0
  objects := []
  destroyed := []
  center := ⟨∅, ∅, ∅⟩
  subscriptions := []

/-- `LoopThreadGroup::init` asserts that there is a loop. -/
inductive Construction where
  | demultiplex
  | tcpServer (subloop : Nat) (positive : 1 ≤ subloop)
  | loadBalancer
  | proxyServer (nThread : Nat) (positive : 1 ≤ nThread)
  deriving DecidableEq

inductive Action where
  | construct (construction : Construction)
  | destroy (name : Nat)
  | subscribe (publisher : Nat) (type : PubType) (subscriber : Nat)

namespace Process

variable (state : Process)

/-- `id_(::pubsub::ID::pub_id())`: nobody else draws between `load` and
`fetch_add`, so the loop in it makes one turn. -/
def create (kind : Kind) (member : Bool) : Object × Process :=
  let object : Object := ⟨state.objects.length, kind, state.counters kind.file, member⟩
  (object, { state with
    counters := Function.update state.counters kind.file (state.counters kind.file + 1)
    objects := object :: state.objects })

def registerPub (object : Object) : Process :=
  { state with
    center := Delivery.kept state.center (state.center.registerPub object.id (some object.name)) }

def subscribe (publisher : Object) (type : PubType) (subscriber : Nat) : Process :=
  { state with
    center := Delivery.kept state.center
      (state.center.subscribe publisher.id type (some subscriber))
    subscriptions := ⟨publisher, type, subscriber⟩ :: state.subscriptions }

/-- The constructors of `Demultiplex`, `Acceptor` and `LoadBalancer`. -/
def publish (kind : Kind) (member : Bool) : Object × Process :=
  let (object, state) := state.create kind member
  (object, state.registerPub object)

/-- The demultiplexers of `LoopThreadGroup::init`. -/
def init : Nat → Process → List Object × Process
  | 0, state => ([], state)
  | count + 1, state =>
      let (dmp, state) := state.publish .demultiplex true
      let (rest, state) := init count state
      (dmp :: rest, state)

def subscribeAll (subscriber : Nat) (types : List PubType) : Process → List Object → Process
  | state, [] => state
  | state, dmp :: rest =>
      subscribeAll subscriber types
        (types.foldl (fun state type => state.subscribe dmp type subscriber) state) rest

def construct : Construction → Process
  | .demultiplex => (state.publish .demultiplex false).2
  | .loadBalancer => (state.publish .loadBalancer false).2
  | .tcpServer subloop _ =>
      -- never registered itself
      let (server, state) := state.create .tcpServer false
      let (acceptor, state) := state.publish .acceptor true
      let (dmpes, state) := state.init subloop
      (state.subscribe acceptor .accepted server.name).subscribeAll server.name
        [.dmpRegister, .dmpModify, .dmpDelete, .dmpWait] dmpes
  | .proxyServer nThread _ =>
      let (server, state) := state.create .proxyServer false
      let (dmpes, state) := state.init nThread
      (state.subscribeAll server.name [.dmpWait] dmpes).registerPub server

def find (name : Nat) : Option Object :=
  state.objects.find? fun object => decide (object.name = name ∧ name ∉ state.destroyed)

/-- The destructors of `Demultiplex` and `LoadBalancer`. Those of the servers
wait in `joinAll` for loops that nobody stops, and reach no `unRegisterPub`. -/
def destroy (name : Nat) : Option Process :=
  match state.find name with
  | none => none
  | some object =>
      if object.member = false ∧ (object.kind = .demultiplex ∨ object.kind = .loadBalancer) then
        some { state with
          center := state.center.unRegisterPub object.id
          destroyed := name :: state.destroyed }
      else none

end Process

def process : Machine Process Action where
  step state action :=
    match action with
    | .construct construction => some (state.construct construction)
    | .destroy name => state.destroy name
    | .subscribe publisher type subscriber =>
        (state.find publisher).map fun object => state.subscribe object type subscriber

/-- An object that registers has its place in the table as long as it lives,
and so have the subscribers it was given. -/
structure Served (state : Process) : Prop where
  registered : ∀ object ∈ state.objects, object.kind ≠ .tcpServer →
    object.name ∉ state.destroyed → state.center.publishers.lookup object.id = some object.name
  subscribed : ∀ entry ∈ state.subscriptions, entry.publisher.kind ≠ .tcpServer →
    entry.publisher.name ∉ state.destroyed →
      entry.subscriber ∈ state.center.slot entry.publisher.id entry.type

/-- No two objects have drawn the same id, so none is kept out of the table or
taken out of it by another. -/
def Unique (state : Process) : Prop := (state.objects.map Object.id).Nodup ∧ Served state

def constructions : List Action → List Construction
  | [] => []
  | .construct construction :: rest => construction :: constructions rest
  | _ :: rest => constructions rest

/-- Nothing but demultiplexers, or nothing but load balancers, and not more of
them than there are ids. -/
def Alone (actions : List Action) : Prop :=
  ∃ only ∈ [Construction.demultiplex, .loadBalancer],
    (∀ construction ∈ constructions actions, construction = only) ∧
      (constructions actions).length ≤ 2 ^ 16

/-- The files a constructor draws from, the latest first. -/
def Construction.draws : Construction → List TranslationUnit
  | .demultiplex => [.demultiplex]
  | .tcpServer subloop _ => List.replicate subloop .demultiplex ++ [.tcpServer, .tcpServer]
  | .loadBalancer => [.loader]
  | .proxyServer nThread _ => List.replicate nThread .demultiplex ++ [.proxyServer]

def Action.draws : Action → List TranslationUnit
  | .construct construction => construction.draws
  | _ => []

def Process.draws (state : Process) : List TranslationUnit :=
  state.objects.map fun object => object.kind.file

/-- The ids are the tickets of the draws. -/
structure Numbered (state : Process) : Prop where
  counters : ∀ file, state.counters file = UInt16.ofNat (state.draws.count file)
  ids : state.objects.map (fun object => object.id.toNat) = Ticket.issued (2 ^ 16) state.draws

section Draws

variable {state : Process}

@[simp] theorem register_draws (object : Object) :
    (state.registerPub object).draws = state.draws := rfl

@[simp] theorem subscribe_draws (publisher : Object) (type : PubType) (subscriber : Nat) :
    (state.subscribe publisher type subscriber).draws = state.draws := rfl

@[simp] theorem create_draws (kind : Kind) (member : Bool) :
    (state.create kind member).2.draws = kind.file :: state.draws := rfl

@[simp] theorem publish_draws (kind : Kind) (member : Bool) :
    (state.publish kind member).2.draws = kind.file :: state.draws := rfl

/-- Only a constructor changes what the numbering depends on. -/
theorem Numbered.same {next : Process} (numbered : Numbered state)
    (counters : next.counters = state.counters) (objects : next.objects = state.objects) :
    Numbered next := by
  have draws : next.draws = state.draws := by rw [Process.draws, objects, Process.draws]
  constructor
  · rw [counters, draws]
    exact numbered.counters
  · rw [objects, draws]
    exact numbered.ids

theorem create_numbered (numbered : Numbered state) (kind : Kind) (member : Bool) :
    Numbered (state.create kind member).2 := by
  constructor
  · intro file
    rw [create_draws, List.count_cons]
    simp only [Process.create, Function.update_apply, numbered.counters]
    by_cases same : file = kind.file
    · simp [same]
    · simp [same, Ne.symm same]
  · rw [create_draws, Ticket.issued, ← numbered.ids]
    simp [Process.create, numbered.counters]

theorem publish_numbered (numbered : Numbered state) (kind : Kind) (member : Bool) :
    Numbered (state.publish kind member).2 :=
  (create_numbered numbered kind member).same rfl rfl

theorem init_numbered (count : Nat) (numbered : Numbered state) :
    Numbered (state.init count).2 := by
  induction count generalizing state with
  | zero => exact numbered
  | succ count ih => exact ih (publish_numbered numbered .demultiplex true)

theorem init_draws (state : Process) (count : Nat) :
    (state.init count).2.draws = List.replicate count .demultiplex ++ state.draws := by
  induction count generalizing state with
  | zero => rfl
  | succ count ih =>
      show ((state.publish .demultiplex true).2.init count).2.draws = _
      rw [ih, publish_draws, List.replicate_succ', List.append_assoc]
      rfl

theorem subscribe_types_same (state : Process) (dmp : Object) (subscriber : Nat)
    (types : List PubType) :
    (types.foldl (fun state type => state.subscribe dmp type subscriber) state).counters =
        state.counters ∧
      (types.foldl (fun state type => state.subscribe dmp type subscriber) state).objects =
        state.objects := by
  induction types generalizing state with
  | nil => exact ⟨rfl, rfl⟩
  | cons type rest ih => exact ih (state.subscribe dmp type subscriber)

theorem subscribe_all_same (state : Process) (subscriber : Nat) (types : List PubType)
    (dmpes : List Object) :
    (state.subscribeAll subscriber types dmpes).counters = state.counters ∧
      (state.subscribeAll subscriber types dmpes).objects = state.objects := by
  induction dmpes generalizing state with
  | nil => exact ⟨rfl, rfl⟩
  | cons dmp rest ih =>
      obtain ⟨counters, objects⟩ := subscribe_types_same state dmp subscriber types
      rw [Process.subscribeAll, (ih _).1, (ih _).2]
      exact ⟨counters, objects⟩

theorem Numbered.subscribe (numbered : Numbered state) (publisher : Object) (type : PubType)
    (subscriber : Nat) : Numbered (state.subscribe publisher type subscriber) :=
  numbered.same rfl rfl

theorem Numbered.subscribe_all (numbered : Numbered state) (subscriber : Nat)
    (types : List PubType) (dmpes : List Object) :
    Numbered (state.subscribeAll subscriber types dmpes) := by
  obtain ⟨counters, objects⟩ := subscribe_all_same state subscriber types dmpes
  exact numbered.same counters objects

@[simp] theorem subscribe_all_draws (subscriber : Nat) (types : List PubType)
    (dmpes : List Object) :
    (state.subscribeAll subscriber types dmpes).draws = state.draws := by
  rw [Process.draws, (subscribe_all_same state subscriber types dmpes).2, Process.draws]

theorem construct_numbered (numbered : Numbered state) (construction : Construction) :
    Numbered (state.construct construction) := by
  cases construction with
  | demultiplex => exact publish_numbered numbered .demultiplex false
  | loadBalancer => exact publish_numbered numbered .loadBalancer false
  | tcpServer subloop positive =>
      have created := create_numbered numbered .tcpServer false
      have accepting := publish_numbered created .acceptor true
      have looping := init_numbered subloop accepting
      exact (looping.subscribe _ _ _).subscribe_all _ _ _
  | proxyServer nThread positive =>
      have created := create_numbered numbered .proxyServer false
      have looping := init_numbered nThread created
      exact (looping.subscribe_all _ _ _).same rfl rfl

theorem construct_draws (state : Process) (construction : Construction) :
    (state.construct construction).draws = construction.draws ++ state.draws := by
  cases construction with
  | demultiplex => rfl
  | loadBalancer => rfl
  | tcpServer subloop positive =>
      simp only [Process.construct, subscribe_all_draws, subscribe_draws, init_draws,
        publish_draws, create_draws, Construction.draws, List.append_assoc]
      rfl
  | proxyServer nThread positive =>
      simp only [Process.construct, register_draws, subscribe_all_draws, init_draws,
        create_draws, Construction.draws, List.append_assoc]
      rfl

end Draws

section Runs

variable {state next : Process}

theorem find_some {name : Nat} {object : Object} (found : state.find name = some object) :
    object ∈ state.objects ∧ object.name = name ∧ name ∉ state.destroyed := by
  have holds := List.find?_some found
  simp only [decide_eq_true_eq] at holds
  exact ⟨List.mem_of_find?_eq_some found, holds⟩

theorem destroy_some {name : Nat} (destroyed : state.destroy name = some next) :
    ∃ object, state.find name = some object ∧
      next = { state with
        center := state.center.unRegisterPub object.id
        destroyed := name :: state.destroyed } := by
  simp only [Process.destroy] at destroyed
  split at destroyed
  · cases destroyed
  · next object found =>
      split at destroyed
      · exact ⟨object, found, (Option.some.inj destroyed).symm⟩
      · cases destroyed

theorem step_numbered {action : Action} (numbered : Numbered state)
    (stepped : process.step state action = some next) :
    Numbered next ∧ next.draws = action.draws ++ state.draws := by
  cases action with
  | construct construction =>
      cases stepped
      exact ⟨construct_numbered numbered construction, construct_draws state construction⟩
  | destroy name =>
      obtain ⟨object, _, rfl⟩ := destroy_some stepped
      exact ⟨numbered.same rfl rfl, rfl⟩
  | subscribe publisher type subscriber =>
      obtain ⟨object, _, rfl⟩ := Option.map_eq_some_iff.mp stepped
      exact ⟨numbered.subscribe object type subscriber, rfl⟩

theorem start_numbered : Numbered .start := by
  constructor
  · intro file
    rfl
  · rfl

theorem ids_nodup_iff (numbered : Numbered state) :
    (state.objects.map Object.id).Nodup ↔
      (∀ first ∈ state.draws, ∀ second ∈ state.draws, first = second) ∧
        state.draws.length ≤ 2 ^ 16 := by
  have injective : Function.Injective UInt16.toNat := fun _ _ same => UInt16.toNat_inj.mp same
  rw [← List.nodup_map_iff injective, List.map_map, Function.comp_def, numbered.ids]
  exact Ticket.issued_nodup_iff (by decide) state.draws

/-- The draws of a run are those of its constructions. -/
theorem run_numbered {actions : List Action} {final : Process} (numbered : Numbered state)
    (ran : process.run state actions = some final) :
    Numbered final ∧
      final.draws = ((constructions actions).reverse.flatMap Construction.draws) ++ state.draws := by
  induction actions generalizing state with
  | nil =>
      cases ran
      exact ⟨numbered, rfl⟩
  | cons action rest ih =>
      rw [Machine.run_cons] at ran
      obtain ⟨next, stepped, later⟩ := Option.bind_eq_some_iff.mp ran
      obtain ⟨numberedNext, drawn⟩ := step_numbered numbered stepped
      obtain ⟨numberedFinal, draws⟩ := ih numberedNext later
      refine ⟨numberedFinal, ?_⟩
      rw [draws, drawn]
      cases action <;>
        simp [constructions, Action.draws, List.flatMap_append]

/-- With a server there are draws from two files. -/
theorem simple_of_single {construction : Construction}
    (single : ∀ first ∈ construction.draws, ∀ second ∈ construction.draws, first = second) :
    construction = .demultiplex ∨ construction = .loadBalancer := by
  cases construction with
  | demultiplex => exact Or.inl rfl
  | loadBalancer => exact Or.inr rfl
  | tcpServer subloop positive =>
      have same := single .demultiplex (by simp [Construction.draws]; omega) .tcpServer
        (by simp [Construction.draws])
      cases same
  | proxyServer nThread positive =>
      have same := single .demultiplex (by simp [Construction.draws]; omega) .proxyServer
        (by simp [Construction.draws])
      cases same

theorem simple_draws {only : Construction} (simple : only ∈ [Construction.demultiplex, .loadBalancer]) :
    ∃ file, only.draws = [file] := by
  rcases List.mem_cons.mp simple with rfl | last
  · exact ⟨_, rfl⟩
  · cases List.mem_singleton.mp last
    exact ⟨_, rfl⟩

theorem draws_determine {first second : Construction}
    (left : first ∈ [Construction.demultiplex, .loadBalancer])
    (right : second ∈ [Construction.demultiplex, .loadBalancer])
    (same : first.draws = second.draws) : first = second := by
  simp only [List.mem_cons, List.not_mem_nil, or_false] at left right
  rcases left with rfl | rfl <;> rcases right with rfl | rfl <;>
    first | rfl | cases same

theorem constant_draws {made : List Construction} {only : Construction} {file : TranslationUnit}
    (constant : ∀ construction ∈ made, construction = only) (draws : only.draws = [file]) :
    made.flatMap Construction.draws = List.replicate made.length file := by
  rw [List.eq_replicate_of_mem constant, List.flatMap_replicate, draws]
  simp

theorem alone_iff (made : List Construction) :
    (∃ only ∈ [Construction.demultiplex, .loadBalancer],
        (∀ construction ∈ made, construction = only) ∧ made.length ≤ 2 ^ 16) ↔
      (∀ first ∈ made.flatMap Construction.draws, ∀ second ∈ made.flatMap Construction.draws,
        first = second) ∧ (made.flatMap Construction.draws).length ≤ 2 ^ 16 := by
  constructor
  · rintro ⟨only, simple, constant, few⟩
    obtain ⟨file, draws⟩ := simple_draws simple
    rw [constant_draws constant draws, List.length_replicate]
    constructor
    · intro first left second right
      rw [List.eq_of_mem_replicate left, List.eq_of_mem_replicate right]
    · exact few
  · rintro ⟨single, few⟩
    have simple : ∀ construction ∈ made, construction ∈ [Construction.demultiplex, .loadBalancer] := by
      intro construction member
      have own := simple_of_single fun first left second right =>
        single first (List.mem_flatMap.mpr ⟨construction, member, left⟩) second
          (List.mem_flatMap.mpr ⟨construction, member, right⟩)
      simpa using own
    cases made with
    | nil => exact ⟨.demultiplex, by simp, by simp, by simp⟩
    | cons only rest =>
        have constant : ∀ construction ∈ only :: rest, construction = only := by
          intro construction member
          obtain ⟨file, draws⟩ := simple_draws (simple construction member)
          obtain ⟨onlyFile, onlyDraws⟩ := simple_draws (simple only List.mem_cons_self)
          have same := single file
            (List.mem_flatMap.mpr ⟨construction, member, by simp [draws]⟩) onlyFile
            (List.mem_flatMap.mpr ⟨only, List.mem_cons_self, by simp [onlyDraws]⟩)
          apply draws_determine (simple construction member) (simple only List.mem_cons_self)
          rw [draws, onlyDraws, same]
        obtain ⟨file, draws⟩ := simple_draws (simple only List.mem_cons_self)
        rw [constant_draws constant draws, List.length_replicate] at few
        exact ⟨only, simple only List.mem_cons_self, constant, few⟩

/-- What holds of the table while the ids are distinct. -/
structure Recorded (state : Process) : Prop where
  named : ∀ object ∈ state.objects, object.name < state.objects.length
  destroyed : ∀ name ∈ state.destroyed, name < state.objects.length
  published : ∀ id ∈ state.center.publishers, ∃ object ∈ state.objects, object.id = id
  owned : ∀ entry ∈ state.subscriptions, entry.publisher ∈ state.objects
  served : Served state

theorem start_recorded : Recorded .start := by
  constructor
  · simp [Process.start]
  · simp [Process.start]
  · simp [Process.start]
  · simp [Process.start]
  · constructor
    · simp [Process.start]
    · simp [Process.start]

theorem publish_recorded (recorded : Recorded state) {kind : Kind} {member : Bool}
    (distinct : ((state.publish kind member).2.objects.map Object.id).Nodup) :
    Recorded (state.publish kind member).2 := by
  obtain ⟨fresh, _⟩ := List.nodup_cons.mp distinct
  -- so the place in the table is free
  have absent : state.counters kind.file ∉ state.center.publishers := by
    intro present
    obtain ⟨object, constructed, same⟩ := recorded.published _ present
    exact fresh (List.mem_map.mpr ⟨object, constructed, same⟩)
  have free := AList.lookup_eq_none.mpr absent
  constructor
  · intro object constructed
    rcases List.mem_cons.mp constructed with rfl | earlier
    · exact Nat.lt_succ_self _
    · exact Nat.lt_succ_of_lt (recorded.named object earlier)
  · intro name gone
    exact Nat.lt_succ_of_lt (recorded.destroyed name gone)
  · intro id present
    rcases (UnorderedMap.mem_emplace _ _ _ _).mp present with rfl | earlier
    · exact ⟨_, List.mem_cons_self, rfl⟩
    · obtain ⟨object, constructed, same⟩ := recorded.published id earlier
      exact ⟨object, List.mem_cons_of_mem _ constructed, same⟩
  · intro entry made
    exact List.mem_cons_of_mem _ (recorded.owned entry made)
  · constructor
    · intro object constructed registers alive
      show (state.center.publishers.emplace (state.counters kind.file) state.objects.length).lookup
        object.id = some object.name
      rw [UnorderedMap.lookup_emplace_fresh free]
      rcases List.mem_cons.mp constructed with rfl | earlier
      · exact if_pos rfl
      · have different : object.id ≠ state.counters kind.file := by
          intro same
          exact fresh (List.mem_map.mpr ⟨object, earlier, same⟩)
        rw [if_neg different]
        exact recorded.served.registered object earlier registers alive
    · exact recorded.served.subscribed

theorem destroy_recorded (recorded : Recorded state)
    (distinct : (state.objects.map Object.id).Nodup) {name : Nat} {object : Object}
    (found : state.find name = some object) :
    Recorded { state with
      center := state.center.unRegisterPub object.id
      destroyed := name :: state.destroyed } := by
  obtain ⟨constructed, rfl, _⟩ := find_some found
  have other_id : ∀ other ∈ state.objects, other.name ≠ object.name → other.id ≠ object.id := by
    intro other earlier different same
    have equal := List.inj_on_of_nodup_map distinct earlier constructed same
    exact different (congrArg Object.name equal)
  constructor
  · exact recorded.named
  · intro name gone
    rcases List.mem_cons.mp gone with rfl | earlier
    · exact recorded.named object constructed
    · exact recorded.destroyed name earlier
  · intro id present
    apply recorded.published id
    simp only [PubSubCenter.unRegisterPub] at present
    split at present
    · exact (AList.mem_erase.mp present).2
    · exact present
  · exact recorded.owned
  · constructor
    · intro other earlier registers alive
      simp only [List.mem_cons, not_or] at alive
      have different := other_id other earlier alive.1
      rw [(state.center.un_register_other different).1]
      exact recorded.served.registered other earlier registers alive.2
    · intro entry made registers alive
      simp only [List.mem_cons, not_or] at alive
      have different := other_id entry.publisher (recorded.owned entry made) alive.1
      rw [(state.center.un_register_other different).2]
      exact recorded.served.subscribed entry made registers alive.2

theorem subscribe_recorded (recorded : Recorded state) {name : Nat} {object : Object}
    (found : state.find name = some object) (type : PubType) (subscriber : Nat) :
    Recorded (state.subscribe object type subscriber) := by
  obtain ⟨constructed, rfl, alive⟩ := find_some found
  have center : (state.subscribe object type subscriber).center = _ :=
    Delivery.kept_subscribe state.center object.id type subscriber
  have publishers : (state.subscribe object type subscriber).center.publishers =
      state.center.publishers := by
    rw [center]
    split <;> rfl
  -- nobody loses a subscription
  have grows : ∀ id other, ∀ member ∈ state.center.slot id other,
      member ∈ (state.subscribe object type subscriber).center.slot id other := by
    intro id other member present
    rw [center]
    split
    · rw [PubSubCenter.slot_set_slot]
      split
      · next same =>
          obtain ⟨rfl, rfl⟩ := same
          exact (UnorderedMap.mem_emplace _ _ _ _).mpr (Or.inr present)
      · exact present
    · exact present
  constructor
  · exact recorded.named
  · exact recorded.destroyed
  · rw [publishers]
    exact recorded.published
  · intro entry made
    rcases List.mem_cons.mp made with rfl | earlier
    · exact constructed
    · exact recorded.owned entry earlier
  · constructor
    · rw [publishers]
      exact recorded.served.registered
    · intro entry made registers living
      rcases List.mem_cons.mp made with rfl | earlier
      · have present : object.id ∈ state.center.publishers :=
          UnorderedMap.mem_of_lookup
            (recorded.served.registered object constructed registers alive)
        rw [center, if_pos present, PubSubCenter.slot_set_slot, if_pos ⟨rfl, rfl⟩]
        exact (UnorderedMap.mem_emplace _ _ _ _).mpr (Or.inl rfl)
      · exact grows _ _ _ (recorded.served.subscribed entry earlier registers living)

theorem step_recorded {action : Action} (numbered : Numbered state) (recorded : Recorded state)
    (stepped : process.step state action = some next)
    (distinct : (next.objects.map Object.id).Nodup) : Recorded next := by
  cases action with
  | construct construction =>
      obtain ⟨numberedNext, draws⟩ := step_numbered numbered stepped
      have single := ((ids_nodup_iff numberedNext).mp distinct).1
      rw [draws] at single
      have simple := simple_of_single fun first left second right =>
        single first (List.mem_append_left _ left) second (List.mem_append_left _ right)
      rcases simple with rfl | rfl
      · cases stepped
        exact publish_recorded recorded distinct
      · cases stepped
        exact publish_recorded recorded distinct
  | destroy name =>
      obtain ⟨object, found, rfl⟩ := destroy_some stepped
      exact destroy_recorded recorded distinct found
  | subscribe publisher type subscriber =>
      obtain ⟨object, found, rfl⟩ := Option.map_eq_some_iff.mp stepped
      exact subscribe_recorded recorded found type subscriber

/-- Ids are never given back, so those of a run that ends with distinct ones
have been distinct all along. -/
theorem run_recorded {actions : List Action} {final : Process} (numbered : Numbered state)
    (recorded : Recorded state) (ran : process.run state actions = some final)
    (distinct : (final.objects.map Object.id).Nodup) : Recorded final := by
  induction actions generalizing state with
  | nil =>
      cases ran
      exact recorded
  | cons action rest ih =>
      rw [Machine.run_cons] at ran
      obtain ⟨next, stepped, later⟩ := Option.bind_eq_some_iff.mp ran
      obtain ⟨numberedNext, _⟩ := step_numbered numbered stepped
      obtain ⟨numberedFinal, draws⟩ := run_numbered numberedNext later
      obtain ⟨single, few⟩ := (ids_nodup_iff numberedFinal).mp distinct
      rw [draws] at single few
      have distinctNext : (next.objects.map Object.id).Nodup := by
        apply (ids_nodup_iff numberedNext).mpr
        constructor
        · intro first left second right
          exact single first (List.mem_append_right _ left) second (List.mem_append_right _ right)
        · rw [List.length_append] at few
          omega
      exact ih numberedNext (step_recorded numbered recorded stepped distinctNext) later

/-- Ids are unique exactly while one file draws all of them, and few enough. -/
theorem pub_ids_unique_iff (actions : List Action) (final : Process)
    (ran : process.run .start actions = some final) : Unique final ↔ Alone actions := by
  obtain ⟨numbered, draws⟩ := run_numbered start_numbered ran
  have drawn : final.draws = (constructions actions).reverse.flatMap Construction.draws := by
    rw [draws]
    exact List.append_nil _
  have alone := alone_iff (constructions actions).reverse
  simp only [List.mem_reverse, List.length_reverse] at alone
  rw [Alone, alone, ← drawn, ← ids_nodup_iff numbered]
  constructor
  · intro unique
    exact unique.1
  · intro distinct
    exact ⟨distinct, (run_recorded start_numbered start_recorded ran distinct).served⟩

def replacedDemultiplex : List Action :=
  [.construct .demultiplex, .subscribe 0 .dmpWait 7, .construct .demultiplex, .destroy 0]

theorem demultiplexers_unique :
    ∃ final, process.run .start replacedDemultiplex = some final ∧ Unique final := by
  obtain ⟨final, ran, _⟩ := process.run_reaches (fun _ => true) .start replacedDemultiplex rfl
  have alone : Alone replacedDemultiplex := ⟨.demultiplex, by simp, by decide, by decide⟩
  exact ⟨final, ran, (pub_ids_unique_iff replacedDemultiplex final ran).mpr alone⟩

def demultiplexAndBalancer : List Action :=
  [.construct .demultiplex, .subscribe 0 .dmpWait 7, .construct .loadBalancer, .destroy 1]

/-- Both draw 0: the load balancer is not registered, and when it goes, the
demultiplexer loses its registration and its subscriber. -/
theorem balancer_unregisters_demultiplex :
    ∃ final, process.run .start demultiplexAndBalancer = some final ∧
      final.objects.map Object.id = [0, 0] ∧ 0 ∉ final.destroyed ∧
      final.center.publishers.lookup 0 = none ∧ 7 ∉ final.center.slot 0 .dmpWait ∧
      ¬ Unique final := by
  obtain ⟨final, ran, holds⟩ := process.run_reaches
    (fun state => decide (state.objects.map Object.id = [0, 0] ∧ 0 ∉ state.destroyed ∧
      state.center.publishers.lookup 0 = none ∧ 7 ∉ state.center.slot 0 .dmpWait))
    .start demultiplexAndBalancer (by decide +kernel)
  obtain ⟨ids, alive, gone, lost⟩ := of_decide_eq_true holds
  refine ⟨final, ran, ids, alive, gone, lost, ?_⟩
  intro unique
  have distinct := unique.1
  rw [ids] at distinct
  simp at distinct

end Runs
end RProxy.PublisherIds
