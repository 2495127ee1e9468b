import RProxy.PublisherIds

/-!
Whether anybody can hear a `TcpServer`. It draws an id and never registers it,
so its BALANCE batches are told only where some other object has the same id.
-/

namespace RProxy.PublisherIds

/-- Nothing is destroyed. -/
def Lasting (_ : Process) : Action → Prop
  | .destroy _ => False
  | _ => True

instance (state : Process) (action : Action) : Decidable (Lasting state action) := by
  unfold Lasting
  split <;> infer_instance

namespace Process

variable (state : Process)

/-- The servers in the order of their construction, the latest first. -/
def servers : List Object := state.objects.filter fun object => object.kind = .tcpServer

/-- How many ids the constructors of one file have drawn. -/
def drawn (file : TranslationUnit) : Nat := state.draws.count file

/-- Some object of another file than the servers' has drawn that id. -/
def Shares (number : Nat) : Prop :=
  number < state.drawn .demultiplex ∨ number < state.drawn .loader ∨
    number < state.drawn .proxyServer

instance (number : Nat) : Decidable (state.Shares number) := by
  unfold Shares
  infer_instance

/-- The subscriber is told what the publisher with that id publishes. -/
def Told (id : UInt16) (type : PubType) (subscriber : Nat) : Prop :=
  subscriber ∈ (state.center.notifySubscriber id type).1

end Process

/-- The objects that have registered are those that do so in their constructors,
and the servers have drawn every other number of their file. -/
structure Lasted (state : Process) : Prop where
  numbered : Numbered state
  published : ∀ id, id ∈ state.center.publishers ↔
    ∃ object ∈ state.objects, object.kind ≠ .tcpServer ∧ object.id = id
  paired : state.drawn .tcpServer = 2 * state.servers.length
  even : state.servers.map (fun object => object.id.toNat) =
    (List.range state.servers.length).reverse.map fun earlier => 2 * earlier % 2 ^ 16
  odd : ∀ object ∈ state.objects, object.kind = .acceptor → object.id.toNat % 2 = 1

/-- What was constructed since, and what of it has been registered. -/
structure Extends (state next : Process) (made registered : List Object) : Prop where
  objects : next.objects = made ++ state.objects
  publishers : ∀ id, id ∈ next.center.publishers ↔
    (∃ object ∈ registered, object.id = id) ∨ id ∈ state.center.publishers

section Constructors

variable {state between next : Process}

theorem Extends.trans {made later registered more : List Object}
    (first : Extends state between made registered) (second : Extends between next later more) :
    Extends state next (later ++ made) (more ++ registered) := by
  constructor
  · rw [second.objects, first.objects, List.append_assoc]
  · intro id
    rw [second.publishers, first.publishers]
    simp only [List.mem_append, or_and_right, exists_or]
    exact or_assoc.symm

theorem create_extends (state : Process) (kind : Kind) (member : Bool) :
    Extends state (state.create kind member).2 [(state.create kind member).1] [] :=
  ⟨rfl, fun id => by simp [Process.create]⟩

theorem register_extends (state : Process) (object : Object) :
    Extends state (state.registerPub object) [] [object] := by
  constructor
  · rfl
  · intro id
    show id ∈ state.center.publishers.emplace object.id object.name ↔ _
    simp [UnorderedMap.mem_emplace, eq_comm]

theorem publish_extends (state : Process) (kind : Kind) (member : Bool) :
    Extends state (state.publish kind member).2 [(state.publish kind member).1]
      [(state.publish kind member).1] :=
  (create_extends state kind member).trans (register_extends _ _)

theorem subscribe_extends (state : Process) (publisher : Object) (type : PubType)
    (subscriber : Nat) : Extends state (state.subscribe publisher type subscriber) [] [] := by
  constructor
  · rfl
  · intro id
    rw [Process.subscribe, Delivery.kept_subscribe]
    split <;> simp [PubSubCenter.setSlot]

theorem subscribe_types_extends (state : Process) (dmp : Object) (subscriber : Nat)
    (types : List PubType) :
    Extends state (types.foldl (fun state type => state.subscribe dmp type subscriber) state)
      [] [] := by
  induction types generalizing state with
  | nil => exact ⟨rfl, fun id => by simp⟩
  | cons type rest ih =>
      exact (subscribe_extends state dmp type subscriber).trans (ih _)

theorem subscribe_all_extends (state : Process) (subscriber : Nat) (types : List PubType)
    (dmpes : List Object) : Extends state (state.subscribeAll subscriber types dmpes) [] [] := by
  induction dmpes generalizing state with
  | nil => exact ⟨rfl, fun id => by simp [Process.subscribeAll]⟩
  | cons dmp rest ih =>
      exact (subscribe_types_extends state dmp subscriber types).trans (ih _)

/-- Every loop of a group is registered. -/
theorem init_extends (count : Nat) (state : Process) :
    ∃ dmpes, (∀ dmp ∈ dmpes, dmp.kind = .demultiplex) ∧
      Extends state (state.init count).2 dmpes dmpes := by
  induction count generalizing state with
  | zero => exact ⟨[], by simp, rfl, fun id => by simp [Process.init]⟩
  | succ count ih =>
      obtain ⟨dmpes, kinds, later⟩ := ih (state.publish .demultiplex true).2
      refine ⟨dmpes ++ [(state.publish .demultiplex true).1], ?_,
        (publish_extends state .demultiplex true).trans later⟩
      intro dmp member
      rcases List.mem_append.mp member with rest | first
      · exact kinds dmp rest
      · rw [List.mem_singleton.mp first]
        rfl

theorem server_extends (state : Process) (subloop : Nat) (positive : 1 ≤ subloop) :
    ∃ dmpes acceptor server, (∀ dmp ∈ dmpes, dmp.kind = .demultiplex) ∧
      (acceptor.kind = .acceptor ∧ acceptor.id = state.counters .tcpServer + 1) ∧
      (server.kind = .tcpServer ∧ server.id = state.counters .tcpServer) ∧
      Extends state (state.construct (.tcpServer subloop positive)) (dmpes ++ [acceptor, server])
        (dmpes ++ [acceptor]) := by
  let created := state.create .tcpServer false
  let accepting := created.2.publish .acceptor true
  let looping := accepting.2.init subloop
  obtain ⟨dmpes, kinds, extended⟩ := init_extends subloop accepting.2
  have extends_acceptor : Extends state accepting.2 [accepting.1, created.1] [accepting.1] :=
    (create_extends state .tcpServer false).trans (publish_extends created.2 .acceptor true)
  have subscribed := (extends_acceptor.trans extended).trans
    (subscribe_extends looping.2 accepting.1 .accepted created.1.name)
  refine ⟨dmpes, accepting.1, created.1, kinds, ⟨rfl, ?_⟩, ⟨rfl, rfl⟩, ?_⟩
  · simp [accepting, created, Process.publish, Process.create, Kind.file]
  · exact subscribed.trans (subscribe_all_extends _ created.1.name
      [.dmpRegister, .dmpModify, .dmpDelete, .dmpWait] looping.1)

theorem proxy_extends (state : Process) (nThread : Nat) (positive : 1 ≤ nThread) :
    ∃ dmpes server, (∀ dmp ∈ dmpes, dmp.kind = .demultiplex) ∧ server.kind = .proxyServer ∧
      Extends state (state.construct (.proxyServer nThread positive)) (dmpes ++ [server])
        (server :: dmpes) := by
  let created := state.create .proxyServer false
  let looping := created.2.init nThread
  obtain ⟨dmpes, kinds, extended⟩ := init_extends nThread created.2
  have subscribed := ((create_extends state .proxyServer false).trans extended).trans
    (subscribe_all_extends looping.2 created.1.name [.dmpWait] looping.1)
  have registered := subscribed.trans (register_extends _ created.1)
  simp only [List.append_nil, List.nil_append, List.singleton_append] at registered
  exact ⟨dmpes, created.1, kinds, rfl, registered⟩

end Constructors

section Runs

variable {state next : Process}

theorem drawn_extends {made registered : List Object} (extended : Extends state next made registered)
    (file : TranslationUnit) :
    next.drawn file = (made.map fun object => object.kind.file).count file + state.drawn file := by
  simp [Process.drawn, Process.draws, extended.objects, List.map_append, List.count_append]

theorem servers_extends {made registered : List Object}
    (extended : Extends state next made registered) :
    next.servers = (made.filter fun object => object.kind = .tcpServer) ++ state.servers := by
  simp [Process.servers, extended.objects, List.filter_append]

theorem extended_published (lasted : Lasted state) {made registered : List Object}
    (extended : Extends state next made registered)
    (registers : ∀ object, object ∈ registered ↔ object ∈ made ∧ object.kind ≠ .tcpServer) :
    ∀ id, id ∈ next.center.publishers ↔
      ∃ object ∈ next.objects, object.kind ≠ .tcpServer ∧ object.id = id := by
  intro id
  rw [extended.publishers, lasted.published, extended.objects]
  constructor
  · rintro (⟨object, member, same⟩ | ⟨object, member, kind, same⟩)
    · obtain ⟨made, kind⟩ := (registers object).mp member
      exact ⟨object, List.mem_append_left _ made, kind, same⟩
    · exact ⟨object, List.mem_append_right _ member, kind, same⟩
  · rintro ⟨object, member, kind, same⟩
    rcases List.mem_append.mp member with new | old
    · exact Or.inl ⟨object, (registers object).mpr ⟨new, kind⟩, same⟩
    · exact Or.inr ⟨object, old, kind, same⟩

/-- A constructor that draws nothing from the servers' file. -/
theorem plain_lasted (lasted : Lasted state) (numbered : Numbered next)
    {made registered : List Object} (extended : Extends state next made registered)
    (registers : ∀ object, object ∈ registered ↔ object ∈ made ∧ object.kind ≠ .tcpServer)
    (plain : ∀ object ∈ made, object.kind.file ≠ .tcpServer) : Lasted next := by
  have servers : next.servers = state.servers := by
    rw [servers_extends extended, List.filter_eq_nil_iff.mpr, List.nil_append]
    intro object member kind
    exact plain object member (by simp [of_decide_eq_true kind, Kind.file])
  have drawn : next.drawn .tcpServer = state.drawn .tcpServer := by
    rw [drawn_extends extended, List.count_eq_zero.mpr, Nat.zero_add]
    intro member
    obtain ⟨object, among, file⟩ := List.mem_map.mp member
    exact plain object among file
  constructor
  · exact numbered
  · exact extended_published lasted extended registers
  · rw [drawn, servers]
    exact lasted.paired
  · rw [servers]
    exact lasted.even
  · intro object member acceptor
    rw [extended.objects] at member
    rcases List.mem_append.mp member with new | old
    · exact absurd (by rw [acceptor]; rfl) (plain object new)
    · exact lasted.odd object old acceptor

/-- A server and its acceptor draw two numbers in a row. -/
theorem server_lasted (lasted : Lasted state) (numbered : Numbered next) {dmpes : List Object}
    {acceptor server : Object} (kinds : ∀ dmp ∈ dmpes, dmp.kind = .demultiplex)
    (acceptorKind : acceptor.kind = .acceptor) (serverKind : server.kind = .tcpServer)
    (acceptorId : acceptor.id = state.counters .tcpServer + 1)
    (serverId : server.id = state.counters .tcpServer)
    (extended : Extends state next (dmpes ++ [acceptor, server]) (dmpes ++ [acceptor])) :
    Lasted next := by
  have counter : (state.counters .tcpServer).toNat = 2 * state.servers.length % 2 ^ 16 := by
    rw [lasted.numbered.counters, ← lasted.paired, UInt16.toNat_ofNat']
    rfl
  have loops : dmpes.filter (fun object => decide (object.kind = .tcpServer)) = [] := by
    rw [List.filter_eq_nil_iff]
    intro dmp member
    simp [kinds dmp member]
  have servers : next.servers = server :: state.servers := by
    rw [servers_extends extended, List.filter_append, loops]
    simp [acceptorKind, serverKind]
  have files : (dmpes.map fun object => object.kind.file).count .tcpServer = 0 := by
    rw [List.count_eq_zero]
    intro member
    obtain ⟨dmp, among, file⟩ := List.mem_map.mp member
    simp [kinds dmp among, Kind.file] at file
  constructor
  · exact numbered
  · apply extended_published lasted extended
    intro object
    simp only [List.mem_append, List.mem_cons, List.not_mem_nil, or_false]
    constructor
    · rintro (loop | rfl)
      · exact ⟨Or.inl loop, by simp [kinds object loop]⟩
      · exact ⟨Or.inr (Or.inl rfl), by simp [acceptorKind]⟩
    · rintro ⟨loop | rfl | rfl, kind⟩
      · exact Or.inl loop
      · exact Or.inr rfl
      · exact absurd serverKind kind
  · rw [drawn_extends extended, servers, List.map_append, List.count_append, files, lasted.paired]
    simp only [List.map_cons, List.map_nil, acceptorKind, serverKind, Kind.file,
      List.count_cons_self, List.count_nil, List.length_cons]
    omega
  · rw [servers, List.map_cons, lasted.even, serverId, counter, List.length_cons,
      List.range_succ, List.reverse_append, List.map_append]
    rfl
  · intro object member kind
    rw [extended.objects] at member
    simp only [List.mem_append, List.mem_cons, List.not_mem_nil, or_false] at member
    rcases member with (loop | rfl | rfl) | old
    · rw [kinds object loop] at kind
      cases kind
    · rw [acceptorId, UInt16.toNat_add, counter]
      simp only [UInt16.toNat_one]
      omega
    · rw [serverKind] at kind
      cases kind
    · exact lasted.odd object old kind

theorem construct_lasted (lasted : Lasted state) (construction : Construction) :
    Lasted (state.construct construction) := by
  have numbered := construct_numbered lasted.numbered construction
  cases construction with
  | demultiplex =>
      apply plain_lasted lasted numbered (publish_extends state .demultiplex false)
      · simp [Process.publish, Process.create]
      · simp [Process.publish, Process.create, Kind.file]
  | loadBalancer =>
      apply plain_lasted lasted numbered (publish_extends state .loadBalancer false)
      · simp [Process.publish, Process.create]
      · simp [Process.publish, Process.create, Kind.file]
  | proxyServer nThread positive =>
      obtain ⟨dmpes, server, kinds, kind, extended⟩ := proxy_extends state nThread positive
      have plain : ∀ object ∈ dmpes ++ [server], object.kind.file ≠ .tcpServer := by
        intro object member
        rcases List.mem_append.mp member with loop | last
        · simp [kinds object loop, Kind.file]
        · simp [List.mem_singleton.mp last, kind, Kind.file]
      apply plain_lasted lasted numbered extended _ plain
      intro object
      have same : object ∈ server :: dmpes ↔ object ∈ dmpes ++ [server] := by simp [or_comm]
      rw [same, iff_self_and]
      intro member kind
      exact plain object member (by rw [kind]; rfl)
  | tcpServer subloop positive =>
      obtain ⟨dmpes, acceptor, server, kinds, ⟨acceptorKind, acceptorId⟩, ⟨serverKind, serverId⟩,
        extended⟩ := server_extends state subloop positive
      exact server_lasted lasted numbered kinds acceptorKind serverKind acceptorId serverId extended

theorem step_lasted (state : Process) (action : Action) (next : Process) (lasted : Lasted state)
    (lasting : Lasting state action) (stepped : process.step state action = some next) :
    Lasted next := by
  have numbered := (step_numbered lasted.numbered stepped).1
  cases action with
  | construct construction =>
      cases stepped
      exact construct_lasted lasted construction
  | destroy name => exact lasting.elim
  | subscribe publisher type subscriber =>
      obtain ⟨object, _, rfl⟩ := Option.map_eq_some_iff.mp stepped
      exact plain_lasted lasted numbered (subscribe_extends state object type subscriber)
        (by simp) (by simp)

theorem start_lasted : Lasted .start := by
  constructor
  · exact start_numbered
  · simp [Process.start]
  · rfl
  · rfl
  · simp [Process.start]

/-- A file has given out the numbers below the count of its draws. -/
theorem drawn_iff (numbered : Numbered state) (file : TranslationUnit) (number : Nat) :
    (∃ object ∈ state.objects, object.kind.file = file ∧ object.id.toNat = number) ↔
      number < 2 ^ 16 ∧ number < state.drawn file := by
  rw [Process.drawn, ← Ticket.mem_issued_iff (by decide), ← numbered.ids, Process.draws,
    List.zip_map', List.mem_map]
  simp only [Prod.mk.injEq]

/-- The acceptors have odd numbers, so what shares an even one is of another file. -/
theorem registered_iff_shares (lasted : Lasted state) {id : UInt16} (even : id.toNat % 2 = 0) :
    id ∈ state.center.publishers ↔ state.Shares id.toNat := by
  have bound : id.toNat < 2 ^ 16 := id.toNat_lt
  have shared : ∀ file, id.toNat < state.drawn file ↔
      ∃ object ∈ state.objects, object.kind.file = file ∧ object.id.toNat = id.toNat := by
    intro file
    rw [drawn_iff lasted.numbered, and_iff_right bound]
  rw [lasted.published, Process.Shares, shared, shared, shared]
  constructor
  · rintro ⟨object, member, kind, rfl⟩
    cases same : object.kind with
    | demultiplex => exact Or.inl ⟨object, member, by rw [same]; rfl, rfl⟩
    | loadBalancer => exact Or.inr (Or.inl ⟨object, member, by rw [same]; rfl, rfl⟩)
    | proxyServer => exact Or.inr (Or.inr ⟨object, member, by rw [same]; rfl, rfl⟩)
    | tcpServer => exact absurd same kind
    | acceptor =>
        have odd := lasted.odd object member same
        omega
  · rintro (⟨object, member, file, same⟩ | ⟨object, member, file, same⟩ |
      ⟨object, member, file, same⟩) <;>
    · refine ⟨object, member, ?_, UInt16.toNat_inj.mp same⟩
      intro kind
      rw [kind] at file
      cases file

/-- A subscription is recorded only under a registered id. -/
theorem subscribe_told_iff (state : Process) (publisher : Object) (type : PubType)
    (subscriber : Nat) (untold : ¬ state.Told publisher.id type subscriber) :
    (state.subscribe publisher type subscriber).Told publisher.id type subscriber ↔
      publisher.id ∈ state.center.publishers := by
  rw [Process.Told, Process.subscribe, Delivery.kept_subscribe]
  split
  · next registered =>
      have still : publisher.id ∈ (state.center.setSlot publisher.id type
          ((state.center.slot publisher.id type).emplace subscriber ())).publishers := registered
      rw [PubSubCenter.notifySubscriber, if_pos still, PubSubCenter.slot_set_slot,
        if_pos ⟨rfl, rfl⟩]
      simp only [registered, iff_true]
      exact (UnorderedMap.mem_emplace _ _ _ _).mpr (Or.inl rfl)
  · next unregistered => exact iff_of_false untold unregistered

/-- As long as nothing is destroyed, the server that was constructed after
`earlier` others has drawn twice that number. Its id is registered, and a
subscription to it has an effect, exactly when more demultiplexers than that, or
more load balancers, or more proxy servers have been constructed. -/
theorem server_heard_iff (actions : List Action) (state : Process)
    (lasting : process.Meets Lasting .start actions)
    (ran : process.run .start actions = some state) {earlier : Nat} {server : Object}
    (found : state.servers.reverse[earlier]? = some server) :
    server.id.toNat = 2 * earlier % 2 ^ 16 ∧
      (server.id ∈ state.center.publishers ↔ state.Shares (2 * earlier % 2 ^ 16)) ∧
      ∀ type subscriber, ¬ state.Told server.id type subscriber →
        ((state.subscribe server type subscriber).Told server.id type subscriber ↔
          state.Shares (2 * earlier % 2 ^ 16)) := by
  have lasted := process.run_invariant Lasted step_lasted start_lasted lasting ran
  have number : server.id.toNat = 2 * earlier % 2 ^ 16 := by
    have ids := congrArg List.reverse lasted.even
    rw [← List.map_reverse, ← List.map_reverse, List.reverse_reverse] at ids
    have here := congrArg (·[earlier]?) ids
    simp only [List.getElem?_map, found, Option.map_some] at here
    obtain ⟨position, there, same⟩ := Option.map_eq_some_iff.mp here.symm
    obtain ⟨_, rfl⟩ := List.getElem?_eq_some_iff.mp there
    rw [← same, List.getElem_range]
  have registered : server.id ∈ state.center.publishers ↔ state.Shares (2 * earlier % 2 ^ 16) := by
    rw [← number]
    apply registered_iff_shares lasted
    omega
  refine ⟨number, registered, ?_⟩
  intro type subscriber untold
  rw [← registered]
  exact subscribe_told_iff state server type subscriber untold

/-- Two servers with one loop each; the second draws 2, and nobody else has yet. -/
def twoServers : List Action :=
  [Action.construct (.tcpServer 1 (Nat.le_refl 1)), Action.construct .loadBalancer,
    Action.construct (.tcpServer 1 (Nat.le_refl 1))]

theorem second_server_unheard : ∃ state server, process.run .start twoServers = some state ∧
    server.kind = .tcpServer ∧ ¬ state.Shares 2 ∧ server.id.toNat = 2 * 1 % 2 ^ 16 ∧
      (server.id ∈ state.center.publishers ↔ state.Shares (2 * 1 % 2 ^ 16)) ∧
      ∀ type subscriber, ¬ state.Told server.id type subscriber →
        ((state.subscribe server type subscriber).Told server.id type subscriber ↔
          state.Shares (2 * 1 % 2 ^ 16)) := by
  obtain ⟨state, ran, reached⟩ := process.run_reaches
    (fun state => decide (state.servers.reverse[1]? = some (⟨4, .tcpServer, 2, false⟩ : Object) ∧
      ¬ state.Shares 2)) .start twoServers (by decide +kernel)
  obtain ⟨found, unshared⟩ := of_decide_eq_true reached
  exact ⟨state, _, ran, rfl, unshared,
    server_heard_iff twoServers state (by decide +kernel) ran found⟩

end Runs
end RProxy.PublisherIds
