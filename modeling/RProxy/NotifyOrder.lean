import RProxy.Effects
import RProxy.Machine

/-!
Whether the order in which `notifySubscriber` visits a set of subscribers makes
a difference to them. They all get one context object: `updateForRegister` resets
its pointer and `updateForLoadbalance` moves its sockets out.
-/

namespace RProxy.Notification

open DepthFirst TcpServer

variable {Server Loader : Type}

def World.slot (world : World Server Loader) (id : UInt16) (type : PubType) :
    List (Party Server Loader) :=
  (world.center.notifySubscriber id type).1

/-- The set under `id` and `type` is visited in this order, every other one in
the order it has. -/
def World.visits (world : World Server Loader) (id : UInt16) (type : PubType)
    (order : List (Party Server Loader)) : Visits Server Loader :=
  fun other otherType =>
    if other = id ∧ otherType = type then order else world.slot other otherType

/-- A `TcpServer` has come to the same state; `closed` is no part of it. -/
structure SameServer (first second : Member) : Prop where
  lookup : ∀ fd, first.tcp.connMap.lookup fd = second.tcp.connMap.lookup fd
  total : first.tcp.totalConn = second.tcp.totalConn
  dmp : ∀ fd ∈ first.tcp.connMap, first.dmp fd = second.dmp fd

def SameAt (first second : World Server Loader) : Party Server Loader → Prop
  | .server id => SameServer (first.members id) (second.members id)
  | .loader id => first.loaders id = second.loaders id

variable [Fintype Server] [DecidableEq Server] [DecidableEq Loader]

def notifySubscriber (world : World Server Loader) (answers : Answers Server) (id : UInt16)
    (publication : Publication) (order : List (Party Server Loader)) :
    Except Fault (World Server Loader) :=
  notifyAll (world.visits id publication.type order) answers order (publication.context id) world

/-- In every order the notification returns, and no subscriber can tell in which
one it was made. -/
structure OrderIrrelevant (world : World Server Loader) (answers : Answers Server) (id : UInt16)
    (publication : Publication) : Prop where
  returns : ∀ order, order.Perm (world.slot id publication.type) →
    ∃ next, notifySubscriber world answers id publication order = .ok next
  same : ∀ order other, order.Perm (world.slot id publication.type) →
    other.Perm (world.slot id publication.type) → ∀ next otherNext,
    notifySubscriber world answers id publication order = .ok next →
    notifySubscriber world answers id publication other = .ok otherNext →
    ∀ party ∈ world.slot id publication.type, SameAt next otherNext party

/-- One `TcpServer` at most takes the pointer, one `LoadBalancer` at most takes
the sockets, and a `LoadBalancer` that is told about a batch of events gets no
different batches from the servers that are. -/
def Independent (world : World Server Loader) (id : UInt16) : Publication → Prop
  | .dmpRegister _ => ∀ first second, .server first ∈ world.slot id .dmpRegister →
      .server second ∈ world.slot id .dmpRegister → first = second
  | .dmpWait resps _ => ∀ loader, .loader loader ∈ world.slot id .dmpWait →
      ∀ first second, .server first ∈ world.slot id .dmpWait →
        .server second ∈ world.slot id .dmpWait →
        ∀ batch ∈ world.handed world.slot resps first loader,
          ∀ other ∈ world.handed world.slot resps second loader, batch = other
  | .balance sockes => sockes = [] ∨
      ∀ first second, .loader first ∈ world.slot id .balance →
        .loader second ∈ world.slot id .balance → first = second
  | _ => True

section Effects

variable {world next other : World Server Loader} {gone : Fd → Finset Server}
  {queued queuedOther : Loader → List (List Fd)}

omit [Fintype Server] [DecidableEq Loader] in
theorem same_servers (first : Effect world next gone queued)
    (second : Effect world other gone queuedOther) (id : Server) :
    SameServer (next.members id) (other.members id) := by
  have lookup : ∀ fd, next.lookup id fd = other.lookup id fd := fun fd =>
    (first.lookup id fd).trans (second.lookup id fd).symm
  have spare := (first.spare id).trans (second.spare id).symm
  refine ⟨lookup, ?_, ?_⟩
  · simp only [Member.spare, length_of_lookup lookup] at spare
    omega
  · intro fd _
    rw [first.dmp, second.dmp]

omit [Fintype Server] [DecidableEq Loader] in
theorem same_loader_iff (first : Effect world next gone queued)
    (second : Effect world other gone queuedOther) (id : Loader) :
    next.loaders id = other.loaders id ↔ queued id = queuedOther id := by
  rw [first.loaders, second.loaders]
  constructor
  · intro same
    exact List.append_cancel_left (congrArg LoadBalancer.sockQueue same)
  · intro same
    rw [same]

/-- What queues to which effect is all that an order can change. -/
theorem order_irrelevant_iff_of_effects {answers : Answers Server} {id : UInt16}
    {publication : Publication} {queues : List (Party Server Loader) → Loader → List (List Fd)}
    (effects : ∀ order, order.Perm (world.slot id publication.type) →
      ∃ next, notifySubscriber world answers id publication order = .ok next ∧
        Effect world next gone (queues order)) :
    OrderIrrelevant world answers id publication ↔
      ∀ order other, order.Perm (world.slot id publication.type) →
        other.Perm (world.slot id publication.type) →
        ∀ loader, .loader loader ∈ world.slot id publication.type →
          queues order loader = queues other loader := by
  constructor
  · intro irrelevant order other perm otherPerm loader listed
    obtain ⟨next, ran, effect⟩ := effects order perm
    obtain ⟨otherNext, otherRan, otherEffect⟩ := effects other otherPerm
    exact (same_loader_iff effect otherEffect loader).mp
      (irrelevant.same order other perm otherPerm next otherNext ran otherRan _ listed)
  · intro same
    constructor
    · intro order perm
      obtain ⟨next, ran, _⟩ := effects order perm
      exact ⟨next, ran⟩
    · intro order other perm otherPerm next otherNext ran otherRan party listed
      obtain ⟨_, first, effect⟩ := effects order perm
      obtain ⟨_, second, otherEffect⟩ := effects other otherPerm
      rw [first] at ran
      rw [second] at otherRan
      cases ran
      cases otherRan
      cases party with
      | server server => exact same_servers effect otherEffect server
      | loader loader =>
          exact (same_loader_iff effect otherEffect loader).mpr
            (same order other perm otherPerm loader listed)

/-- Where all orders lead to the same members and loaders, none can be told. -/
theorem irrelevant_of_determined {answers : Answers Server} {id : UInt16}
    {publication : Publication} (members : Server → Member) (loaders : Loader → LoadBalancer)
    (determined : ∀ order, order.Perm (world.slot id publication.type) →
      ∃ next, notifySubscriber world answers id publication order = .ok next ∧
        (∀ server, next.members server = members server) ∧ next.loaders = loaders) :
    OrderIrrelevant world answers id publication := by
  constructor
  · intro order perm
    obtain ⟨next, ran, _⟩ := determined order perm
    exact ⟨next, ran⟩
  · intro order other perm otherPerm next otherNext ran otherRan party _
    obtain ⟨_, first, membersHere, loadersHere⟩ := determined order perm
    obtain ⟨_, second, membersThere, loadersThere⟩ := determined other otherPerm
    rw [first] at ran
    rw [second] at otherRan
    cases ran
    cases otherRan
    cases party with
    | server server =>
        rw [SameAt, membersHere, membersThere]
        exact ⟨fun _ => rfl, rfl, fun _ _ => rfl⟩
    | loader loader => rw [SameAt, loadersHere, loadersThere]

end Effects

section Orders

variable {world : World Server Loader} {id : UInt16} {type : PubType}
  {order other : List (Party Server Loader)}

omit [Fintype Server] [DecidableEq Server] [DecidableEq Loader] in
theorem mem_servers_of {parties : List (Party Server Loader)} {server : Server} :
    server ∈ serversOf parties ↔ .server server ∈ parties := by
  rw [serversOf, List.mem_filterMap]
  constructor
  · rintro ⟨party, listed, same⟩
    cases party with
    | server other => cases same; exact listed
    | loader other => cases same
  · intro listed
    exact ⟨.server server, listed, rfl⟩

omit [Fintype Server] [DecidableEq Server] [DecidableEq Loader] in
theorem slot_nodup (world : World Server Loader) (id : UInt16) (type : PubType) :
    (world.slot id type).Nodup := by
  rw [World.slot, PubSubCenter.notifySubscriber]
  split
  · exact AList.keys_nodup _
  · exact List.nodup_nil

omit [Fintype Server] [DecidableEq Server] [DecidableEq Loader] in
theorem visits_perm (perm : order.Perm (world.slot id type)) (source : UInt16)
    (otherType : PubType) :
    (world.visits id type order source otherType).Perm (world.slot source otherType) := by
  rw [World.visits]
  split
  · next here =>
      rw [here.1, here.2]
      exact perm
  · exact List.Perm.refl _

omit [DecidableEq Loader] in
/-- The visit of DMPDELETE does not depend on the order of any set. -/
theorem fall_slot (perm : order.Perm (world.slot id type)) (fd : Fd)
    {roots : List (Party Server Loader)} {others : List (Party Server Loader)}
    (same : roots.Perm others) :
    world.fall (world.visits id type order) fd (serversOf roots) =
      world.fall world.slot fd (serversOf others) := by
  refine reach_congr _ _ ?_ ?_
  · intro server
    rw [mem_servers_of, mem_servers_of, same.mem_iff]
  · intro server _ target
    rw [World.targets, World.targets]
    cases (world.members server).dmp fd with
    | none => rfl
    | some dmp => simp only [mem_servers_of, (visits_perm perm dmp .dmpDelete).mem_iff]

end Orders

/-! The events that make entries go: what one server does, the whole set does,
one server after the other. -/

section Dropping

variable {visits : Visits Server Loader} {answers : Answers Server} {shared : Shared}
  {hits : Fd → Prop} [DecidablePred hits]

/-- What a server does with an event for the descriptors `hits`. The context
stays as it is, and what the server queues depends on nothing that goes. -/
structure Drops (visits : Visits Server Loader) (answers : Answers Server) (shared : Shared)
    (hits : Fd → Prop) [DecidablePred hits]
    (queues : World Server Loader → Server → Loader → List (List Fd)) : Prop where
  one : ∀ world : World Server Loader, world.Sound → ∀ id, ∃ after,
    updateServer visits answers id shared world = .ok (after, shared) ∧
      Effect world after (fun fd => if hits fd then world.fall visits fd [id] else ∅)
        (queues world id)
  passes : ∀ (id : Loader) (world : World Server Loader),
    updateLoader id shared world = (world, shared)
  stable : ∀ {world middle : World Server Loader} {gone : Fd → Finset Server}
    {queued : Loader → List (List Fd)}, Effect world middle gone queued →
      (∀ fd, ¬ hits fd → gone fd = ∅) → queues middle = queues world

omit [DecidableEq Loader] in
/-- The first server's visit and then that of the others. -/
theorem Effect.fall_cons {world middle : World Server Loader} {gone : Fd → Finset Server}
    {queued : Loader → List (List Fd)} (effect : Effect world middle gone queued) {fd : Fd}
    {id : Server} (first : gone fd = world.fall visits fd [id]) (rest : List Server) :
    gone fd ∪ middle.fall visits fd rest = world.fall visits fd (id :: rest) := by
  rw [effect.fall, first]
  exact (reach_append _ _ [id] rest).symm

theorem notify_drops {queues : World Server Loader → Server → Loader → List (List Fd)}
    (drops : Drops visits answers shared hits queues) {world : World Server Loader}
    (sound : world.Sound) (order : List (Party Server Loader)) :
    ∃ next, notifyAll visits answers order shared world = .ok next ∧
      Effect world next (fun fd => if hits fd then world.fall visits fd (serversOf order) else ∅)
        fun loader => (serversOf order).flatMap fun id => queues world id loader := by
  induction order generalizing world with
  | nil =>
      refine ⟨world, rfl, (Effect.refl world).congr ?_ fun _ => rfl⟩
      intro fd
      simp [World.fall, serversOf, reach_nil]
  | cons party rest ih =>
      cases party with
      | loader id =>
          obtain ⟨next, ran, effect⟩ := ih sound
          exact ⟨next, by simp only [notifyAll, drops.passes, ran], effect⟩
      | server id =>
          obtain ⟨middle, first, effect⟩ := drops.one world sound id
          obtain ⟨next, ran, later⟩ := ih (effect.sound sound)
          refine ⟨next, by simp only [notifyAll, first, ran], (effect.trans later).congr ?_ ?_⟩
          · intro fd
            by_cases hit : hits fd
            · have whole := effect.fall_cons (if_pos hit) (serversOf rest)
              simp only [if_pos hit] at whole ⊢
              exact whole
            · simp only [if_neg hit, Finset.union_empty]
          · intro loader
            rw [drops.stable effect fun fd miss => if_neg miss]
            rfl

variable (visits answers shared) in
/-- An event that nobody handles. -/
theorem idle_drops (serves : ∀ (id : Server) (world : World Server Loader),
      updateServer visits answers id shared world = .ok (world, shared))
    (passes : ∀ (id : Loader) (world : World Server Loader),
      updateLoader id shared world = (world, shared)) :
    Drops visits answers shared (fun _ => False) fun _ _ _ => [] where
  one world _ id := ⟨world, serves id world, (Effect.refl world).congr
    (fun _ => by rw [if_neg not_false]) fun _ => rfl⟩
  passes := passes
  stable _ _ := rfl

theorem delete_drops (visits : Visits Server Loader) (answers : Answers Server) (fd : Fd) :
    Drops visits answers (.dmpDelete fd) (fun other => other = fd) fun _ _ _ => [] where
  one world sound id := by
    obtain ⟨after, ran, effect⟩ := delete_effect visits fd sound [.server id]
    refine ⟨after, by simp only [updateServer, ran, Except.map], effect.congr ?_ fun _ => rfl⟩
    intro other
    rw [only]
    split
    · next same => rw [same]; rfl
    · rfl
  passes _ _ := rfl
  stable _ _ := rfl

theorem wait_drops (visits : Visits Server Loader) (answers : Answers Server) {resps : List Resp}
    (distinct : (resps.map Resp.fd).Nodup) :
    Drops visits answers (.dmpWait resps) (Removed resps) fun world id =>
      world.handed visits resps id where
  one world sound id := by
    obtain ⟨after, ran, effect⟩ := wait_effect sound visits (answers.wrote id) id distinct
    exact ⟨after, by simp only [updateServer, ran, Except.map], effect⟩
  passes _ _ := rfl
  stable effect stays := by
    funext id
    rw [World.handed, World.handed, effect.pubID, effect.batch id]
    intro resp listed passes
    apply stays
    rintro ⟨other, otherListed, same, removes⟩
    have only : other = resp := List.inj_on_of_nodup_map distinct otherListed listed same
    rw [only, passes_not_removes resp passes] at removes
    exact Bool.false_ne_true removes

end Dropping

section Sharing

omit [Fintype Server] [DecidableEq Server] in
theorem share_absent {parties : List (Party Server Loader)} {id : Loader}
    (absent : .loader id ∉ parties) (sockes : List Fd) : share parties sockes id = [] := by
  induction parties generalizing sockes with
  | nil => rfl
  | cons party rest ih =>
      rw [List.mem_cons, not_or] at absent
      cases party with
      | server other => exact ih absent.2 sockes
      | loader other =>
          have different : id ≠ other := fun same => absent.1 (by rw [same])
          rw [share, if_neg different, ih absent.2, List.append_nil]

omit [Fintype Server] [DecidableEq Server] in
/-- A set of subscribers tells each of them once. -/
theorem share_length {parties : List (Party Server Loader)} (distinct : parties.Nodup)
    (sockes : List Fd) (id : Loader) : (share parties sockes id).length ≤ 1 := by
  induction parties generalizing sockes with
  | nil => exact Nat.zero_le 1
  | cons party rest ih =>
      obtain ⟨fresh, distinctRest⟩ := List.nodup_cons.mp distinct
      cases party with
      | server other => exact ih distinctRest sockes
      | loader other =>
          rw [share]
          by_cases same : id = other
          · subst same
            rw [if_pos rfl, share_absent fresh]
            exact Nat.le_refl 1
          · rw [if_neg same]
            exact ih distinctRest []

omit [Fintype Server] in
/-- A context that cannot be emptied gives the same to everyone. -/
theorem share_even {parties : List (Party Server Loader)} (distinct : parties.Nodup)
    {sockes : List Fd}
    (even : sockes = [] ∨ ∀ first second, .loader first ∈ parties → .loader second ∈ parties →
      first = second) (id : Loader) :
    share parties sockes id = if .loader id ∈ parties then [sockes] else [] := by
  induction parties with
  | nil => rfl
  | cons party rest ih =>
      obtain ⟨fresh, distinctRest⟩ := List.nodup_cons.mp distinct
      have evenRest : sockes = [] ∨ ∀ first second, .loader first ∈ rest →
          .loader second ∈ rest → first = second :=
        even.imp_right fun single first second listed other =>
          single first second (List.mem_cons_of_mem _ listed) (List.mem_cons_of_mem _ other)
      cases party with
      | server other =>
          rw [share, ih distinctRest evenRest]
          simp
      | loader other =>
          rw [share]
          by_cases same : id = other
          · subst same
            rw [if_pos rfl, share_absent fresh, if_pos List.mem_cons_self]
            rfl
          · rw [if_neg same, List.nil_append]
            rcases even with rfl | single
            · rw [ih distinctRest (Or.inl rfl)]
              simp [same]
            · have absent : .loader id ∉ rest := fun listed =>
                same (single id other (List.mem_cons_of_mem _ listed) List.mem_cons_self)
              rw [share_absent absent, if_neg]
              simp [same, absent]

omit [Fintype Server] [DecidableEq Server] [DecidableEq Loader] in
/-- Two members of a set can be visited first. -/
theorem front_perm {Item : Type} [DecidableEq Item] {list : List Item} {first second : Item}
    (listed : first ∈ list) (other : second ∈ list) (different : first ≠ second) :
    ∃ rest, (first :: second :: rest).Perm list := by
  have later : second ∈ list.erase first := (List.mem_erase_of_ne different.symm).mpr other
  refine ⟨(list.erase first).erase second, ?_⟩
  exact ((List.perm_cons_erase later).symm.cons first).trans (List.perm_cons_erase listed).symm

omit [Fintype Server] [DecidableEq Server] [DecidableEq Loader] in
theorem flat_map_perm {Item Value : Type} {give : Item → List Value} {list other : List Item}
    (commute : ∀ first ∈ list, ∀ second ∈ list,
      give first ++ give second = give second ++ give first)
    (perm : list.Perm other) : list.flatMap give = other.flatMap give := by
  induction perm with
  | nil => rfl
  | cons item perm ih =>
      rw [List.flatMap_cons, List.flatMap_cons]
      rw [ih fun first listed second listed' => commute first (List.mem_cons_of_mem item listed)
        second (List.mem_cons_of_mem item listed')]
  | swap first second rest =>
      have swapped := commute second List.mem_cons_self first
        (List.mem_cons_of_mem second List.mem_cons_self)
      simp only [List.flatMap_cons, ← List.append_assoc, swapped]
  | trans one two ih ih' =>
      rw [ih commute]
      refine ih' fun first listed second listed' => ?_
      exact commute first (one.mem_iff.mpr listed) second (one.mem_iff.mpr listed')

end Sharing
section Verdicts

variable {world : World Server Loader} {answers : Answers Server} {id : UInt16}
  {publication : Publication}

variable (publication) in
/-- What the notification does in an order, and that what goes is the same in all. -/
theorem effects_of_drops {hits : Fd → Prop} [DecidablePred hits]
    {queues : List (Party Server Loader) → World Server Loader → Server → Loader → List (List Fd)}
    (sound : world.Sound)
    (drops : ∀ order, Drops (world.visits id publication.type order) answers
      (publication.context id) hits (queues order))
    (order : List (Party Server Loader)) (perm : order.Perm (world.slot id publication.type)) :
    ∃ next, notifySubscriber world answers id publication order = .ok next ∧
      Effect world next
        (fun fd => if hits fd then
          world.fall world.slot fd (serversOf (world.slot id publication.type)) else ∅)
        fun loader => (serversOf order).flatMap fun server => queues order world server loader := by
  obtain ⟨next, ran, effect⟩ := notify_drops (drops order) sound order
  refine ⟨next, ran, effect.congr ?_ fun _ => rfl⟩
  intro fd
  rw [fall_slot perm fd perm]

/-- Where nothing is queued, the order does not matter. -/
theorem irrelevant_of_drops {hits : Fd → Prop} [DecidablePred hits] (sound : world.Sound)
    (drops : ∀ order, Drops (world.visits id publication.type order) answers
      (publication.context id) hits fun _ _ _ => []) :
    OrderIrrelevant world answers id publication := by
  refine (order_irrelevant_iff_of_effects (effects_of_drops publication sound drops)).mpr ?_
  intro order other _ _ loader _
  rw [List.flatMap_eq_nil_iff.mpr fun _ _ => rfl, List.flatMap_eq_nil_iff.mpr fun _ _ => rfl]

omit [Fintype Server] [DecidableEq Server] in
theorem handed_visits (order : List (Party Server Loader)) (resps : List Resp) :
    world.handed (world.visits id .dmpWait order) resps = world.handed world.slot resps := by
  funext server
  simp only [World.handed, World.visits, reduceCtorEq, and_false, if_false]

theorem wait_effects (sound : world.Sound) {resps : List Resp}
    (distinct : (resps.map Resp.fd).Nodup) (order : List (Party Server Loader))
    (perm : order.Perm (world.slot id .dmpWait)) :
    ∃ next, notifySubscriber world answers id (.dmpWait resps distinct) order = .ok next ∧
      Effect world next
        (fun fd => if Removed resps fd then
          world.fall world.slot fd (serversOf (world.slot id .dmpWait)) else ∅)
        fun loader => (serversOf order).flatMap fun server =>
          world.handed world.slot resps server loader := by
  obtain ⟨next, ran, effect⟩ := effects_of_drops (.dmpWait resps distinct) sound
    (fun order => wait_drops (world.visits id .dmpWait order) answers distinct) order perm
  refine ⟨next, ran, effect.congr (fun _ => rfl) fun loader => ?_⟩
  rw [handed_visits]

variable (world) in
omit [Fintype Server] [DecidableEq Server] in
theorem handed_length (resps : List Resp) (server : Server) (loader : Loader) :
    (world.handed world.slot resps server loader).length ≤ 1 :=
  share_length (slot_nodup world _ _) _ _

/-- Two lists with one batch at most commute where they do not have different ones. -/
theorem commute_of_equal {Item : Type} {first second : List Item} (short : first.length ≤ 1)
    (shortOther : second.length ≤ 1) (equal : ∀ item ∈ first, ∀ other ∈ second, item = other) :
    first ++ second = second ++ first := by
  match first, second with
  | [], second => rw [List.nil_append, List.append_nil]
  | [item], [] => rfl
  | [item], [other] => rw [equal item List.mem_cons_self other List.mem_cons_self]

theorem equal_of_commute {Item : Type} {first second rest : List Item}
    (short : first.length ≤ 1) (shortOther : second.length ≤ 1)
    (commute : first ++ (second ++ rest) = second ++ (first ++ rest)) :
    ∀ item ∈ first, ∀ other ∈ second, item = other := by
  intro item listed other listedOther
  match first, second with
  | [item'], [other'] =>
      rw [List.mem_singleton] at listed listedOther
      rw [listed, listedOther]
      exact (List.cons.inj commute).1

theorem wait_iff (sound : world.Sound) {resps : List Resp}
    (distinct : (resps.map Resp.fd).Nodup) :
    OrderIrrelevant world answers id (.dmpWait resps distinct) ↔
      Independent world id (.dmpWait resps distinct) := by
  rw [order_irrelevant_iff_of_effects (wait_effects sound distinct)]
  constructor
  · intro same loader listed first second firstListed secondListed
    have short := handed_length world resps
    by_cases equal : first = second
    · subst equal
      have commute : world.handed world.slot resps first loader ++
          (world.handed world.slot resps first loader ++ []) =
            world.handed world.slot resps first loader ++
              (world.handed world.slot resps first loader ++ []) := rfl
      exact equal_of_commute (short first loader) (short first loader) commute
    · have different : (.server first : Party Server Loader) ≠ .server second :=
        fun both => equal (Party.server.inj both)
      obtain ⟨rest, perm⟩ := front_perm firstListed secondListed different
      have swapped := same _ _ perm ((List.Perm.swap _ _ rest).trans perm) loader listed
      exact equal_of_commute (short first loader) (short second loader) swapped
  · intro independent order other perm otherPerm loader listed
    refine flat_map_perm ?_ ((perm.trans otherPerm.symm).filterMap _)
    intro first firstListed second secondListed
    refine commute_of_equal (handed_length world resps first loader)
      (handed_length world resps second loader) ?_
    exact independent loader listed first second (perm.mem_iff.mp (mem_servers_of.mp firstListed))
      (perm.mem_iff.mp (mem_servers_of.mp secondListed))

theorem notify_balance (visits : Visits Server Loader) (answers : Answers Server)
    (order : List (Party Server Loader)) (sockes : List Fd) (world : World Server Loader) :
    notifyAll visits answers order (.balance sockes) world =
      .ok (balanceAll order sockes world) := by
  induction order generalizing sockes world with
  | nil => rfl
  | cons party rest ih =>
      cases party with
      | server server => exact ih sockes world
      | loader loader => exact ih [] (world.queue loader sockes)

theorem balance_effects (world : World Server Loader) (answers : Answers Server) (id : UInt16)
    (sockes : List Fd) (order : List (Party Server Loader)) :
    ∃ next, notifySubscriber world answers id (.balance sockes) order = .ok next ∧
      Effect world next (fun _ => ∅) (share order sockes) :=
  ⟨_, notify_balance _ answers order sockes world, balance_all_effect order sockes world⟩

theorem balance_iff (sockes : List Fd) :
    OrderIrrelevant world answers id (.balance sockes) ↔
      Independent world id (.balance sockes) := by
  rw [order_irrelevant_iff_of_effects fun order _ => balance_effects world answers id sockes order]
  constructor
  · intro same
    by_cases empty : sockes = []
    · exact Or.inl empty
    · refine Or.inr fun first second firstListed secondListed => ?_
      by_contra unequal
      have different : (.loader first : Party Server Loader) ≠ .loader second :=
        fun both => unequal (Party.loader.inj both)
      obtain ⟨rest, perm⟩ := front_perm firstListed secondListed different
      have given := same _ _ perm ((List.Perm.swap _ _ rest).trans perm) first firstListed
      simp only [share, if_pos, if_neg unequal, List.nil_append, List.singleton_append,
        List.cons.injEq] at given
      exact empty given.1
  · intro independent order other perm otherPerm loader listed
    have distinct := slot_nodup world id .balance
    have even (parties : List (Party Server Loader))
        (order : parties.Perm (world.slot id .balance)) :
        share parties sockes loader = [sockes] := by
      have single := independent.imp_right fun single first second listed other =>
        single first second (order.mem_iff.mp listed) (order.mem_iff.mp other)
      rw [share_even (order.nodup_iff.mpr distinct) single, if_pos (order.mem_iff.mpr listed)]
    rw [even order perm, even other otherPerm]

end Verdicts
end RProxy.Notification
