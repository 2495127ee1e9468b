import RProxy.NotifyOrder

/-!
The two events that change entries, and the verdict over whole runs. A pointer
that one server has taken is null for the next one, which keeps it in its entry
or, where it refuses the connection, is called through.
-/

namespace RProxy.Notification

open TcpServer

variable {Server Loader : Type} [Fintype Server] [DecidableEq Server] [DecidableEq Loader]

section Modifying

variable {member : Member} {ctx : DmpModifyContext}

omit [Fintype Server] [DecidableEq Server] [DecidableEq Loader] in
/-- One entry is exchanged or added, and the others keep what is known of them. -/
theorem Member.Sound.store {next : Member} {fd : Fd} {conn : TcpConnection}
    (sound : member.Sound) (lookup : ∀ other, next.tcp.connMap.lookup other =
      if other = fd then some conn else member.tcp.connMap.lookup other)
    (dmp : ∀ other, other ≠ fd → next.dmp other = member.dmp other) (settled : Settled fd conn)
    (entry : conn.channel.leave = false ∧ (next.dmp fd).isSome = true ∧
      ∃ ctx, conn.context = .dmpRegister ctx) : next.Sound := by
  constructor
  · intro other found there
    rw [lookup] at there
    split at there
    · next same =>
        cases there
        rw [same]
        exact settled
    · exact sound.quiet other found there
  · intro other found there
    rw [lookup] at there
    split at there
    · next same =>
        cases there
        rw [same]
        exact entry
    · next different =>
        rw [dmp other different]
        exact sound.entries other found there

omit [Fintype Server] [DecidableEq Server] [DecidableEq Loader] in
theorem modify_returns (sound : member.Sound) (ctx : DmpModifyContext) :
    ∃ tcp, member.tcp.updateForModify ctx = .ok tcp ∧ { member with tcp := tcp }.Sound := by
  unfold updateForModify
  cases found : member.tcp.connMap.lookup ctx.fd with
  | none => exact ⟨member.tcp, rfl, sound⟩
  | some conn =>
      obtain ⟨stays, pointer, connCtx, typed⟩ := sound.entries ctx.fd conn found
      have settled := sound.quiet ctx.fd conn found
      simp only [typed, Context.toRegister]
      split
      · exact ⟨member.tcp, rfl, sound⟩
      · have lookup := UnorderedMap.lookup_modify member.tcp.connMap ctx.fd
        simp only [found, Option.map_some] at lookup
        exact ⟨_, rfl, sound.store (fun other => lookup other _) (fun _ _ => rfl)
          ⟨settled.sockfd, settled.socket, settled.drained⟩ ⟨stays, pointer, _, rfl⟩⟩

/-- What DMPMODIFY makes of a server. -/
def modified (ctx : DmpModifyContext) (member : Member) : Member :=
  match member.tcp.updateForModify ctx with
  | .ok tcp => { member with tcp := tcp }
  | .error _ => member

theorem notify_modify (ctx : DmpModifyContext) {world : World Server Loader} (sound : world.Sound)
    (visits : Visits Server Loader) (answers : Answers Server)
    {order : List (Party Server Loader)} (distinct : order.Nodup) :
    ∃ next, notifyAll visits answers order (.dmpModify ctx) world = .ok next ∧ next.Sound ∧
      (∀ id, next.members id =
        if .server id ∈ order then modified ctx (world.members id) else world.members id) ∧
      next.loaders = world.loaders := by
  induction order generalizing world with
  | nil => exact ⟨world, rfl, sound, fun id => by rw [if_neg List.not_mem_nil], rfl⟩
  | cons party rest ih =>
      obtain ⟨fresh, distinctRest⟩ := List.nodup_cons.mp distinct
      cases party with
      | loader id =>
          obtain ⟨next, ran, soundNext, members, loaders⟩ := ih sound distinctRest
          refine ⟨next, ran, soundNext, fun other => ?_, loaders⟩
          rw [members]
          simp
      | server id =>
          obtain ⟨tcp, returned, soundHere⟩ := modify_returns (sound id) ctx
          have soundMiddle : (world.setTcp id tcp).Sound := by
            intro other
            rw [World.members_set_tcp]
            split
            · exact soundHere
            · exact sound other
          obtain ⟨next, ran, soundNext, members, loaders⟩ := ih soundMiddle distinctRest
          refine ⟨next, ?_, soundNext, fun other => ?_, loaders⟩
          · simp only [notifyAll, updateServer, returned, Except.map, ran]
          · rw [members, World.members_set_tcp]
            by_cases same : other = id
            · subst same
              rw [if_neg fresh, if_pos rfl, if_pos List.mem_cons_self, modified, returned]
            · rw [if_neg same]
              simp [same]

theorem modify_irrelevant {world : World Server Loader} (sound : world.Sound)
    (answers : Answers Server) (id : UInt16) (ctx : DmpModifyContext) :
    OrderIrrelevant world answers id (.dmpModify ctx) := by
  refine irrelevant_of_determined (fun server =>
    if .server server ∈ world.slot id .dmpModify then modified ctx (world.members server)
    else world.members server) world.loaders fun order perm => ?_
  have distinct := perm.nodup_iff.mpr (slot_nodup world id .dmpModify)
  obtain ⟨next, ran, _, members, loaders⟩ :=
    notify_modify ctx sound (world.visits id .dmpModify order) answers distinct
  refine ⟨next, ran, fun server => ?_, loaders⟩
  rw [members]
  exact if_congr perm.mem_iff rfl rfl

end Modifying

section Registering

variable {world : World Server Loader} {ctx : DmpRegisterContext} {peer : InetAddr}

omit [Fintype Server] [DecidableEq Loader] in
theorem members_enrol (id other : Server) (dmp : Option UInt16) :
    (world.enrol id ctx dmp peer).members other =
      if other = id then
        { world.members id with
          tcp := ((world.members id).tcp.updateForRegister world.center ctx peer).1
          dmp := Function.update (world.members id).dmp ctx.fd dmp }
      else world.members other :=
  Function.update_apply _ _ _ _

omit [Fintype Server] [DecidableEq Loader] in
/-- A fresh entry is sound as long as its pointer is one. -/
theorem enrol_sound (sound : world.Sound) {id : Server}
    (absent : ctx.fd ∉ (world.members id).tcp.connMap) (dmp : UInt16) :
    (world.enrol id ctx (some dmp) peer).Sound := by
  intro other
  rw [members_enrol]
  split
  · have fresh := AList.lookup_eq_none.mpr absent
    simp only [TcpServer.updateForRegister, absent, if_false]
    refine (sound id).store (fun other => UnorderedMap.lookup_emplace_fresh fresh other _)
      (fun other different => Function.update_of_ne different _ _)
      ⟨rfl, rfl, ArrayBuffer.new_readable _⟩ ⟨rfl, ?_, ctx, rfl⟩
    exact congrArg Option.isSome (Function.update_self ctx.fd (some dmp) (world.members id).dmp)
  · exact sound other

omit [Fintype Server] [DecidableEq Loader] in
theorem refuse_effect (world : World Server Loader) (id : Server) (ctx : DmpRegisterContext)
    (peer : InetAddr) :
    Effect world (world.refuse id ctx peer) (fun _ => ∅) fun _ => [] := by
  have effect : Effect world (world.setTcp id { (world.members id).tcp with
      closed := (world.members id).tcp.closed ++ [ctx.fd] }) (fun _ => ∅) fun _ => [] :=
    same_tcp_effect (fun _ => rfl) rfl
  exact ⟨effect.lookup, effect.spare, effect.dmp, effect.pubID, effect.loaders⟩

omit [DecidableEq Loader] in
/-- A connection for a descriptor in the table is refused, and its channel takes
the entry along. -/
theorem refused_effect (peer : InetAddr) (sound : world.Sound) (visits : Visits Server Loader)
    {id : Server} (present : ctx.fd ∈ (world.members id).tcp.connMap) (dmp : UInt16) :
    ∃ after, updateForRegister visits id ctx (some dmp) peer world = .ok after ∧
      Effect world after
        (only ctx.fd (world.fall visits ctx.fd (serversOf (visits dmp .dmpDelete)))) fun _ => [] := by
  have refused := refuse_effect world id ctx peer
  obtain ⟨after, ran, effect⟩ :=
    delete_effect visits ctx.fd (refused.sound sound) (visits dmp .dmpDelete)
  refine ⟨after, by simp only [updateForRegister, if_pos present, ran], ?_⟩
  refine (refused.trans effect).congr ?_ fun _ => rfl
  intro fd
  rw [Finset.empty_union, refused.fall_kept rfl]

variable (ctx peer) in
omit [DecidableEq Loader] in
theorem register_returns (sound : world.Sound) (visits : Visits Server Loader) (id : Server)
    (dmp : UInt16) :
    ∃ after, updateForRegister visits id ctx (some dmp) peer world = .ok after ∧ after.Sound := by
  by_cases present : ctx.fd ∈ (world.members id).tcp.connMap
  · obtain ⟨after, ran, effect⟩ := refused_effect peer sound visits present dmp
    exact ⟨after, ran, effect.sound sound⟩
  · exact ⟨_, by rw [updateForRegister, if_neg present], enrol_sound sound present dmp⟩

variable {visits : Visits Server Loader} {answers : Answers Server}

theorem notify_register_server (id : Server) (rest : List (Party Server Loader))
    (dmp : Option UInt16) (world : World Server Loader) :
    notifyAll visits answers (.server id :: rest) (.dmpRegister ctx dmp) world =
      match updateForRegister visits id ctx dmp (answers.peer id ctx.fd) world with
      | .error fault => .error fault
      | .ok world => notifyAll visits answers rest (.dmpRegister ctx none) world := by
  simp only [notifyAll, updateServer]
  cases updateForRegister visits id ctx dmp (answers.peer id ctx.fd) world with
  | error fault => rfl
  | ok world => rfl

variable (visits answers ctx) in
/-- With one `TcpServer` at most there is nobody to find the pointer gone. -/
theorem notify_register_alone (order : List (Party Server Loader)) (dmp : Option UInt16)
    (world : World Server Loader) :
    (serversOf order = [] →
      notifyAll visits answers order (.dmpRegister ctx dmp) world = .ok world) ∧
    ∀ id, serversOf order = [id] →
      notifyAll visits answers order (.dmpRegister ctx dmp) world =
        updateForRegister visits id ctx dmp (answers.peer id ctx.fd) world := by
  induction order generalizing dmp world with
  | nil => exact ⟨fun _ => rfl, fun id single => nomatch single⟩
  | cons party rest ih =>
      cases party with
      | loader loader => exact ih dmp world
      | server server =>
          refine ⟨fun none => (nomatch none), fun id single => ?_⟩
          obtain ⟨rfl, alone⟩ := List.cons.inj single
          rw [notify_register_server]
          cases updateForRegister visits server ctx dmp (answers.peer server ctx.fd) world with
          | error fault => rfl
          | ok after => exact (ih none after).1 alone

/-- The servers that find the pointer gone keep a null one, as far as they
return; the others are as they were. -/
theorem notify_register_null {order : List (Party Server Loader)} {world next : World Server Loader}
    (ran : notifyAll visits answers order (.dmpRegister ctx none) world = .ok next) (id : Server) :
    if .server id ∈ order then
      ctx.fd ∈ (next.members id).tcp.connMap ∧ (next.members id).dmp ctx.fd = none
    else next.members id = world.members id := by
  induction order generalizing world with
  | nil =>
      cases ran
      rw [if_neg List.not_mem_nil]
  | cons party rest ih =>
      cases party with
      | loader loader =>
          have later := ih ran
          simp only [List.mem_cons, reduceCtorEq, false_or]
          exact later
      | server server =>
          rw [notify_register_server, updateForRegister] at ran
          by_cases present : ctx.fd ∈ (world.members server).tcp.connMap
          · rw [if_pos present] at ran
            cases ran
          · rw [if_neg present] at ran
            have later := ih ran
            by_cases again : .server id ∈ rest
            · rw [if_pos again] at later
              rw [if_pos (List.mem_cons_of_mem _ again)]
              exact later
            · rw [if_neg again, members_enrol] at later
              by_cases same : id = server
              · subst same
                rw [if_pos rfl] at later
                rw [if_pos List.mem_cons_self, later]
                simp only [TcpServer.updateForRegister, present, if_false, Function.update_self,
                  UnorderedMap.mem_emplace, true_or, and_self]
              · rw [if_neg same] at later
                rw [if_neg (by simp [same, again]), later]

/-- The server that takes the pointer keeps it where it keeps the descriptor. -/
theorem first_keeps {next : World Server Loader} (sound : world.Sound) {id : Server}
    {rest : List (Party Server Loader)} {dmp : UInt16} (fresh : .server id ∉ rest)
    (ran : notifyAll visits answers (.server id :: rest) (.dmpRegister ctx (some dmp)) world =
      .ok next) (present : ctx.fd ∈ (next.members id).tcp.connMap) :
    ((next.members id).dmp ctx.fd).isSome = true := by
  obtain ⟨after, first, soundAfter⟩ :=
    register_returns ctx (answers.peer id ctx.fd) sound visits id dmp
  rw [notify_register_server, first] at ran
  have kept := notify_register_null ran id
  rw [if_neg fresh] at kept
  rw [kept] at present ⊢
  obtain ⟨conn, found⟩ := Option.isSome_iff_exists.mp (AList.lookup_isSome.mpr present)
  exact ((soundAfter id).entries ctx.fd conn found).2.1

/-- The one after it keeps a null pointer. -/
theorem second_null {next : World Server Loader} (sound : world.Sound) {id second : Server}
    {rest : List (Party Server Loader)} {dmp : UInt16} (listed : .server second ∈ rest)
    (ran : notifyAll visits answers (.server id :: rest) (.dmpRegister ctx (some dmp)) world =
      .ok next) :
    ctx.fd ∈ (next.members second).tcp.connMap ∧ (next.members second).dmp ctx.fd = none := by
  obtain ⟨after, first, _⟩ :=
    register_returns ctx (answers.peer id ctx.fd) sound visits id dmp
  rw [notify_register_server, first] at ran
  have kept := notify_register_null ran second
  rw [if_pos listed] at kept
  exact kept

omit [Fintype Server] [DecidableEq Server] [DecidableEq Loader] in
/-- A set in which all servers are the same one has one at most. -/
theorem servers_alone {slot : List (Party Server Loader)} (distinct : slot.Nodup)
    (single : ∀ first second, .server first ∈ slot → .server second ∈ slot → first = second) :
    serversOf slot = [] ∨ ∃ server, serversOf slot = [server] := by
  have unique : (serversOf slot).Nodup := by
    refine distinct.filterMap fun first second server listed other => ?_
    cases first <;> cases second <;> simp_all
  match servers : serversOf slot with
  | [] => exact Or.inl rfl
  | [server] => exact Or.inr ⟨server, rfl⟩
  | first :: second :: rest =>
      rw [servers] at unique
      have firstListed : first ∈ serversOf slot := by simp [servers]
      have secondListed : second ∈ serversOf slot := by simp [servers]
      have equal := single first second (mem_servers_of.mp firstListed)
        (mem_servers_of.mp secondListed)
      subst equal
      exact absurd List.mem_cons_self (List.nodup_cons.mp unique).1

end Registering

section Verdict

variable {world : World Server Loader} {answers : Answers Server} {id : UInt16}

/-- Two servers: whichever comes second has no pointer to keep. -/
theorem register_single (sound : world.Sound) {fd : Fd}
    (irrelevant : OrderIrrelevant world answers id (.dmpRegister fd)) :
    Independent world id (.dmpRegister fd) := by
  intro first second firstListed secondListed
  by_contra unequal
  have different : (.server first : Party Server Loader) ≠ .server second :=
    fun both => unequal (Party.server.inj both)
  obtain ⟨rest, perm⟩ := front_perm firstListed secondListed different
  have swapped := (List.Perm.swap (Party.server first) (.server second) rest).trans perm
  have distinct := perm.nodup_iff.mpr (slot_nodup world id .dmpRegister)
  obtain ⟨next, ran⟩ := irrelevant.returns _ perm
  obtain ⟨otherNext, otherRan⟩ := irrelevant.returns _ swapped
  have same : SameServer (next.members second) (otherNext.members second) :=
    irrelevant.same _ _ perm swapped next otherNext ran otherRan _ secondListed
  -- the second one of the first order is the first one of the other
  have null := second_null sound List.mem_cons_self ran
  have present : fd ∈ (otherNext.members second).tcp.connMap := by
    rw [← AList.lookup_isSome, ← same.lookup, AList.lookup_isSome]
    exact null.1
  have fresh : .server second ∉ Party.server first :: rest :=
    (List.nodup_cons.mp (swapped.nodup_iff.mpr (slot_nodup world id .dmpRegister))).1
  have kept := first_keeps sound fresh otherRan present
  rw [← same.dmp fd null.1, null.2] at kept
  exact Bool.false_ne_true kept

/-- What a single server does does not depend on where it is visited. -/
theorem register_alone (sound : world.Sound) {fd : Fd}
    (single : Independent world id (.dmpRegister fd)) :
    OrderIrrelevant world answers id (.dmpRegister fd) := by
  let ctx : DmpRegisterContext := ⟨fd, Demultiplex.defaultEvents⟩
  have alone (order : List (Party Server Loader)) :=
    notify_register_alone ctx (world.visits id .dmpRegister order) answers order (some id) world
  have servers {order : List (Party Server Loader)}
      (perm : order.Perm (world.slot id .dmpRegister)) :
      (serversOf order).Perm (serversOf (world.slot id .dmpRegister)) := perm.filterMap _
  rcases servers_alone (slot_nodup world id .dmpRegister) single with empty | ⟨server, one⟩
  · rw [empty] at servers
    refine irrelevant_of_determined world.members world.loaders fun order perm => ?_
    exact ⟨world, (alone order).1 (servers perm).eq_nil, fun _ => rfl, rfl⟩
  rw [one] at servers
  by_cases present : fd ∈ (world.members server).tcp.connMap
  · have effects (order : List (Party Server Loader))
        (perm : order.Perm (world.slot id .dmpRegister)) :
        ∃ next, notifySubscriber world answers id (.dmpRegister fd) order = .ok next ∧
          Effect world next (only fd (world.fall world.slot fd
            (serversOf (world.slot id .dmpDelete)))) fun _ => [] := by
      obtain ⟨next, ran, effect⟩ := refused_effect (answers.peer server fd) sound
        (world.visits id .dmpRegister order) (show ctx.fd ∈ _ from present) id
      refine ⟨next, ?_, effect.congr ?_ fun _ => rfl⟩
      · rw [← ran]
        exact (alone order).2 server (servers perm).eq_singleton
      · intro other
        rw [fall_slot perm fd (visits_perm perm id .dmpDelete)]
    exact (order_irrelevant_iff_of_effects effects).mpr fun _ _ _ _ _ _ => rfl
  · let after := world.enrol server ctx (some id) (answers.peer server fd)
    refine irrelevant_of_determined after.members after.loaders fun order perm => ?_
    refine ⟨after, ?_, fun _ => rfl, rfl⟩
    have ran := (alone order).2 server (servers perm).eq_singleton
    rw [updateForRegister, if_neg present] at ran
    exact ran

theorem register_iff (sound : world.Sound) (fd : Fd) :
    OrderIrrelevant world answers id (.dmpRegister fd) ↔ Independent world id (.dmpRegister fd) :=
  ⟨register_single sound, register_alone sound⟩

/-- What a publication needs, in a sound world, is what makes its order irrelevant. -/
theorem publication_iff (sound : world.Sound) (publication : Publication) :
    OrderIrrelevant world answers id publication ↔ Independent world id publication := by
  cases publication with
  | accepted =>
      exact iff_of_true (irrelevant_of_drops sound fun order =>
        idle_drops _ _ _ (fun _ _ => rfl) fun _ _ => rfl) trivial
  | dmpRegister fd => exact register_iff sound fd
  | dmpModify ctx => exact iff_of_true (modify_irrelevant sound answers id ctx) trivial
  | dmpDelete fd =>
      exact iff_of_true (irrelevant_of_drops sound fun order => delete_drops _ answers fd) trivial
  | dmpWait resps distinct => exact wait_iff sound distinct
  | forward sockToBackend =>
      exact iff_of_true (irrelevant_of_drops sound fun order =>
        idle_drops _ _ _ (fun _ _ => rfl) fun _ _ => rfl) trivial
  | balance sockes => exact balance_iff sockes

omit [Fintype Server] [DecidableEq Loader] in
theorem sound_of_effect (sound : world.Sound) {result : Except Fault (World Server Loader)}
    {next : World Server Loader} (ran : result = .ok next) {gone : Fd → Finset Server}
    {queued : Loader → List (List Fd)}
    (returned : ∃ after, result = .ok after ∧ Effect world after gone queued) : next.Sound := by
  obtain ⟨after, same, effect⟩ := returned
  rw [ran] at same
  cases same
  exact effect.sound sound

/-- One server at most registers soundly. -/
theorem register_sound (sound : world.Sound) {fd : Fd}
    (single : Independent world id (.dmpRegister fd)) {order : List (Party Server Loader)}
    (perm : order.Perm (world.slot id .dmpRegister)) {next : World Server Loader}
    (ran : notifySubscriber world answers id (.dmpRegister fd) order = .ok next) : next.Sound := by
  let ctx : DmpRegisterContext := ⟨fd, Demultiplex.defaultEvents⟩
  have alone :=
    notify_register_alone ctx (world.visits id .dmpRegister order) answers order (some id) world
  have distinct := perm.nodup_iff.mpr (slot_nodup world id .dmpRegister)
  have singleHere : ∀ first second, .server first ∈ order → .server second ∈ order →
      first = second := fun first second listed other =>
    single first second (perm.mem_iff.mp listed) (perm.mem_iff.mp other)
  rcases servers_alone distinct singleHere with empty | ⟨server, one⟩
  · cases ran.symm.trans (alone.1 empty)
    exact sound
  · obtain ⟨_, returned, soundNext⟩ := register_returns ctx (answers.peer server fd) sound
      (world.visits id .dmpRegister order) server id
    cases ran.symm.trans ((alone.2 server one).trans returned)
    exact soundNext

/-- A publication that is independent of the order leaves the servers sound. -/
theorem publication_sound (sound : world.Sound) {publication : Publication}
    (independent : Independent world id publication) {order : List (Party Server Loader)}
    (perm : order.Perm (world.slot id publication.type)) {next : World Server Loader}
    (ran : notifySubscriber world answers id publication order = .ok next) : next.Sound := by
  cases publication with
  | accepted =>
      have idle := idle_drops (world.visits id .accepted order) answers .accepted
        (fun _ _ => rfl) fun _ _ => rfl
      exact sound_of_effect sound ran (notify_drops idle sound order)
  | dmpRegister fd => exact register_sound sound independent perm ran
  | dmpModify ctx =>
      have distinct := perm.nodup_iff.mpr (slot_nodup world id .dmpModify)
      obtain ⟨_, returned, soundNext, _⟩ :=
        notify_modify ctx sound (world.visits id .dmpModify order) answers distinct
      cases ran.symm.trans returned
      exact soundNext
  | dmpDelete fd =>
      exact sound_of_effect sound ran (notify_drops (delete_drops _ answers fd) sound order)
  | dmpWait resps distinct =>
      exact sound_of_effect sound ran (wait_effects sound distinct order perm)
  | forward sockToBackend =>
      have idle := idle_drops (world.visits id .forward order) answers (.forward sockToBackend)
        (fun _ _ => rfl) fun _ _ => rfl
      exact sound_of_effect sound ran (notify_drops idle sound order)
  | balance sockes =>
      exact sound_of_effect sound ran (balance_effects world answers id sockes order)

end Verdict

/-! Runs: publications, each visited in some order, and what else happens to the
subscriptions and to the loaders in between. -/

section Runs

inductive Action (Server Loader : Type) where
  | publish (id : UInt16) (publication : Publication) (answers : Answers Server)
      (order : List (Party Server Loader))
  | rewire (center : PubSubCenter Unit (Party Server Loader))
  | work (id : Loader) (loader : LoadBalancer)

def World.start (pubIDs : Server → UInt16) (loaders : Loader → LoadBalancer)
    (center : PubSubCenter Unit (Party Server Loader)) : World Server Loader where
  members id := ⟨⟨∅, 0, []⟩, pubIDs id, fun _ => none⟩
  loaders := loaders
  center := center

/-- The order of a publication is one of the set's. -/
def machine : Machine (World Server Loader) (Action Server Loader) where
  step world action :=
    match action with
    | .publish id publication answers order =>
        if order.Perm (world.slot id publication.type) then
          (notifySubscriber world answers id publication order).toOption
        else none
    | .rewire center => some { world with center := center }
    | .work id loader =>
        some { world with loaders := Function.update world.loaders id loader }

namespace Action

def Irrelevant (world : World Server Loader) : Action Server Loader → Prop
  | .publish id publication answers _ => OrderIrrelevant world answers id publication
  | _ => True

def Independent (world : World Server Loader) : Action Server Loader → Prop
  | .publish id publication _ _ => Notification.Independent world id publication
  | _ => True

end Action

omit [Fintype Server] [DecidableEq Server] [DecidableEq Loader] in
theorem start_sound (pubIDs : Server → UInt16) (loaders : Loader → LoadBalancer)
    (center : PubSubCenter Unit (Party Server Loader)) :
    (World.start pubIDs loaders center).Sound := fun _ =>
  ⟨fun _ _ found => (nomatch found), fun _ _ found => (nomatch found)⟩

theorem action_iff (world : World Server Loader) (action : Action Server Loader)
    (sound : world.Sound) : action.Irrelevant world ↔ action.Independent world := by
  cases action with
  | publish id publication answers order => exact publication_iff sound publication
  | rewire center => exact Iff.rfl
  | work id loader => exact Iff.rfl

theorem step_sound (world : World Server Loader) (action : Action Server Loader)
    (next : World Server Loader) (sound : world.Sound) (independent : action.Independent world)
    (stepped : machine.step world action = some next) : next.Sound := by
  cases action with
  | publish id publication answers order =>
      simp only [machine] at stepped
      split at stepped
      · next perm =>
          cases ran : notifySubscriber world answers id publication order with
          | error fault =>
              rw [ran] at stepped
              cases stepped
          | ok after =>
              rw [ran] at stepped
              cases stepped
              exact publication_sound sound independent perm ran
      · cases stepped
  | rewire center =>
      cases stepped
      exact sound
  | work id loader =>
      cases stepped
      exact sound

/-- No order of a run's publications matters exactly when each is independent of
its order. -/
theorem order_irrelevant_iff (pubIDs : Server → UInt16) (loaders : Loader → LoadBalancer)
    (center : PubSubCenter Unit (Party Server Loader)) (actions : List (Action Server Loader)) :
    machine.Meets Action.Irrelevant (World.start pubIDs loaders center) actions ↔
      machine.Meets Action.Independent (World.start pubIDs loaders center) actions :=
  machine.meets_iff action_iff step_sound (start_sound pubIDs loaders center) actions

/-- The batch [5] for two `LoadBalancer`s. -/
theorem two_loaders_order_matters : ¬ ∀ (pubIDs : Unit → UInt16) (loaders : Bool → LoadBalancer)
    (center : PubSubCenter Unit (Party Unit Bool)) (actions : List (Action Unit Bool)),
    machine.Meets Action.Irrelevant (World.start pubIDs loaders center) actions := by
  intro always
  let idle : LoadBalancer := ⟨∅, ∅, [], [], []⟩
  let registered : PubSubCenter Unit (Party Unit Bool) := ⟨UnorderedMap.emplace ∅ 0 (), ∅, ∅⟩
  let both : UnorderedSet (Party Unit Bool) :=
    UnorderedMap.emplace (UnorderedMap.emplace ∅ (.loader false) ()) (.loader true) ()
  let center := registered.setSlot 0 .balance both
  let world : World Unit Bool := World.start (fun _ => 0) (fun _ => idle) center
  let answers : Answers Unit := ⟨fun _ _ => ⟨[], 0⟩, fun _ _ => none⟩
  have irrelevant : OrderIrrelevant world answers 0 (.balance [5]) :=
    (always _ _ center [.publish 0 (.balance [5]) answers (world.slot 0 .balance)]).1
  have falseListed : .loader false ∈ world.slot 0 .balance := by decide
  have trueListed : .loader true ∈ world.slot 0 .balance := by decide
  rcases (balance_iff [5]).mp irrelevant with empty | single
  · cases empty
  · cases single false true falseListed trueListed

end Runs
end RProxy.Notification
