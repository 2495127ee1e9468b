import RProxy.Notification

/-!
What the notifications of `RProxy.Notification` do, apart from registering and
modifying: entries go and batches are queued. The entries that go for a
descriptor are those that a depth-first visit of the servers comes to.
-/

namespace RProxy.Notification

open DepthFirst TcpServer

variable {Server Loader : Type}

/-- Between two notifications every entry names its key, nothing is pending, and
the channel has not left and knows its `Demultiplex`. -/
structure Member.Sound (member : Member) : Prop where
  quiet : member.tcp.Quiet
  entries : ∀ fd conn, member.tcp.connMap.lookup fd = some conn →
    conn.channel.leave = false ∧ (member.dmp fd).isSome = true ∧
      ∃ ctx, conn.context = .dmpRegister ctx

def World.Sound (world : World Server Loader) : Prop := ∀ id, (world.members id).Sound

/-- The count of connections next to the size of the table. -/
def Member.spare (member : Member) : Int :=
  member.tcp.totalConn - (member.tcp.connMap.keys.length : Int)

variable [DecidableEq Server]

/-- The entries of the servers in `gone` go, and `queued` is queued. -/
structure Effect (world next : World Server Loader) (gone : Fd → Finset Server)
    (queued : Loader → List (List Fd)) : Prop where
  lookup : ∀ id fd, next.lookup id fd = if id ∈ gone fd then none else world.lookup id fd
  spare : ∀ id, (next.members id).spare = (world.members id).spare
  dmp : ∀ id, (next.members id).dmp = (world.members id).dmp
  pubID : ∀ id, (next.members id).pubID = (world.members id).pubID
  loaders : ∀ id, next.loaders id = { world.loaders id with
    sockQueue := (world.loaders id).sockQueue ++ queued id }

section Effects

variable {world middle next : World Server Loader} {gone gone' : Fd → Finset Server}
  {queued queued' : Loader → List (List Fd)}

theorem Effect.refl (world : World Server Loader) :
    Effect world world (fun _ => ∅) fun _ => [] where
  lookup id fd := by rw [if_neg (Finset.notMem_empty id)]
  spare _ := rfl
  dmp _ := rfl
  pubID _ := rfl
  loaders id := by rw [List.append_nil]

theorem Effect.trans (first : Effect world middle gone queued)
    (second : Effect middle next gone' queued') :
    Effect world next (fun fd => gone fd ∪ gone' fd) fun id => queued id ++ queued' id where
  lookup id fd := by
    rw [second.lookup, first.lookup]
    by_cases later : id ∈ gone' fd <;> simp [later]
  spare id := (second.spare id).trans (first.spare id)
  dmp id := (second.dmp id).trans (first.dmp id)
  pubID id := (second.pubID id).trans (first.pubID id)
  loaders id := by rw [second.loaders, first.loaders, List.append_assoc]

theorem Effect.congr (effect : Effect world next gone queued) (same : ∀ fd, gone fd = gone' fd)
    (sameQueue : ∀ id, queued id = queued' id) : Effect world next gone' queued' := by
  rw [← funext same, ← funext sameQueue]
  exact effect

theorem Effect.found {id : Server} {fd : Fd} {conn : TcpConnection}
    (effect : Effect world next gone queued) (found : next.lookup id fd = some conn) :
    id ∉ gone fd ∧ world.lookup id fd = some conn := by
  rw [effect.lookup] at found
  split at found
  · cases found
  · exact ⟨‹_›, found⟩

theorem Effect.sound (sound : world.Sound) (effect : Effect world next gone queued) :
    next.Sound := by
  intro id
  constructor
  · intro fd conn found
    exact (sound id).quiet fd conn (effect.found found).2
  · intro fd conn found
    rw [effect.dmp]
    exact (sound id).entries fd conn (effect.found found).2

theorem Effect.holders [Fintype Server] (effect : Effect world next gone queued) (fd : Fd) :
    next.holders fd = world.holders fd \ gone fd := by
  ext id
  rw [World.mem_holders, effect.lookup, Finset.mem_sdiff, World.mem_holders]
  by_cases dropped : id ∈ gone fd <;> simp [dropped]

end Effects

/-- Servers that go for one descriptor only. -/
def only (fd : Fd) (gone : Finset Server) (other : Fd) : Finset Server :=
  if other = fd then gone else ∅

omit [DecidableEq Server] in
theorem length_keys_erase {map : UnorderedMap Fd TcpConnection} {fd : Fd} (present : fd ∈ map) :
    (map.erase fd).keys.length + 1 = map.keys.length := by
  rw [AList.keys_erase, List.length_erase_add_one (AList.mem_keys.mp present)]

theorem remove_spare (member : Member) (fd : Fd) :
    { member with tcp := member.tcp.removeConnection fd }.spare = member.spare := by
  simp only [Member.spare, removeConnection]
  cases found : member.tcp.connMap.lookup fd with
  | none => rfl
  | some conn =>
      have size := length_keys_erase (UnorderedMap.mem_of_lookup found)
      simp only
      omega

section Tables

variable {world : World Server Loader} {id : Server} {tcp : TcpServer}

/-- A table that is exchanged for one with the same spare changes nothing else. -/
theorem set_tcp_keeps
    (spare : { world.members id with tcp := tcp }.spare = (world.members id).spare)
    (other : Server) :
    ((world.setTcp id tcp).members other).spare = (world.members other).spare ∧
      ((world.setTcp id tcp).members other).dmp = (world.members other).dmp ∧
      ((world.setTcp id tcp).members other).pubID = (world.members other).pubID := by
  rw [World.members_set_tcp]
  split
  · next same =>
      rw [same]
      exact ⟨spare, rfl, rfl⟩
  · exact ⟨rfl, rfl, rfl⟩

theorem set_tcp_effect {dropped : Fd → Prop} [DecidablePred dropped]
    (lookup : ∀ fd, tcp.connMap.lookup fd = if dropped fd then none else world.lookup id fd)
    (spare : { world.members id with tcp := tcp }.spare = (world.members id).spare) :
    Effect world (world.setTcp id tcp) (fun fd => if dropped fd then {id} else ∅) fun _ => [] where
  lookup other fd := by
    rw [World.lookup, World.members_set_tcp]
    by_cases same : other = id
    · subst same
      rw [if_pos rfl, lookup]
      by_cases drops : dropped fd <;> simp [drops]
    · rw [if_neg same]
      by_cases drops : dropped fd <;> simp [drops, same, World.lookup]
  spare other := (set_tcp_keeps spare other).1
  dmp other := (set_tcp_keeps spare other).2.1
  pubID other := (set_tcp_keeps spare other).2.2
  loaders other := by
    rw [List.append_nil]
    rfl

theorem remove_effect (world : World Server Loader) (id : Server) (fd : Fd) :
    Effect world (world.remove id fd) (only fd {id}) fun _ => [] :=
  set_tcp_effect (fun key => TcpServer.remove_lookup _ fd key) (remove_spare _ fd)

end Tables

section Deleting

variable [Fintype Server] {visits : Visits Server Loader} {fd : Fd} {world : World Server Loader}
  {next : Server → List Server}

/-- Where DMPDELETE goes on from the entry of a server. -/
def Follows (visits : Visits Server Loader) (fd : Fd) (world : World Server Loader)
    (next : Server → List Server) : Prop :=
  ∀ id conn, world.lookup id fd = some conn →
    if conn.channel.leave = true then next id = []
    else ∃ dmp, (world.members id).dmp fd = some dmp ∧ next id = serversOf (visits dmp .dmpDelete)

omit [Fintype Server] in
theorem Follows.remove (follows : Follows visits fd world next) (id : Server) :
    Follows visits fd (world.remove id fd) next := by
  intro other conn found
  have effect := remove_effect world id fd
  rw [effect.dmp]
  exact follows other conn (effect.found found).2

/-- One more entry goes, and then those that the rest of the visit comes to. -/
theorem visited_effect {id : Server} {pending visited : List Server} {after : World Server Loader}
    (present : id ∈ world.holders fd) (leads : next id ++ pending = visited)
    (effect : Effect (world.remove id fd) after
      (only fd (reach next visited ((world.remove id fd).holders fd))) fun _ => []) :
    Effect world after (only fd (reach next (id :: pending) (world.holders fd))) fun _ => [] := by
  refine ((remove_effect world id fd).trans effect).congr ?_ fun _ => rfl
  intro other
  simp only [only, World.holders_remove]
  split
  · rw [reach_cons next present, leads, Finset.insert_eq]
  · exact Finset.empty_union ∅

theorem delete_all_effect (follows : Follows visits fd world next)
    (pending : List (Party Server Loader)) :
    ∃ after, deleteAll visits fd pending world = .ok after ∧
      Effect world after (only fd (reach next (serversOf pending) (world.holders fd)))
        fun _ => [] := by
  induction pending, world using deleteAll.induct visits fd with
  | case1 world =>
      refine ⟨world, by rw [deleteAll], (Effect.refl world).congr ?_ fun _ => rfl⟩
      intro other
      simp [only, serversOf, reach_nil]
  | case2 id rest world ih =>
      obtain ⟨after, ran, effect⟩ := ih follows
      exact ⟨after, by rw [deleteAll, ran], effect⟩
  | case3 id rest world absent ih =>
      obtain ⟨after, ran, effect⟩ := ih follows
      have gone : id ∉ world.holders fd := by
        rw [World.mem_holders, absent]
        exact Bool.false_ne_true
      refine ⟨after, by rw [delete_all_absent visits rest absent, ran], ?_⟩
      exact effect.congr (fun other => by rw [← reach_gone next gone]; rfl) fun _ => rfl
  | case4 id rest world conn found left ih =>
      obtain ⟨after, ran, effect⟩ := ih (follows.remove id)
      have leads := follows id conn found
      rw [if_pos left] at leads
      refine ⟨after, by rw [delete_all_found visits rest found, if_pos left, ran], ?_⟩
      refine visited_effect (World.mem_holders_of found) ?_ effect
      rw [leads]
      rfl
  | case5 id rest world conn found stays null =>
      have leads := follows id conn found
      rw [if_neg stays, null] at leads
      obtain ⟨dmp, pointer, _⟩ := leads
      cases pointer
  | case6 id rest world conn found stays dmp pointer ih =>
      obtain ⟨after, ran, effect⟩ := ih (follows.remove id)
      have leads := follows id conn found
      rw [if_neg stays, pointer] at leads
      obtain ⟨_, ⟨⟩, targets⟩ := leads
      refine ⟨after, ?_, visited_effect (World.mem_holders_of found) ?_ effect⟩
      · rw [delete_all_found visits rest found, if_neg stays, pointer]
        exact ran
      · rw [targets, servers_of_append]
        rfl

/-- The servers that the `Demultiplex` of an entry tells when the entry goes. -/
def World.targets (world : World Server Loader) (visits : Visits Server Loader) (fd : Fd)
    (id : Server) : List Server :=
  match (world.members id).dmp fd with
  | none => []
  | some dmp => serversOf (visits dmp .dmpDelete)

/-- The servers that lose their entry for `fd` once `roots` are told to. -/
def World.fall (world : World Server Loader) (visits : Visits Server Loader) (fd : Fd)
    (roots : List Server) : Finset Server :=
  reach (world.targets visits fd) roots (world.holders fd)

omit [DecidableEq Server] [Fintype Server] in
theorem sound_follows (sound : world.Sound) :
    Follows visits fd world (world.targets visits fd) := by
  intro id conn found
  obtain ⟨stays, pointer, _⟩ := (sound id).entries fd conn found
  obtain ⟨dmp, known⟩ := Option.isSome_iff_exists.mp pointer
  rw [if_neg (by rw [stays]; exact Bool.false_ne_true)]
  exact ⟨dmp, known, by rw [World.targets, known]⟩

theorem delete_effect (visits : Visits Server Loader) (fd : Fd) (sound : world.Sound)
    (pending : List (Party Server Loader)) :
    ∃ after, deleteAll visits fd pending world = .ok after ∧
      Effect world after (only fd (world.fall visits fd (serversOf pending))) fun _ => [] :=
  delete_all_effect (sound_follows sound) pending

section Leaving

variable {id : Server}

omit [Fintype Server] in
theorem lookup_leaving (other : Server) (key : Fd) :
    (world.leaving id fd).lookup other key =
      if other = id ∧ key = fd then
        (world.lookup id fd).map fun conn =>
          { conn with state := .disconnect, channel := { conn.channel with leave := true } }
      else world.lookup other key := by
  simp only [World.lookup, World.leaving, World.members_set_tcp]
  by_cases same : other = id
  · subst same
    rw [if_pos rfl, UnorderedMap.lookup_modify]
    by_cases here : key = fd <;> simp [here]
  · rw [if_neg same, if_neg fun both => same both.1]

theorem holders_leaving (key : Fd) : (world.leaving id fd).holders key = world.holders key := by
  ext other
  rw [World.mem_holders, World.mem_holders, lookup_leaving]
  split
  · next here => rw [here.1, here.2, Option.isSome_map]
  · rfl

omit [Fintype Server] in
theorem leaving_keeps (other : Server) :
    ((world.leaving id fd).members other).spare = (world.members other).spare ∧
      ((world.leaving id fd).members other).dmp = (world.members other).dmp ∧
      ((world.leaving id fd).members other).pubID = (world.members other).pubID := by
  apply set_tcp_keeps
  simp only [Member.spare, UnorderedMap.keys_modify]

omit [Fintype Server] in
theorem leaving_follows (sound : world.Sound) :
    Follows visits fd (world.leaving id fd) (Function.update (world.targets visits fd) id []) := by
  intro other conn found
  rw [lookup_leaving] at found
  by_cases same : other = id
  · subst same
    rw [if_pos ⟨rfl, rfl⟩] at found
    obtain ⟨before, _, rfl⟩ := Option.map_eq_some_iff.mp found
    rw [if_pos rfl, Function.update_self]
  · rw [if_neg fun both => same both.1] at found
    rw [Function.update_of_ne same, (leaving_keeps other).2.1]
    exact sound_follows sound other conn found

omit [Fintype Server] in
/-- What is left of a server's entry does not matter once the entry goes. -/
theorem effect_of_leaving {next : World Server Loader} {gone : Fd → Finset Server}
    {queued : Loader → List (List Fd)} (dropped : id ∈ gone fd)
    (effect : Effect (world.leaving id fd) next gone queued) : Effect world next gone queued where
  lookup other key := by
    rw [effect.lookup, lookup_leaving]
    by_cases here : other = id ∧ key = fd
    · rw [here.1, here.2, if_pos dropped, if_pos dropped]
    · rw [if_neg here]
  spare other := (effect.spare other).trans (leaving_keeps other).1
  dmp other := (effect.dmp other).trans (leaving_keeps other).2.1
  pubID other := (effect.pubID other).trans (leaving_keeps other).2.2
  loaders := effect.loaders

theorem disconnect_effect (visits : Visits Server Loader) (sound : world.Sound)
    (present : id ∈ world.holders fd) :
    ∃ after, disconnect visits id fd world = .ok after ∧
      Effect world after (only fd (world.fall visits fd [id])) fun _ => [] := by
  obtain ⟨conn, found⟩ := Option.isSome_iff_exists.mp ((world.mem_holders fd id).mp present)
  obtain ⟨_, pointer, _⟩ := (sound id).entries fd conn found
  obtain ⟨dmp, known⟩ := Option.isSome_iff_exists.mp pointer
  have follows : Follows visits fd (world.leaving id fd)
      (Function.update (world.targets visits fd) id []) := leaving_follows sound
  obtain ⟨middle, ran, effect⟩ := delete_all_effect follows (visits dmp .dmpDelete)
  refine ⟨middle.remove id fd, by rw [disconnect, known]; simp only [ran], ?_⟩
  have whole := effect.trans (remove_effect middle id fd)
  have targets : world.targets visits fd id = serversOf (visits dmp .dmpDelete) := by
    rw [World.targets, known]
  have gone : ∀ key, only fd (reach (Function.update (world.targets visits fd) id [])
      (serversOf (visits dmp .dmpDelete)) ((world.leaving id fd).holders fd)) key ∪
        only fd {id} key = only fd (world.fall visits fd [id]) key := by
    intro key
    simp only [only, holders_leaving]
    split
    · rw [World.fall, ← reach_leaf _ _ present, targets, Finset.union_comm, Finset.insert_eq]
    · exact Finset.empty_union ∅
  refine effect_of_leaving ?_ (whole.congr gone fun _ => rfl)
  rw [only, if_pos rfl, World.fall, reach_cons _ present]
  exact Finset.mem_insert_self id _

end Leaving
end Deleting

/-! What a batch of events does to the table of one server, and which descriptors
it passes on. -/

section Waiting

variable {world middle next : World Server Loader} {gone : Fd → Finset Server}
  {queued : Loader → List (List Fd)}

omit [DecidableEq Server] in
theorem length_of_lookup {map other : UnorderedMap Fd TcpConnection}
    (same : ∀ fd, map.lookup fd = other.lookup fd) : map.keys.length = other.keys.length := by
  apply List.Perm.length_eq
  rw [List.perm_ext_iff_of_nodup map.keys_nodup other.keys_nodup]
  intro fd
  rw [← AList.mem_keys, ← AList.mem_keys, ← AList.lookup_isSome, ← AList.lookup_isSome, same]

omit [DecidableEq Server] in
theorem modify_total {server after : TcpServer} {ctx : DmpModifyContext}
    (ran : server.updateForModify ctx = .ok after) : after.totalConn = server.totalConn := by
  unfold updateForModify at ran
  split at ran
  · cases ran; rfl
  · split at ran
    · cases ran
    · split at ran <;> cases ran <;> rfl

omit [DecidableEq Server] in
/-- An event that removes nothing leaves the count alone. -/
theorem handle_total {server after : TcpServer} {wrote : Fd → Option Nat} {resp : Resp}
    {picked : List Fd} (ran : server.handleResp wrote resp = .ok (after, picked))
    (stays : ¬ (resp.fd ∈ server.connMap ∧ resp.removes = true)) :
    after.totalConn = server.totalConn := by
  unfold TcpServer.handleResp at ran
  split at ran
  · cases ran; rfl
  · next conn found =>
      have keeps : resp.removes = false :=
        Bool.eq_false_iff.mpr fun removes => stays ⟨UnorderedMap.mem_of_lookup found, removes⟩
      split at ran
      · cases ran; rfl
      · split at ran
        · split at ran
          · cases ran
          · dsimp only at ran
            split at ran
            · cases ran; rfl
            · split at ran
              · cases ran
              · next modified =>
                  cases ran
                  have kept := modify_total modified
                  exact kept
        · next unwritable =>
            split at ran
            · next closes => simp [Resp.removes, closes, unwritable] at keeps
            · cases ran; rfl

/-- A table with the same entries and the same count. -/
theorem same_tcp_effect {id : Server} {tcp : TcpServer}
    (same : ∀ fd, tcp.connMap.lookup fd = (world.members id).tcp.connMap.lookup fd)
    (total : tcp.totalConn = (world.members id).tcp.totalConn) :
    Effect world (world.setTcp id tcp) (fun _ => ∅) fun _ => [] := by
  have spare : { world.members id with tcp := tcp }.spare = (world.members id).spare := by
    rw [Member.spare, Member.spare, total, length_of_lookup same]
  have lookup (fd : Fd) : tcp.connMap.lookup fd = if False then none else world.lookup id fd := by
    rw [if_neg not_false]
    exact same fd
  exact (set_tcp_effect lookup spare).congr (fun _ => if_neg not_false) fun _ => rfl

/-- The descriptors that a server passes on for a batch of events. -/
def World.batch (world : World Server Loader) (id : Server) (resps : List Resp) : List Fd :=
  (resps.filter fun resp =>
    resp.passes && decide (resp.fd ∈ (world.members id).tcp.connMap)).map Resp.fd

omit [DecidableEq Server] in
theorem batch_cons (world : World Server Loader) (id : Server) (resp : Resp) (rest : List Resp) :
    world.batch id (resp :: rest) = world.batch id [resp] ++ world.batch id rest := by
  simp only [World.batch]
  rw [← List.map_append, ← List.filter_append, List.singleton_append]

theorem Effect.batch (effect : Effect world middle gone queued) (id : Server)
    {resps : List Resp} (stays : ∀ resp ∈ resps, resp.passes = true → gone resp.fd = ∅) :
    middle.batch id resps = world.batch id resps := by
  have same : ∀ resp ∈ resps,
      (resp.passes && decide (resp.fd ∈ (middle.members id).tcp.connMap)) =
        (resp.passes && decide (resp.fd ∈ (world.members id).tcp.connMap)) := by
    intro resp listed
    cases passes : resp.passes with
    | false => rfl
    | true =>
        have kept := effect.lookup id resp.fd
        rw [stays resp listed passes, if_neg (Finset.notMem_empty id)] at kept
        simp only [World.lookup] at kept
        simp only [← AList.lookup_isSome, kept]
  rw [World.batch, World.batch, List.filter_congr same]

variable [Fintype Server] {visits : Visits Server Loader}

omit [Fintype Server] in
theorem Effect.targets (effect : Effect world middle gone queued) (fd : Fd) :
    middle.targets visits fd = world.targets visits fd := by
  funext id
  rw [World.targets, World.targets, effect.dmp]

theorem Effect.fall (effect : Effect world middle gone queued) (fd : Fd) (roots : List Server) :
    middle.fall visits fd roots =
      reach (world.targets visits fd) roots (world.holders fd \ gone fd) := by
  rw [World.fall, effect.targets, effect.holders]

theorem Effect.fall_kept (effect : Effect world middle gone queued) {fd : Fd}
    (kept : gone fd = ∅) (roots : List Server) :
    middle.fall visits fd roots = world.fall visits fd roots := by
  rw [effect.fall, kept, Finset.sdiff_empty, World.fall]

theorem fall_absent {id : Server} {fd : Fd} (absent : id ∉ world.holders fd) :
    world.fall visits fd [id] = ∅ := by
  rw [World.fall, reach_gone _ absent, reach_nil]

/-- The entries that go for one event. -/
def World.dropped (world : World Server Loader) (visits : Visits Server Loader) (id : Server)
    (resp : Resp) (fd : Fd) : Finset Server :=
  if fd = resp.fd ∧ resp.removes = true then world.fall visits fd [id] else ∅

omit [DecidableEq Server] in
theorem mem_conn_map (world : World Server Loader) (id : Server) (fd : Fd) :
    fd ∈ (world.members id).tcp.connMap ↔ id ∈ world.holders fd := by
  rw [World.mem_holders, World.lookup, AList.lookup_isSome]

/-- An event that removes, for an entry of the table. -/
theorem remove_resp_effect (visits : Visits Server Loader) (sound : world.Sound)
    (wrote : Fd → Option Nat) {id : Server} {resp : Resp}
    (present : resp.fd ∈ (world.members id).tcp.connMap) (removes : resp.removes = true) :
    ∃ after, handleResp visits wrote id world resp = .ok (after, []) ∧
      Effect world after (only resp.fd (world.fall visits resp.fd [id])) fun _ => [] := by
  obtain ⟨after, ran, effect⟩ :=
    disconnect_effect visits sound ((mem_conn_map world id resp.fd).mp present)
  exact ⟨after, by rw [handleResp, if_pos ⟨present, removes⟩, ran], effect⟩

/-- Any other event leaves the entries where they are. -/
theorem keep_resp_effect (visits : Visits Server Loader) (sound : world.Sound)
    (wrote : Fd → Option Nat) {id : Server} {resp : Resp}
    (stays : ¬ (resp.fd ∈ (world.members id).tcp.connMap ∧ resp.removes = true)) :
    ∃ after, handleResp visits wrote id world resp =
        .ok (after, if resp.fd ∈ (world.members id).tcp.connMap ∧ resp.passes = true then
          [resp.fd] else []) ∧
      Effect world after (fun _ => ∅) fun _ => [] := by
  obtain ⟨tcp, picked, ran, handled⟩ :=
    handle_resp_calm (world.members id).tcp (sound id).quiet.calm wrote resp
  have same : ∀ fd, tcp.connMap.lookup fd = (world.members id).tcp.connMap.lookup fd := by
    intro fd
    rw [handled.lookup]
    split
    · next here =>
        rw [here.1, AList.lookup_eq_none.mpr fun listed => stays ⟨listed, here.2⟩]
    · rfl
  refine ⟨world.setTcp id tcp, ?_, same_tcp_effect same (handle_total ran stays)⟩
  rw [handleResp, if_neg stays, ran]
  simp only [handled.picked]

omit [DecidableEq Server] [Fintype Server] in
theorem batch_single (world : World Server Loader) (id : Server) (resp : Resp) :
    world.batch id [resp] =
      if resp.fd ∈ (world.members id).tcp.connMap ∧ resp.passes = true then [resp.fd] else [] := by
  rw [World.batch, List.filter_singleton]
  by_cases listed : resp.fd ∈ (world.members id).tcp.connMap <;>
    cases resp.passes <;> simp [listed]

theorem handle_resp_effect (visits : Visits Server Loader) (sound : world.Sound)
    (wrote : Fd → Option Nat) (id : Server) (resp : Resp) :
    ∃ after, handleResp visits wrote id world resp = .ok (after, world.batch id [resp]) ∧
      Effect world after (world.dropped visits id resp) fun _ => [] := by
  by_cases removes : resp.fd ∈ (world.members id).tcp.connMap ∧ resp.removes = true
  · obtain ⟨after, ran, effect⟩ := remove_resp_effect visits sound wrote removes.1 removes.2
    have nothing : world.batch id [resp] = [] := by
      rw [batch_single, if_neg]
      rintro ⟨-, passes⟩
      rw [passes_not_removes resp passes] at removes
      exact Bool.false_ne_true removes.2
    refine ⟨after, nothing ▸ ran, effect.congr (fun fd => ?_) fun _ => rfl⟩
    rw [only, World.dropped]
    by_cases here : fd = resp.fd
    · rw [if_pos here, if_pos ⟨here, removes.2⟩, here]
    · rw [if_neg here, if_neg fun both => here both.1]
  · obtain ⟨after, ran, effect⟩ := keep_resp_effect visits sound wrote removes
    refine ⟨after, by rw [ran, batch_single], effect.congr (fun fd => ?_) fun _ => rfl⟩
    rw [World.dropped]
    split
    · next here =>
        rw [here.1, fall_absent fun held =>
          removes ⟨(mem_conn_map world id resp.fd).mpr held, here.2⟩]
    · rfl

theorem removed_fd {resp : Resp} {rest : List Resp}
    (distinct : ((resp :: rest).map Resp.fd).Nodup) : ¬ Removed rest resp.fd := by
  rintro ⟨other, listed, same, _⟩
  rw [List.map_cons, List.nodup_cons] at distinct
  exact distinct.1 (same ▸ List.mem_map_of_mem listed)

theorem handle_all_effect (visits : Visits Server Loader) (sound : world.Sound)
    (wrote : Fd → Option Nat) (id : Server) {resps : List Resp} (distinct : (resps.map Resp.fd).Nodup) :
    ∃ after, handleAll visits wrote id world resps = .ok (after, world.batch id resps) ∧
      Effect world after (fun fd => if Removed resps fd then world.fall visits fd [id] else ∅)
        fun _ => [] := by
  induction resps generalizing world with
  | nil =>
      refine ⟨world, rfl, (Effect.refl world).congr ?_ fun _ => rfl⟩
      intro fd
      rw [if_neg (by simp [Removed])]
  | cons resp rest ih =>
      obtain ⟨middle, first, effect⟩ := handle_resp_effect visits sound wrote id resp
      have distinctRest := (List.nodup_cons.mp distinct).2
      obtain ⟨after, later, effectRest⟩ := ih (effect.sound sound) distinctRest
      have kept : ∀ fd, fd ≠ resp.fd → world.dropped visits id resp fd = ∅ := fun fd other =>
        if_neg fun both => other both.1
      have batches : middle.batch id rest = world.batch id rest := by
        refine effect.batch id fun other listed _ => kept other.fd fun same => ?_
        exact (List.nodup_cons.mp distinct).1 (same ▸ List.mem_map_of_mem listed)
      refine ⟨after, ?_, (effect.trans effectRest).congr ?_ fun _ => rfl⟩
      · simp only [handleAll, first, later]
        rw [batches, ← batch_cons]
      · intro fd
        by_cases here : fd = resp.fd
        · subst here
          simp only [World.dropped, removed_cons, removed_fd distinct, true_and, or_false, if_false,
            Finset.union_empty]
        · rw [kept fd here, effect.fall_kept (kept fd here), Finset.empty_union]
          simp only [removed_cons, here, false_and, false_or]

end Waiting

/-! Who of the parties of a BALANCE notification gets which batch: the first
`LoadBalancer` gets the sockets, and the others what is left of them. -/

section Balancing

variable [DecidableEq Loader]

def share : List (Party Server Loader) → List Fd → Loader → List (List Fd)
  | [], _, _ => []
  | .server _ :: rest, sockes, id => share rest sockes id
  | .loader other :: rest, sockes, id =>
      (if id = other then [sockes] else []) ++ share rest [] id

theorem queue_effect (world : World Server Loader) (id : Loader) (sockes : List Fd) :
    Effect world (world.queue id sockes) (fun _ => ∅)
      fun other => if other = id then [sockes] else [] where
  lookup other fd := by
    rw [if_neg (Finset.notMem_empty other)]
    rfl
  spare _ := rfl
  dmp _ := rfl
  pubID _ := rfl
  loaders other := by
    simp only [World.queue, Function.update_apply]
    split
    · next same =>
        rw [same]
        rfl
    · rw [List.append_nil]

theorem balance_all_effect (parties : List (Party Server Loader)) (sockes : List Fd)
    (world : World Server Loader) :
    Effect world (balanceAll parties sockes world) (fun _ => ∅) (share parties sockes) := by
  induction parties generalizing sockes world with
  | nil => exact Effect.refl world
  | cons party rest ih =>
      cases party with
      | server id => exact ih sockes world
      | loader id =>
          exact ((queue_effect world id sockes).trans (ih [] _)).congr
            (fun _ => Finset.empty_union ∅) fun _ => rfl

variable [Fintype Server]

/-- The batches that a server hands to the load balancers. -/
def World.handed (world : World Server Loader) (visits : Visits Server Loader)
    (resps : List Resp) (id : Server) : Loader → List (List Fd) :=
  share (visits (world.members id).pubID .balance) (world.batch id resps)

theorem wait_effect {world : World Server Loader} (sound : world.Sound)
    (visits : Visits Server Loader) (wrote : Fd → Option Nat) (id : Server) {resps : List Resp}
    (distinct : (resps.map Resp.fd).Nodup) :
    ∃ after, updateForWait visits wrote id resps world = .ok after ∧
      Effect world after (fun fd => if Removed resps fd then world.fall visits fd [id] else ∅)
        (world.handed visits resps id) := by
  obtain ⟨middle, ran, effect⟩ := handle_all_effect visits sound wrote id distinct
  let loaders := visits (world.members id).pubID .balance
  refine ⟨balanceAll loaders (world.batch id resps) middle, ?_, ?_⟩
  · simp only [updateForWait, ran, effect.pubID]
    rfl
  refine (effect.trans (balance_all_effect _ _ middle)).congr ?_ ?_
  · intro fd
    exact Finset.union_empty _
  · intro loader
    exact List.nil_append _

end Balancing
end RProxy.Notification
