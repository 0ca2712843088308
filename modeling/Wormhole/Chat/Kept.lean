import Mathlib.Data.List.Perm.Basic
import Wormhole.Chat.Room
import Wormhole.Lib.Transition

/-!
# `Chat.Kept` — the server keeps a room

The messages that the server has handled are the log of a room, and what it knows, sends and tells is what that
room has (`System.Serving`). Around it, the hubs answer everybody with what he has joined as (`System.Answering`),
and nothing that the clients do is lost on the way (`System.Accounted`, `System.Ordered`).
-/

namespace Wormhole
namespace Chat

open Portal (ActorId PortId)

/-! ## One turn -/

def Msg.event : Msg → Event
  | .connect portal client _ => .joined portal client
  | .publicMessage sender (.postMessage message _) => .said sender message

section

variable {clients : HashMap ActorId (ActorId × UserAlias)} {order : List ActorId}

theorem mem_inOrder (horder : order.Perm clients.keys) {id : ActorId} {entry : ActorId × UserAlias} :
    (id, entry) ∈ inOrder clients order ↔ clients.lookup id = some entry := by
  rw [inOrder, List.mem_filterMap]
  constructor
  · rintro ⟨id', -, heq⟩
    obtain ⟨entry', hlook, hpair⟩ := Option.map_eq_some_iff.mp heq
    cases hpair
    exact hlook
  · intro hlook
    refine ⟨id, horder.mem_iff.mpr (AList.lookup_isSome.mp (by rw [hlook]; rfl)), ?_⟩
    rw [hlook]
    rfl

/-- Clients that differ are gone through once. -/
theorem nodup_inOrder (horder : order.Perm clients.keys)
    (hdistinct : ∀ p p' c a a', clients.lookup p = some (c, a) → clients.lookup p' = some (c, a') → p = p') :
    ((inOrder clients order).map (·.2.1)).Nodup := by
  have hnodup : order.Nodup := horder.nodup_iff.mpr clients.keys_nodup
  rw [inOrder, List.map_filterMap]
  refine List.Nodup.filterMap (fun p p' c hp hp' => ?_) hnodup
  rw [Option.map_map] at hp hp'
  obtain ⟨⟨client, a⟩, hlook, rfl⟩ := Option.map_eq_some_iff.mp hp
  obtain ⟨⟨client', a'⟩, hlook', heq⟩ := Option.map_eq_some_iff.mp hp'
  obtain rfl : client' = client := heq
  exact hdistinct p p' _ a a' hlook hlook'

end

/-- What is sent to all of a list is sent to each of them once. -/
theorem sent_once {α : Type} (f : α → ActorId) (msg : ChatClientMessage) (c : ActorId) {L : List α}
    (hnodup : (L.map f).Nodup) :
    (((L.map fun e => (f e, msg)).filter (·.1 = c)).map Prod.snd) = if c ∈ L.map f then [msg] else [] := by
  induction L with
  | nil => rfl
  | cons e L ih =>
    obtain ⟨hnot, hnodup⟩ := List.nodup_cons.mp hnodup
    have ih := ih hnodup
    by_cases he : f e = c
    · subst he
      rw [if_neg hnot] at ih
      simp [ih]
    · have hiff : c ∈ (e :: L).map f ↔ c ∈ L.map f := by
        rw [List.map_cons, List.mem_cons, or_iff_right (Ne.symm he)]
      rw [List.map_cons, List.filter_cons_of_neg (by simpa using he), ih]
      exact (if_congr hiff rfl rfl).symm

/-! ## Names of actors -/

def Msg.client? : Msg → Option ActorId
  | .connect _ client _ => some client
  | .publicMessage _ _ => none

namespace System

/-- The portals, and the clients that have come. -/
def named (s : System) : List ActorId :=
  s.hubs ++ s.connecting.map (·.2.1) ++ s.mailbox.filterMap Msg.client? ++ s.handled.filterMap Msg.client?

/-- No two portals or clients are the same actor. -/
structure Fresh (s : System) : Prop where
  nodup : s.named.Nodup
  bound : ∀ a ∈ s.named, a < s.nextActor

/-- Whoever connects does so for a portal that has a hub. -/
structure Housed (s : System) : Prop where
  connecting : ∀ e ∈ s.connecting, e.1 ∈ s.hubs
  connects : ∀ portal client rpc, .connect portal client rpc ∈ s.mailbox → portal ∈ s.hubs
  clients : ∀ portal m, s.server.clients.lookup portal = some m → portal ∈ s.hubs

section

variable {s t : System} {l : Label}

theorem Fresh.same (h : s.Fresh) (hnamed : t.named.Perm s.named) (hnext : s.nextActor ≤ t.nextActor) : t.Fresh where
  nodup := hnamed.nodup_iff.mpr h.nodup
  bound a ha := Nat.lt_of_lt_of_le (h.bound a (hnamed.mem_iff.mp ha)) hnext

theorem Fresh.new (h : s.Fresh) (hnamed : t.named.Perm (s.nextActor :: s.named)) (hnext : t.nextActor = s.nextActor + 1) :
    t.Fresh where
  nodup := hnamed.nodup_iff.mpr (List.nodup_cons.mpr ⟨fun hmem => Nat.lt_irrefl _ (h.bound _ hmem), h.nodup⟩)
  bound a ha := by
    rw [hnext]
    obtain rfl | hold := List.mem_cons.mp (hnamed.mem_iff.mp ha)
    · exact Nat.lt_succ_self _
    · exact Nat.lt_succ_of_lt (h.bound a hold)

theorem Fresh.step (h : s.Fresh) (hstep : System.step l s = some t) : t.Fresh := by
  cases moves_of_step hstep with
  | spawnHub =>
    refine h.new (List.perm_iff_count.mpr fun a => ?_) rfl
    simp only [named, List.count_append, List.count_cons, List.count_nil]
    omega
  | connect portal hhub =>
    refine h.new (List.perm_iff_count.mpr fun a => ?_) rfl
    simp only [named, List.map_append, List.map_cons, List.map_nil, List.count_append, List.count_cons, List.count_nil]
    omega
  | ask portal client reply rest hconnecting =>
    refine h.same (List.perm_iff_count.mpr fun a => ?_) (Nat.le_refl _)
    have hcount := ((Queues.perm_of_dequeue hconnecting).map (·.2.1)).count_eq a
    simp only [List.map_cons, List.count_cons] at hcount
    simp only [named, List.filterMap_append, List.filterMap_cons, List.filterMap_nil, Msg.client?, List.count_append,
      List.count_cons, List.count_nil]
    omega
  | serve order m rest server effects hmail hhandle horder =>
    refine h.same (List.perm_iff_count.mpr fun a => ?_) (Nat.le_refl _)
    cases m <;> simp only [named, served, hmail, List.filterMap_append, List.filterMap_cons, List.filterMap_nil, Msg.client?,
      List.count_append, List.count_cons, List.count_nil] <;> omega
  | answer portal client rpc reply userAlias rest hasking htold => exact h.same (.refl _) (Nat.le_succ _)
  | post proxy portal message hportal => exact h.same (.refl _) (Nat.le_refl _)
  | forward proxy portal msg rest hposts hportal =>
    refine h.same (List.perm_iff_count.mpr fun a => ?_) (Nat.le_refl _)
    simp only [named, List.filterMap_append, List.filterMap_cons, List.filterMap_nil, Msg.client?, List.append_nil]

/-- Whoever is about to be connected is no portal, and has not been connected before. -/
theorem Fresh.newcomer (h : s.Fresh) {portal client : ActorId} {rpc : PortId}
    (hmail : .connect portal client rpc ∈ s.mailbox) : client ∉ s.hubs ∧ client ∉ s.handled.filterMap Msg.client? := by
  have hmem : client ∈ s.mailbox.filterMap Msg.client? := List.mem_filterMap.mpr ⟨_, hmail, rfl⟩
  obtain ⟨hfirst, -, hhandled⟩ := List.nodup_append.mp h.nodup
  obtain ⟨-, -, hhubs⟩ := List.nodup_append.mp hfirst
  exact ⟨fun hhub => hhubs client (List.mem_append_left _ hhub) client hmem rfl,
    fun hold => hhandled client (List.mem_append_right _ hmem) client hold rfl⟩

theorem Housed.step (h : s.Housed) (hstep : System.step l s = some t) : t.Housed := by
  cases moves_of_step hstep with
  | spawnHub =>
    refine ⟨fun e he => ?_, fun portal client rpc hm => ?_, fun portal m hlook => ?_⟩
    · exact List.mem_append_left _ (h.connecting e he)
    · exact List.mem_append_left _ (h.connects portal client rpc hm)
    · exact List.mem_append_left _ (h.clients portal m hlook)
  | connect portal hhub =>
    refine ⟨fun e he => ?_, h.connects, h.clients⟩
    obtain hold | hnew := List.mem_append.mp he
    · exact h.connecting e hold
    · rw [List.mem_singleton.mp hnew]
      exact hhub
  | ask portal client reply rest hconnecting =>
    have hperm := Queues.perm_of_dequeue hconnecting
    refine ⟨fun e he => h.connecting e (hperm.mem_iff.mpr (List.mem_cons_of_mem _ he)), fun p c rpc hm => ?_, h.clients⟩
    obtain hold | hnew := List.mem_append.mp hm
    · exact h.connects p c rpc hold
    · cases List.mem_singleton.mp hnew
      exact h.connecting _ (hperm.mem_iff.mpr List.mem_cons_self)
  | serve order m rest server effects hmail hhandle horder =>
    refine ⟨h.connecting, fun p c rpc hm => h.connects p c rpc (hmail ▸ List.mem_cons_of_mem _ hm), fun p entry hlook => ?_⟩
    replace hlook : server.clients.lookup p = some entry := hlook
    cases m with
    | publicMessage sender msg =>
      cases msg with
      | postMessage message reply =>
        -- a post changes nothing in the server
        have hsame : server = s.server := by
          simp only [handle] at hhandle
          split at hhandle <;> cases hhandle <;> rfl
        rw [hsame] at hlook
        exact h.clients p entry hlook
    | connect portal client rpc =>
      simp only [handle] at hhandle
      split at hhandle
      · cases hhandle
      · cases hhandle
        rw [HashMap.lookup_insert_eq] at hlook
        split at hlook
        · rename_i hp
          rw [hp]
          exact h.connects portal client rpc (hmail ▸ List.mem_cons_self)
        · exact h.clients p entry hlook
  | answer portal client rpc reply userAlias rest hasking htold => exact ⟨h.connecting, h.connects, h.clients⟩
  | post proxy portal message hportal => exact ⟨h.connecting, h.connects, h.clients⟩
  | forward proxy portal msg rest hposts hportal =>
    refine ⟨h.connecting, fun p c rpc hm => ?_, h.clients⟩
    obtain hold | hnew := List.mem_append.mp hm
    · exact h.connects p c rpc hold
    · cases List.mem_singleton.mp hnew

end

/-! ## The server is the room -/

/-- What has happened, the latest first. -/
def log (s : System) : List Event := (s.handled.map Msg.event).reverse

/-- What a client has been sent. -/
def inboxOf (s : System) (client : ActorId) : List ChatClientMessage := (s.inbox.filter (·.1 = client)).map Prod.snd

end System

/-- The alias of whoever joins as the `k`-th, counted from 0. -/
def AliasGenerator.name (g : AliasGenerator) (k : Nat) : UserAlias := g.aliasAt (k % g.platform.usizeSize)

def Msg.reply? : Msg → Option PortId
  | .connect _ _ _ => none
  | .publicMessage _ (.postMessage _ reply) => some reply

namespace System

/-- What the server has done and knows is what the room has. -/
structure Serving (g : AliasGenerator) (s : System) : Prop where
  generator : s.server.aliasGenerator = { g with generatedCount := Room.joins s.log % g.platform.usizeSize }
  clients : ∀ portal, s.server.clients.lookup portal = Room.member g.name s.log portal
  entries : ∀ portal client userAlias, s.server.clients.lookup portal = some (client, userAlias) →
    client ∈ s.handled.filterMap Msg.client?
  distinct : ∀ p p' c a a', s.server.clients.lookup p = some (c, a) → s.server.clients.lookup p' = some (c, a') → p = p'
  views : ∀ client, s.inboxOf client = Room.view g.name s.log client
  acknowledged : s.acknowledged = s.handled.filterMap Msg.reply?

section

variable {g : AliasGenerator} {s t : System} {l : Label} {order : List ActorId} {m : Msg} {rest : List Msg}
  {server : ChatServerState} {effects : List Effect}

/-- What the server makes of a message. -/
inductive Serves (g : AliasGenerator) (s : System) (order : List ActorId) : Msg → ChatServerState → List Effect → Prop where
  | connect (portal client : ActorId) (rpc : PortId) (server : ChatServerState)
      (hgenerator : server.aliasGenerator = { g with generatedCount := (Room.joins s.log + 1) % g.platform.usizeSize })
      (hclients : server.clients = s.server.clients.insert portal (client, g.name (Room.joins s.log))) :
      Serves g s order (.connect portal client rpc) server
        (.tell rpc (g.name (Room.joins s.log)) :: ((inOrder server.clients order).filter fun e => e.1 ≠ client).map
          fun e => .send e.2.1 (.userConnected (g.name (Room.joins s.log))))
  | publicMessage (sender client : ActorId) (userAlias : UserAlias) (message : ChatMessage) (reply : PortId)
      (hlook : s.server.clients.lookup sender = some (client, userAlias)) :
      Serves g s order (.publicMessage sender (.postMessage message reply)) s.server
        (((inOrder s.server.clients order).map fun e => .send e.2.1 (.messageReceived userAlias message)) ++
          [.acknowledge reply])

theorem Serving.serves (h : s.Serving g) (hhandle : handle order s.server m = some (server, effects))
    (hsender : ∀ sender msg, m = .publicMessage sender msg → ∃ entry, s.server.clients.lookup sender = some entry) :
    Serves g s order m server effects := by
  cases m with
  | connect portal client rpc =>
    cases hgenerate : s.server.aliasGenerator.generateCapitalized with
    | none =>
      simp only [handle, hgenerate] at hhandle
      cases hhandle
    | some generated =>
      obtain ⟨userAlias, aliasGenerator⟩ := generated
      obtain ⟨hname, hnext⟩ := AliasGenerator.generateCapitalized_eq_some _ hgenerate
      rw [h.generator] at hname hnext
      have hcount : (Room.joins s.log % g.platform.usizeSize + 1) % g.platform.usizeSize =
          (Room.joins s.log + 1) % g.platform.usizeSize := Nat.mod_add_mod _ _ _
      simp only [handle, hgenerate] at hhandle
      cases hhandle
      obtain rfl : userAlias = g.name (Room.joins s.log) := hname
      refine .connect portal client rpc _ ?_ rfl
      rw [hnext, hcount]
  | publicMessage sender msg =>
    cases msg with
    | postMessage message reply =>
      obtain ⟨⟨client, userAlias⟩, hlook⟩ := hsender sender _ rfl
      simp only [handle, hlook] at hhandle
      cases hhandle
      exact .publicMessage sender client userAlias message reply hlook

theorem log_served (s : System) (m : Msg) (rest : List Msg) (server : ChatServerState) (effects : List Effect) :
    (s.served m rest server effects).log = m.event :: s.log := by
  rw [log, served, List.map_append, List.reverse_append]
  rfl

/-- What is sent to all clients is what those see who are there. -/
theorem inboxOf_served (msg : ChatClientMessage) (hview : ∀ c, s.inboxOf c = Room.view g.name s.log c)
    (hclients : ∀ p, server.clients.lookup p = Room.member g.name (m.event :: s.log) p)
    (hdistinct : ∀ p p' c a a', server.clients.lookup p = some (c, a) → server.clients.lookup p' = some (c, a') → p = p')
    (horder : order.Perm server.clients.keys)
    (hsent : effects.filterMap Effect.sent? = (inOrder server.clients order).map fun e => (e.2.1, msg))
    (hmsg : Room.announcement g.name s.log m.event = some msg) (c : ActorId) :
    (s.served m rest server effects).inboxOf c = Room.view g.name (m.event :: s.log) c := by
  have hpresent : c ∈ (inOrder server.clients order).map (·.2.1) ↔ Room.Present g.name (m.event :: s.log) c := by
    rw [List.mem_map]
    constructor
    · rintro ⟨⟨p, c', a⟩, hmem, rfl⟩
      exact ⟨p, a, (hclients p).symm.trans ((mem_inOrder horder).mp hmem)⟩
    · rintro ⟨p, a, hmember⟩
      exact ⟨(p, c, a), (mem_inOrder horder).mpr ((hclients p).trans hmember), rfl⟩
  have hold := hview c
  rw [inboxOf] at hold
  rw [inboxOf, served, List.filter_append, List.map_append, hold, hsent, Room.view, hmsg,
    sent_once (fun e : ActorId × ActorId × UserAlias => e.2.1) msg c (nodup_inOrder horder hdistinct)]
  by_cases hc : Room.Present g.name (m.event :: s.log) c
  · rw [if_pos (hpresent.mpr hc), if_pos hc]
    rfl
  · rw [if_neg (mt hpresent.mp hc), if_neg hc]

/-- Who is in the map after somebody has joined. -/
theorem entry_of_connected {clients : HashMap ActorId (ActorId × UserAlias)} {portal client p c : ActorId} {a a' : UserAlias}
    (hlook : (clients.insert portal (client, a)).lookup p = some (c, a')) :
    (p = portal ∧ c = client) ∨ clients.lookup p = some (c, a') := by
  rw [HashMap.lookup_insert_eq] at hlook
  split at hlook
  · cases hlook
    exact .inl ⟨‹_›, rfl⟩
  · exact .inr hlook

/-- A newcomer is nobody who was there. -/
theorem Serving.distinct_connected (h : s.Serving g) {portal client : ActorId} {userAlias : UserAlias}
    (hnew : client ∉ s.handled.filterMap Msg.client?) {p p' c : ActorId} {a a' : UserAlias}
    (hp : (s.server.clients.insert portal (client, userAlias)).lookup p = some (c, a))
    (hp' : (s.server.clients.insert portal (client, userAlias)).lookup p' = some (c, a')) : p = p' := by
  obtain ⟨rfl, rfl⟩ | hold := entry_of_connected hp
  · obtain ⟨rfl, -⟩ | hold' := entry_of_connected hp'
    · rfl
    · exact absurd (h.entries p' c a' hold') hnew
  · obtain ⟨-, rfl⟩ | hold' := entry_of_connected hp'
    · exact absurd (h.entries p c a hold) hnew
    · exact h.distinct p p' c a a' hold hold'

theorem Serves.acknowledged (h : Serves g s order m server effects) :
    effects.filterMap Effect.acknowledged? = m.reply?.toList := by
  cases h with
  | connect portal client rpc server hgenerator hclients =>
    rw [List.filterMap_cons_none rfl, List.filterMap_map]
    exact List.filterMap_eq_nil_iff.mpr fun e _ => rfl
  | publicMessage sender client userAlias message reply hlook =>
    rw [List.filterMap_append, List.filterMap_map]
    exact congrArg (· ++ [reply]) (List.filterMap_eq_nil_iff.mpr fun e _ => rfl)

theorem acknowledged_served (hold : s.acknowledged = s.handled.filterMap Msg.reply?)
    (hserves : Serves g s order m server effects) (rest : List Msg) :
    (s.served m rest server effects).acknowledged = (s.served m rest server effects).handled.filterMap Msg.reply? := by
  show s.acknowledged ++ effects.filterMap Effect.acknowledged? = (s.handled ++ [m]).filterMap Msg.reply?
  rw [hold, hserves.acknowledged, List.filterMap_append]
  cases hreply : m.reply? with
  | none => rw [List.filterMap_cons_none hreply]; rfl
  | some reply => rw [List.filterMap_cons_some hreply]; rfl

theorem Serving.step (h : s.Serving g) (hfresh : s.Fresh) (hhoused : s.Housed)
    (hsender : ∀ sender msg, .publicMessage sender msg ∈ s.mailbox → ∃ entry, s.server.clients.lookup sender = some entry)
    (hstep : System.step l s = some t) : t.Serving g := by
  have hhoused' := hhoused.step hstep
  cases moves_of_step hstep with
  | serve order m rest server effects hmail hhandle horder =>
    have hm : m ∈ s.mailbox := hmail ▸ List.mem_cons_self
    have hlog := s.log_served m rest server effects
    have hserves := h.serves hhandle fun sender msg heq => hsender sender msg (heq ▸ hm)
    have hacknowledged := acknowledged_served h.acknowledged hserves rest
    cases hserves with
    | connect portal client rpc server hgenerator hclients =>
      obtain ⟨hhub, hnew⟩ := hfresh.newcomer hm
      have hmember (p : ActorId) : server.clients.lookup p =
          Room.member g.name (.joined portal client :: s.log) p := by
        rw [hclients, HashMap.lookup_insert_eq, Room.member, h.clients]
      have hdistinct (p p' c : ActorId) (a a' : UserAlias) (hp : server.clients.lookup p = some (c, a))
          (hp' : server.clients.lookup p' = some (c, a')) : p = p' :=
        h.distinct_connected hnew (hclients ▸ hp) (hclients ▸ hp')
      -- no id of a portal is that of a client, so that nobody is left out
      have hall : (inOrder server.clients order).filter (fun e => e.1 ≠ client) = inOrder server.clients order := by
        refine List.filter_eq_self.mpr fun e he => decide_eq_true fun heq => hhub ?_
        rw [← heq]
        exact hhoused'.clients e.1 e.2 ((mem_inOrder horder).mp he)
      refine ⟨?_, ?_, ?_, hdistinct, fun c => ?_, hacknowledged⟩
      · rw [hlog]
        exact hgenerator
      · rw [hlog]
        exact hmember
      · intro p c a hlook
        show c ∈ (s.handled ++ [_]).filterMap Msg.client?
        rw [List.filterMap_append]
        obtain ⟨-, rfl⟩ | hold := entry_of_connected (hclients ▸ hlook)
        · exact List.mem_append_right _ List.mem_cons_self
        · exact List.mem_append_left _ (h.entries p c a hold)
      · rw [hlog]
        refine inboxOf_served _ h.views hmember hdistinct horder ?_ rfl c
        rw [hall, List.filterMap_cons, List.filterMap_map]
        exact List.filterMap_eq_map_iff_forall_eq_some.mpr fun e _ => rfl
    | publicMessage sender client userAlias message reply hlook =>
      refine ⟨?_, ?_, ?_, h.distinct, fun c => ?_, hacknowledged⟩
      · rw [hlog]
        exact h.generator
      · rw [hlog]
        exact h.clients
      · intro p c a hlook
        show c ∈ (s.handled ++ [_]).filterMap Msg.client?
        rw [List.filterMap_append]
        exact List.mem_append_left _ (h.entries p c a hlook)
      · rw [hlog]
        refine inboxOf_served (.messageReceived userAlias message) h.views h.clients h.distinct horder ?_ ?_ c
        · -- the acknowledgement goes to a port, and is in nobody's inbox
          rw [List.filterMap_append, List.filterMap_map]
          refine (List.append_nil _).trans ?_
          exact List.filterMap_eq_map_iff_forall_eq_some.mpr fun e _ => rfl
        · show (Room.member g.name s.log sender).map _ = _
          rw [← h.clients, hlook]
          rfl
  -- the others leave alone what the room is about
  | _ => exact ⟨h.generator, h.clients, h.entries, h.distinct, h.views, h.acknowledged⟩

end

/-! ## What the hubs answer -/

/-- Who has a proxy has joined, and is told the alias that he has joined with. -/
structure Answering (g : AliasGenerator) (s : System) : Prop where
  bound : ∀ e ∈ s.proxies, e.1 < s.nextActor
  asking : ∀ e ∈ s.asking, e.2.2.1 < s.nextPort
  proxies : ∀ e ∈ s.proxies, ∃ client userAlias, Room.Joined g.name s.log e.2 client userAlias
  senders : ∀ sender msg, .publicMessage sender msg ∈ s.mailbox →
    ∃ client userAlias, Room.Joined g.name s.log sender client userAlias
  connects : ∀ portal client rpc, .connect portal client rpc ∈ s.mailbox → rpc < s.nextPort ∧
    ∀ e ∈ s.asking, e.2.2.1 = rpc → e.1 = portal ∧ e.2.1 = client
  told : ∀ e ∈ s.told, e.1 < s.nextPort ∧ ∀ e' ∈ s.asking, e'.2.2.1 = e.1 → Room.Joined g.name s.log e'.1 e'.2.1 e.2
  connected : ∀ a ∈ s.connected, ∃ portal, s.portalOf a.proxy = some portal ∧
    Room.Joined g.name s.log portal a.client a.userAlias
  posts : ∀ e ∈ s.posts, ∃ portal, s.portalOf e.1 = some portal

section

variable {g : AliasGenerator} {s t : System} {l : Label} {order : List ActorId} {m : Msg} {server : ChatServerState}
  {effects : List Effect} {proxy portal : ActorId}

theorem mem_of_portalOf (h : s.portalOf proxy = some portal) : (proxy, portal) ∈ s.proxies := by
  obtain ⟨⟨proxy', portal'⟩, hfind, rfl⟩ := Option.map_eq_some_iff.mp h
  obtain rfl : proxy' = proxy := of_decide_eq_true (List.find?_some hfind :)
  exact List.mem_of_find?_eq_some hfind

/-- A proxy keeps its portal. -/
theorem portalOf_append (h : s.portalOf proxy = some portal) {e : ActorId × ActorId} (ht : t.proxies = s.proxies ++ [e]) :
    t.portalOf proxy = some portal := by
  obtain ⟨e', hfind, hportal⟩ := Option.map_eq_some_iff.mp h
  rw [portalOf, ht, List.find?_append, hfind]
  exact congrArg some hportal

theorem portalOf_new (hbound : ∀ e ∈ s.proxies, e.1 < proxy) (ht : t.proxies = s.proxies ++ [(proxy, portal)]) :
    t.portalOf proxy = some portal := by
  have hnone : s.proxies.find? (·.1 = proxy) = none :=
    List.find?_eq_none.mpr fun e he => by simpa using Nat.ne_of_lt (hbound e he)
  rw [portalOf, ht, List.find?_append, hnone]
  simp

/-- The server tells an alias to whom it connects. -/
theorem Serves.told (h : Serves g s order m server effects) {e : PortId × UserAlias}
    (he : e ∈ effects.filterMap Effect.told?) :
    ∃ portal client, m = .connect portal client e.1 ∧ e.2 = g.name (Room.joins s.log) := by
  cases h with
  | connect portal client rpc server hgenerator hclients =>
    obtain ⟨effect, heffect, htold⟩ := List.mem_filterMap.mp he
    obtain rfl | hsend := List.mem_cons.mp heffect
    · cases htold
      exact ⟨portal, client, rfl, rfl⟩
    · obtain ⟨_, -, rfl⟩ := List.mem_map.mp hsend
      cases htold
  | publicMessage sender client userAlias message reply hlook =>
    obtain ⟨effect, heffect, htold⟩ := List.mem_filterMap.mp he
    obtain hsend | hack := List.mem_append.mp heffect
    · obtain ⟨_, -, rfl⟩ := List.mem_map.mp hsend
      cases htold
    · cases List.mem_singleton.mp hack
      cases htold

theorem Serving.sender (h : s.Serving g) {sender client : ActorId} {userAlias : UserAlias}
    (hjoined : Room.Joined g.name s.log sender client userAlias) : ∃ entry, s.server.clients.lookup sender = some entry := by
  rw [h.clients]
  exact hjoined.member

/-- New actors and ports do not matter. -/
theorem Answering.later (h : s.Answering g) {a : ActorId} {p : PortId} (ha : s.nextActor ≤ a) (hp : s.nextPort ≤ p) :
    ({ s with nextActor := a, nextPort := p } : System).Answering g where
  bound e he := Nat.lt_of_lt_of_le (h.bound e he) ha
  asking e he := Nat.lt_of_lt_of_le (h.asking e he) hp
  proxies := h.proxies
  senders := h.senders
  connects portal client rpc hm :=
    have ⟨hlt, hasking⟩ := h.connects portal client rpc hm
    ⟨Nat.lt_of_lt_of_le hlt hp, hasking⟩
  told e he :=
    have ⟨hlt, hasking⟩ := h.told e he
    ⟨Nat.lt_of_lt_of_le hlt hp, hasking⟩
  connected := h.connected
  posts := h.posts

theorem Answering.step (h : s.Answering g) (hserving : s.Serving g) (hstep : System.step l s = some t) : t.Answering g := by
  cases moves_of_step hstep with
  | spawnHub =>
    have h := h.later (Nat.le_succ _) (Nat.le_refl _)
    exact ⟨h.bound, h.asking, h.proxies, h.senders, h.connects, h.told, h.connected, h.posts⟩
  | connect portal hhub =>
    have h := h.later (Nat.le_succ _) (Nat.le_succ _)
    exact ⟨h.bound, h.asking, h.proxies, h.senders, h.connects, h.told, h.connected, h.posts⟩
  | ask portal client reply rest hconnecting =>
    refine ⟨h.bound, fun e he => ?_, h.proxies, fun sender msg hm => ?_, fun p c rpc hm => ?_, fun e he => ?_, h.connected,
      h.posts⟩
    · obtain hold | hnew := List.mem_append.mp he
      · exact Nat.lt_succ_of_lt (h.asking e hold)
      · rw [List.mem_singleton.mp hnew]
        exact Nat.lt_succ_self _
    · obtain hold | hnew := List.mem_append.mp hm
      · exact h.senders sender msg hold
      · cases List.mem_singleton.mp hnew
    · obtain hold | hnew := List.mem_append.mp hm
      · obtain ⟨hlt, hasking⟩ := h.connects p c rpc hold
        refine ⟨Nat.lt_succ_of_lt hlt, fun e he heq => ?_⟩
        obtain hold | hnew := List.mem_append.mp he
        · exact hasking e hold heq
        · rw [List.mem_singleton.mp hnew] at heq
          exact absurd heq (Nat.ne_of_gt hlt)
      · cases List.mem_singleton.mp hnew
        -- the port is new, so that no other hub awaits an alias on it
        refine ⟨Nat.lt_succ_self _, fun e he heq => ?_⟩
        obtain hold | hnew := List.mem_append.mp he
        · exact absurd heq (Nat.ne_of_lt (h.asking e hold))
        · rw [List.mem_singleton.mp hnew]
          exact ⟨rfl, rfl⟩
    · obtain ⟨hlt, hasking⟩ := h.told e he
      refine ⟨Nat.lt_succ_of_lt hlt, fun e' he' heq => ?_⟩
      obtain hold | hnew := List.mem_append.mp he'
      · exact hasking e' hold heq
      · rw [List.mem_singleton.mp hnew] at heq
        exact absurd heq (Nat.ne_of_gt hlt)
  | serve order m rest server effects hmail hhandle horder =>
    have hm : m ∈ s.mailbox := hmail ▸ List.mem_cons_self
    have hserves := hserving.serves hhandle fun sender msg heq => by
      obtain ⟨client, userAlias, hjoined⟩ := h.senders sender msg (heq ▸ hm)
      exact hserving.sender hjoined
    have hlog := s.log_served m rest server effects
    refine ⟨h.bound, h.asking, fun e he => ?_, fun sender msg hm' => ?_, fun p c rpc hm' => ?_, fun e he => ?_, fun a ha => ?_,
      h.posts⟩
    · obtain ⟨client, userAlias, hjoined⟩ := h.proxies e he
      rw [hlog]
      exact ⟨client, userAlias, hjoined.later _⟩
    · obtain ⟨client, userAlias, hjoined⟩ := h.senders sender msg (hmail ▸ List.mem_cons_of_mem _ hm')
      rw [hlog]
      exact ⟨client, userAlias, hjoined.later _⟩
    · exact h.connects p c rpc (hmail ▸ List.mem_cons_of_mem _ hm')
    · rw [hlog]
      obtain hold | hnew := List.mem_append.mp he
      · obtain ⟨hlt, hasking⟩ := h.told e hold
        exact ⟨hlt, fun e' he' heq => (hasking e' he' heq).later _⟩
      · obtain ⟨portal, client, rfl, halias⟩ := hserves.told hnew
        -- the hub that awaits this alias has asked for the one who joins now
        obtain ⟨hlt, hasking⟩ := h.connects portal client e.1 hm
        refine ⟨hlt, fun e' he' heq => ?_⟩
        obtain ⟨hportal, hclient⟩ := hasking e' he' heq
        rw [hportal, hclient, halias]
        exact ⟨[], s.log, rfl, rfl⟩
    · obtain ⟨portal, hportal, hjoined⟩ := h.connected a ha
      rw [hlog]
      exact ⟨portal, hportal, hjoined.later _⟩
  | answer portal client rpc reply userAlias rest hasking htold =>
    have hperm := Queues.perm_of_dequeue hasking
    have hrest (e : ActorId × ActorId × PortId × PortId) (he : e ∈ rest) : e ∈ s.asking :=
      hperm.mem_iff.mpr (List.mem_cons_of_mem _ he)
    obtain ⟨-, htold'⟩ := h.told _ htold
    have hjoined := htold' _ (hperm.mem_iff.mpr List.mem_cons_self) rfl
    refine ⟨fun e he => ?_, fun e he => h.asking e (hrest e he), fun e he => ?_, h.senders, fun p c rpc hm => ?_,
      fun e he => ?_, fun a ha => ?_, fun e he => ?_⟩
    · obtain hold | hnew := List.mem_append.mp he
      · exact Nat.lt_succ_of_lt (h.bound e hold)
      · rw [List.mem_singleton.mp hnew]
        exact Nat.lt_succ_self _
    · obtain hold | hnew := List.mem_append.mp he
      · exact h.proxies e hold
      · rw [List.mem_singleton.mp hnew]
        exact ⟨client, userAlias, hjoined⟩
    · obtain ⟨hlt, hold⟩ := h.connects p c rpc hm
      exact ⟨hlt, fun e he => hold e (hrest e he)⟩
    · obtain ⟨hlt, hold⟩ := h.told e he
      exact ⟨hlt, fun e' he' => hold e' (hrest e' he')⟩
    · obtain hold | hnew := List.mem_append.mp ha
      · obtain ⟨p, hportal, hjoined⟩ := h.connected a hold
        exact ⟨p, portalOf_append hportal rfl, hjoined⟩
      · rw [List.mem_singleton.mp hnew]
        exact ⟨portal, portalOf_new h.bound rfl, hjoined⟩
    · obtain ⟨p, hportal⟩ := h.posts e he
      exact ⟨p, portalOf_append hportal rfl⟩
  | post proxy portal message hportal =>
    have h := h.later (Nat.le_refl _) (Nat.le_succ _)
    refine ⟨h.bound, h.asking, h.proxies, h.senders, h.connects, h.told, h.connected, fun e he => ?_⟩
    obtain hold | hnew := List.mem_append.mp he
    · exact h.posts e hold
    · rw [List.mem_singleton.mp hnew]
      exact ⟨portal, hportal⟩
  | forward proxy portal msg rest hposts hportal =>
    refine ⟨h.bound, h.asking, h.proxies, fun sender msg' hm => ?_, fun p c rpc hm => ?_, h.told, h.connected,
      fun e he => h.posts e ((Queues.perm_of_dequeue hposts).mem_iff.mpr (List.mem_cons_of_mem _ he))⟩
    · obtain hold | hnew := List.mem_append.mp hm
      · exact h.senders sender msg' hold
      · cases List.mem_singleton.mp hnew
        exact h.proxies _ (mem_of_portalOf hportal)
    · obtain hold | hnew := List.mem_append.mp hm
      · exact h.connects p c rpc hold
      · cases List.mem_singleton.mp hnew

end

/-! ## Nothing is lost -/

/-- What the messages that wait on proxies will be sent on as. -/
def waiting (proxies : List (ActorId × ActorId)) (posts : Queues ActorId ChatServerMessage) : List Msg :=
  posts.filterMap fun post => (proxies.find? (·.1 = post.1)).map fun e => .publicMessage e.2 post.2

/-- What is on its way to the server. -/
def awaited (s : System) : List Event :=
  s.connecting.map (fun e => .joined e.1 e.2.1) ++ (waiting s.proxies s.posts).map Msg.event ++ s.mailbox.map Msg.event

/-- What a client does. -/
def done : Label → System → List Event
  | .connect portal, s => [.joined portal s.nextActor]
  | .post proxy message, s => ((s.portalOf proxy).map (.said · message)).toList
  | _, _ => []

/-- What is posted on a proxy, with the port that waits for the acknowledgement: no two posts are the same. -/
def postedOn (proxy : ActorId) : Label → System → List Msg
  | .post proxy' message, s =>
    if proxy' = proxy then
      ((s.portalOf proxy).map fun portal => Msg.publicMessage portal (.postMessage message s.nextPort)).toList
    else []
  | _, _ => []

section

variable {g : AliasGenerator} {s t : System} {l : Label} {events : List Event} {posted : List Msg}
  {proxy portal : ActorId}

theorem waiting_cons (h : s.portalOf proxy = some portal) (msg : ChatServerMessage) (posts : Queues ActorId ChatServerMessage) :
    waiting s.proxies ((proxy, msg) :: posts) = .publicMessage portal msg :: waiting s.proxies posts := by
  obtain ⟨e, hfind, rfl⟩ := Option.map_eq_some_iff.mp h
  have hsent : ((s.proxies.find? (·.1 = proxy)).map fun e => Msg.publicMessage e.2 msg) = some (.publicMessage e.2 msg) :=
    congrArg (Option.map _) hfind
  exact List.filterMap_cons_some hsent

theorem waiting_append (proxies : List (ActorId × ActorId)) (posts later : Queues ActorId ChatServerMessage) :
    waiting proxies (posts ++ later) = waiting proxies posts ++ waiting proxies later := List.filterMap_append

/-- A new proxy does not change what waits on the others. -/
theorem waiting_new {posts : Queues ActorId ChatServerMessage}
    (hposts : ∀ e ∈ posts, ∃ portal, s.portalOf e.1 = some portal) (new : ActorId × ActorId) :
    waiting (s.proxies ++ [new]) posts = waiting s.proxies posts := by
  induction posts with
  | nil => rfl
  | cons e posts ih =>
    obtain ⟨portal, hportal⟩ := hposts e List.mem_cons_self
    have hportal' : ({ s with proxies := s.proxies ++ [new] } : System).portalOf e.1 = some portal := portalOf_append hportal rfl
    rw [waiting_cons hportal]
    exact (waiting_cons hportal' e.2 posts).trans (congrArg _ (ih fun e' he' => hposts e' (List.mem_cons_of_mem _ he')))

/-- What the clients have done has happened, or is on its way. -/
def Accounted (s : System) (events : List Event) : Prop := events.Perm (s.awaited ++ s.handled.map Msg.event)

theorem Accounted.step (h : s.Accounted events) (hposts : ∀ e ∈ s.posts, ∃ portal, s.portalOf e.1 = some portal)
    (hstep : System.step l s = some t) : t.Accounted (events ++ done l s) := by
  -- every event counted: a step moves one along, or adds the one that is done
  have hcount (e : Event) := h.count_eq e
  simp only [awaited, List.count_append] at hcount
  refine List.perm_iff_count.mpr fun e => ?_
  rw [List.count_append, List.count_append, awaited, List.count_append, List.count_append, hcount e]
  cases moves_of_step hstep with
  | spawnHub => rfl
  | connect portal hhub =>
    simp only [done, List.map_append, List.count_append, List.map_cons, List.map_nil]
    omega
  | ask portal client reply rest hconnecting =>
    have hrest := ((Queues.perm_of_dequeue hconnecting).map fun e => Event.joined e.1 e.2.1).count_eq e
    simp only [List.map_cons, List.count_cons] at hrest
    simp only [done, List.map_append, List.count_append, List.map_cons, List.map_nil, List.count_cons, List.count_nil,
      Msg.event]
    omega
  | serve order m rest server effects hmail hhandle horder =>
    simp only [done, served, hmail, List.map_append, List.count_append, List.map_cons, List.map_nil, List.count_cons,
      List.count_nil]
    omega
  | answer portal client rpc reply userAlias rest hasking htold =>
    rw [waiting_new hposts]
    rfl
  | post proxy portal message hportal =>
    simp only [done, hportal, waiting_append, List.map_append, List.count_append, waiting_cons hportal, Option.map_some,
      Option.toList_some, List.map_cons]
    simp only [waiting, List.filterMap_nil, List.map_nil, Msg.event]
    omega
  | forward proxy portal msg rest hdequeue hportal =>
    have hrest : (waiting s.proxies s.posts).Perm (waiting s.proxies ((proxy, msg) :: rest)) :=
      (Queues.perm_of_dequeue hdequeue).filterMap _
    have hrest := (hrest.map Msg.event).count_eq e
    rw [waiting_cons hportal, List.map_cons, List.count_cons] at hrest
    simp only [done, List.map_append, List.count_append, List.map_cons, List.map_nil, List.count_cons, List.count_nil]
    omega

/-- What is posted on a proxy is handled in the order in which it was posted. -/
def Ordered (proxy : ActorId) (s : System) (posted : List Msg) : Prop :=
  posted.Sublist (s.handled ++ s.mailbox ++ waiting s.proxies (s.posts.filter (·.1 = proxy)))

/-- A message that comes to the server from elsewhere. -/
theorem Ordered.mailbox (h : s.Ordered proxy posted) (m : Msg) :
    ({ s with mailbox := s.mailbox ++ [m] } : System).Ordered proxy posted := by
  refine List.Sublist.trans h (List.Sublist.append ?_ (.refl _))
  exact List.Sublist.append (.refl _) (List.sublist_append_left _ _)

theorem Ordered.step (h : s.Ordered proxy posted) (hposts : ∀ e ∈ s.posts, ∃ portal, s.portalOf e.1 = some portal)
    (hstep : System.step l s = some t) : t.Ordered proxy (posted ++ postedOn proxy l s) := by
  cases moves_of_step hstep with
  | spawnHub => simpa only [Ordered, postedOn, List.append_nil] using h
  | connect portal hhub => simpa only [Ordered, postedOn, List.append_nil] using h
  | ask portal client reply rest hconnecting =>
    simp only [postedOn, List.append_nil]
    exact h.mailbox (.connect portal client s.nextPort)
  | serve order m rest server effects hmail hhandle horder =>
    rw [Ordered, hmail, List.append_cons] at h
    simpa only [Ordered, postedOn, served, List.append_nil] using h
  | answer portal client rpc reply userAlias rest hasking htold =>
    simp only [postedOn, List.append_nil]
    rw [Ordered, waiting_new fun e he => hposts e (List.mem_of_mem_filter he)]
    exact h
  | post proxy' portal message hportal =>
    by_cases hproxy : proxy' = proxy
    · subst hproxy
      rw [Ordered, postedOn, if_pos rfl, hportal, List.filter_append, waiting_append, ← List.append_assoc,
        List.filter_cons_of_pos (by simp), List.filter_nil]
      refine List.Sublist.append h ?_
      exact (waiting_cons hportal _ []).symm ▸ .refl _
    · rw [Ordered, postedOn, if_neg hproxy, List.append_nil, List.filter_append,
        List.filter_cons_of_neg (by simpa using hproxy), List.filter_nil, List.append_nil]
      exact h
  | forward proxy' portal msg rest hdequeue hportal =>
    simp only [postedOn, List.append_nil]
    obtain ⟨front, back, hsplit, hrest, hfront⟩ := Queues.dequeue_eq_some hdequeue
    by_cases hproxy : proxy' = proxy
    · subst hproxy
      -- it is the first that waits on the proxy, and comes to the end of the mailbox
      have hnone : front.filter (·.1 = proxy') = [] :=
        List.filter_eq_nil_iff.mpr fun e he => by simpa using hfront e he
      rw [Ordered, hsplit, List.filter_append, hnone, List.nil_append, List.filter_cons_of_pos (by simp), waiting_cons hportal,
        List.append_cons, List.append_assoc s.handled] at h
      rw [Ordered, hrest, List.filter_append, hnone, List.nil_append]
      exact h
    · have hsame : rest.filter (·.1 = proxy) = s.posts.filter (·.1 = proxy) := by
        rw [hsplit, hrest, List.filter_append, List.filter_append, List.filter_cons_of_neg (by simpa using hproxy)]
      have hlater := h.mailbox (.publicMessage portal msg)
      rw [Ordered, ← hsame] at hlater
      exact hlater

end

/-! ## Every run -/

/-- What holds of the system and the room in every state of a run. -/
structure Kept (g : AliasGenerator) (s : System) : Prop where
  fresh : s.Fresh
  housed : s.Housed
  serving : s.Serving g
  answering : s.Answering g

theorem Kept.step {g : AliasGenerator} {s t : System} {l : Label} (h : s.Kept g) (hstep : System.step l s = some t) :
    t.Kept g where
  fresh := h.fresh.step hstep
  housed := h.housed.step hstep
  serving := h.serving.step h.fresh h.housed (fun sender msg hm =>
    have ⟨_, _, hjoined⟩ := h.answering.senders sender msg hm
    h.serving.sender hjoined) hstep
  answering := h.answering.step h.serving hstep

theorem kept_started {g : AliasGenerator} (hg : g.generatedCount = 0) : (started g).Kept g where
  fresh := ⟨List.nodup_nil, fun a ha => nomatch ha⟩
  housed := ⟨fun e he => (nomatch he), fun _ _ _ hm => (nomatch hm), fun _ _ hlook => nomatch hlook⟩
  serving :=
    { generator := by
        show g = { g with generatedCount := 0 }
        rw [← hg]
      clients := fun portal => rfl
      entries := fun _ _ _ hlook => nomatch hlook
      distinct := fun _ _ _ _ _ hlook => nomatch hlook
      views := fun client => rfl
      acknowledged := rfl }
  answering :=
    { bound := fun e he => nomatch he
      asking := fun e he => nomatch he
      proxies := fun e he => nomatch he
      senders := fun _ _ hm => nomatch hm
      connects := fun _ _ _ hm => nomatch hm
      told := fun e he => nomatch he
      connected := fun a ha => nomatch ha
      posts := fun e he => nomatch he }

section

open Transition

variable {g : AliasGenerator} {s : System} {ls : List Label}

theorem kept_of_run (hg : g.generatedCount = 0) (hrun : Run System.step Any ls (started g) s) : s.Kept g :=
  hrun.invariant (fun _ _ _ h _ hstep => h.step hstep) (kept_started hg)

theorem accounted_of_run (hg : g.generatedCount = 0) (hrun : Run System.step Any ls (started g) s) :
    s.Accounted (trace System.step done ls (started g)) := by
  have hkept := hrun.carry (fun _ _ _ h _ hstep => Kept.step h hstep) (kept_started hg)
  apply hkept.tracing _ (R := fun events s => s.Accounted events)
    (fun _ _ _ _ h hgood hstep => h.step hgood.1.answering.posts hstep) []
  exact .refl _

theorem ordered_of_run (hg : g.generatedCount = 0) (hrun : Run System.step Any ls (started g) s) (proxy : ActorId) :
    s.Ordered proxy (trace System.step (postedOn proxy) ls (started g)) := by
  have hkept := hrun.carry (fun _ _ _ h _ hstep => Kept.step h hstep) (kept_started hg)
  apply hkept.tracing _ (R := fun posted s => s.Ordered proxy posted)
    (fun _ _ _ _ h hgood hstep => h.step hgood.1.answering.posts hstep) []
  exact .refl _

end

end System

open Transition

/-- **The server keeps a room.** In every run of the server, the hubs and the proxies:
    1. each client is sent what is announced in the room while he is there, in order and once;
    2. what the clients have done has happened in the room or is on its way to it, and nothing else has happened;
    3. what is posted on a proxy is handled in the order in which it was posted;
    4. all posts that have happened are acknowledged, one after the other;
    5. a client is answered with the alias with which he has joined, and with a proxy for his portal, and he is also
       sent word of himself, although the code means to leave him out;
    6. as long as 900 have joined at most, no two clients are answered with the same alias. -/
theorem room_kept (platform : Codec.Platform) (adjectives nouns : List String)
    (hadjectives : adjectives.Perm adjectiveWords) (hnouns : nouns.Perm nounWords) {ls : List Label} {s : System}
    (hrun : Run System.step Any ls (.started (.new platform adjectives nouns hadjectives hnouns)) s) :
    let g := AliasGenerator.new platform adjectives nouns hadjectives hnouns
    (∀ client, s.inboxOf client = Room.view g.name s.log client) ∧
    s.Accounted (trace System.step System.done ls (.started g)) ∧
    (∀ proxy, s.Ordered proxy (trace System.step (System.postedOn proxy) ls (.started g))) ∧
    s.acknowledged = s.handled.filterMap Msg.reply? ∧
    (∀ a ∈ s.connected, ∃ portal, s.portalOf a.proxy = some portal ∧
      Room.Joined g.name s.log portal a.client a.userAlias ∧ .userConnected a.userAlias ∈ s.inboxOf a.client) ∧
    (Room.joins s.log ≤ 900 →
      ∀ a ∈ s.connected, ∀ b ∈ s.connected, a.userAlias = b.userAlias → a.client = b.client) := by
  intro g
  have hkept := System.kept_of_run (g := g) rfl hrun
  refine ⟨hkept.serving.views, System.accounted_of_run rfl hrun, System.ordered_of_run rfl hrun, hkept.serving.acknowledged,
    fun a ha => ?_, fun hfew a ha b hb halias => ?_⟩
  · obtain ⟨portal, hportal, hjoined⟩ := hkept.answering.connected a ha
    rw [hkept.serving.views]
    exact ⟨portal, hportal, hjoined, hjoined.mem_view⟩
  · obtain ⟨_, -, hjoined⟩ := hkept.answering.connected a ha
    obtain ⟨_, -, hjoined'⟩ := hkept.answering.connected b hb
    rw [← halias] at hjoined'
    refine hjoined.unique hjoined' fun i j hi hj hnames => ?_
    -- the generator does not repeat itself before 900
    have hmax (k : Nat) (hk : k < Room.joins s.log) : k ≤ g.platform.isizeMax := lt_isizeMax (by omega)
    have hwrap (k : Nat) (hk : k < Room.joins s.log) : k % g.platform.usizeSize = k :=
      Nat.mod_eq_of_lt (g.platform.lt_usizeSize (hmax k hk))
    rw [AliasGenerator.name, AliasGenerator.name, hwrap i hi, hwrap j hj, g.aliasAt_inj (hmax i hi) (hmax j hj)] at hnames
    omega

theorem room_kept_once : ∃ s,
    exec System.step [.spawnHub, .connect 0, .ask 0, .serve [0], .answer 0, .post 2 "hi", .forward 2, .serve [0]]
      (.started (.new wasm32 adjectiveWords nounWords (.refl _) (.refl _))) = some s ∧
    s.connected = [{ client := 1, reply := 0, userAlias := "Smirking Gutterrunner", proxy := 2 }] ∧ s.acknowledged = [2] ∧
    s.inboxOf 1 = [.userConnected "Smirking Gutterrunner", .messageReceived "Smirking Gutterrunner" "hi"] ∧
    ∀ client,
      s.inboxOf client = Room.view (AliasGenerator.new wasm32 adjectiveWords nounWords (.refl _) (.refl _)).name s.log client := by
  have hends : (exec System.step [.spawnHub, .connect 0, .ask 0, .serve [0], .answer 0, .post 2 "hi", .forward 2, .serve [0]]
      (.started (.new wasm32 adjectiveWords nounWords (.refl _) (.refl _)))).map
        (fun s => (s.connected, s.acknowledged, s.inboxOf 1)) =
      some ([{ client := 1, reply := 0, userAlias := "Smirking Gutterrunner", proxy := 2 }], [2],
        [.userConnected "Smirking Gutterrunner", .messageReceived "Smirking Gutterrunner" "hi"]) := by
    decide +kernel
  obtain ⟨s, hexec, hs⟩ := Option.map_eq_some_iff.mp hends
  obtain ⟨hconnected, hrest⟩ := Prod.mk.inj hs
  obtain ⟨hacknowledged, hinbox⟩ := Prod.mk.inj hrest
  exact ⟨s, hexec, hconnected, hacknowledged, hinbox,
    (room_kept wasm32 adjectiveWords nounWords (.refl _) (.refl _) (run_of_exec hexec)).1⟩

end Chat
end Wormhole
