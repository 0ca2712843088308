import Wormhole.Portal.Serializing
import Wormhole.Portal.Spending

/-!
# `Portal.Hop` — a reply port on its way through one pair of portals

The message that arrives with a tag has at every position the reference that was rebuilt from the one at this
position of the message that was given with this tag. So a reply port of the one side goes on as a port of
the other side (`Carried`). What an `RpcProxyActor` is sent was a value on the port that was rebuilt for it,
as long as nobody else sends to the proxy behind that port (`Ordinary`).
-/

namespace Wormhole
namespace Portal

variable {β : Type}

/-! ## References, position by position -/

def RemoteRef.isPort : RemoteRef → Bool
  | .actorRef _ => false
  | .replyPort _ _ => true

def LocalRef.isPort : LocalRef → Bool
  | .actorRef _ => false
  | .replyPort _ _ => true

/-- What the references of a message are, apart from what they refer to. -/
def kinds (refs : List LocalRef) : List Bool := refs.map LocalRef.isPort

/-- The proxy that local code sends to. -/
def Label.recipient? : Label β → Option ActorId
  | .sendTo proxy _ _ => some proxy
  | _ => none

namespace Node

/-- The id is that of an actor which does not stand for a reply port. -/
def Ordinary (n : Node β) (id : OpaqueActorId) : Prop :=
  ∃ actor, n.state.publishedActors.lookup id = some actor ∧ actor ∉ n.rpcProxies.map Prod.fst

instance (n : Node β) (id : OpaqueActorId) : Decidable (n.Ordinary id) :=
  inferInstanceAs (Decidable (∃ actor, actor ∈ n.state.publishedActors.lookup id ∧ actor ∉ n.rpcProxies.map Prod.fst))

/-- A message of `a` has the reference `remote` where these references have `port`. -/
def Rebuilds (a : Node β) (tag : Tag) (refs : List LocalRef) (remote : RemoteActorId) (port : PortId) : Prop :=
  ∃ (target : RemoteActorId) (data : Payload β) (k : Nat) (timeoutMs : Option Nat) (timeout : Option Duration),
    .content (some (.sendMessage target data)) ∈ a.sent ∧ data.tag = tag ∧
    data.refs[k]? = some (.replyPort timeoutMs remote) ∧ refs[k]? = some (.replyPort timeout port)

/-- The port was rebuilt for the reference, in a message that `b` has delivered, or in the one it works on. -/
def Linked (a b : Node β) (remote : RemoteActorId) (port : PortId) : Prop :=
  ∃ d ∈ b.delivered, a.Rebuilds d.2.tag d.2.refs remote port

def Linking (a b : Node β) (remote : RemoteActorId) (port : PortId) : Prop :=
  ∃ r ∈ b.rebuilding, a.Rebuilds r.tag r.done remote port

/-- A message for `remote` was a value on a port that was rebuilt for it, or it is for an ordinary actor. -/
def Speaks (a b : Node β) (remote : RemoteActorId) (body : β) (refs : List LocalRef) : Prop :=
  a.Ordinary remote.id ∨ ∃ port, (port, .rpc body refs) ∈ b.replies ∧ a.Linked b remote port

/-- A reference, and what it is rebuilt as. -/
inductive Rebuilt (b : Node β) : RemoteRef → LocalRef → Prop where
  | actorRef {id : RemoteActorId} {proxy : ActorId} (hproxy : b.proxies.lookup proxy = some id) :
      Rebuilt b (.actorRef id) (.actorRef proxy)
  | replyPort {timeoutMs : Option Nat} {id : RemoteActorId} {port : PortId} (hport : port < b.nextPort)
      (hproxy : ∀ proxy, (port, proxy) ∈ b.rebuiltPorts → b.proxies.lookup proxy = some id) :
      Rebuilt b (.replyPort timeoutMs id) (.replyPort (timeoutMs.map fun ms => ms % 2 ^ 64 * 10 ^ 6) port)

/-- What the portal has in hand for `actor` is what is left of a frame for it. -/
def Arrived (a b : Node β) (actor : ActorId) (tag : Tag) (body : Option β) (todo : List RemoteRef)
    (done : List LocalRef) : Prop :=
  ∃ target data front, .content (some (.sendMessage target data)) ∈ a.sent ∧
    b.state.publishedActors.lookup target.id = some actor ∧ data.tag = tag ∧ data.body = body ∧
    data.refs = front ++ todo ∧ List.Forall₂ b.Rebuilt front done

/-- What `b` has got from `a`. -/
structure Arriving (a b : Node β) : Prop where
  mailbox : ∀ target data, .content (some (.sendMessage target data)) ∈ b.mailbox →
    .content (some (.sendMessage target data)) ∈ a.sent
  rebuilding : ∀ r ∈ b.rebuilding, a.Arrived b r.actor r.tag r.body r.todo r.done
  delivered : ∀ d ∈ b.delivered, a.Arrived b d.1 d.2.tag (some d.2.body) [] d.2.refs

/-- And what it has to say to `a`. -/
structure Carrying (a b : Node β) : Prop where
  arriving : a.Arriving b
  rebuilt : ∀ e ∈ b.rebuiltPorts, ∃ remote, b.proxies.lookup e.2 = some remote ∧
    (b.uses e.1 = 0 ∨ a.Linking b remote e.1 ∨ a.Linked b remote e.1)
  inbox : ∀ e ∈ b.inbox, ∃ remote, b.proxies.lookup e.1 = some remote ∧ a.Speaks b remote e.2.body e.2.refs
  channel : ∀ e ∈ b.channel, ∃ remote, b.proxies.lookup e.1 = some remote ∧ a.Speaks b remote e.2.body e.2.refs
  immaterializing : ∀ target msg, .immaterializeMessage target msg ∈ b.mailbox → a.Speaks b target msg.body msg.refs
  given : ∀ target msg, b.Given target msg → a.Speaks b target msg.body msg.refs

/-- The port `x` of `a` went on as the port `y` of `b`. -/
def Carried (a b : Node β) (x y : PortId) : Prop :=
  ∃ (target : RemoteActorId) (msg : Msg β) (d : ActorId × Msg β) (k : Nat) (timeout timeout' : Option Duration),
    a.Given target msg ∧ d ∈ b.delivered ∧ d.2.tag = msg.tag ∧
    msg.refs[k]? = some (.replyPort timeout x) ∧ d.2.refs[k]? = some (.replyPort timeout' y)

/-- Local code of `b` sends to proxies of ordinary actors of `a`, which are published when it does. The proxy behind
    a rebuilt port is not given to it. -/
def Honest (a b : Node β) (l : Label β) : Prop :=
  ∀ proxy ∈ l.recipient?, ∀ remote ∈ b.proxies.lookup proxy, a.Ordinary remote.id

instance (a b : Node β) (l : Label β) : Decidable (a.Honest b l) :=
  inferInstanceAs (Decidable (∀ proxy, proxy ∈ l.recipient? → ∀ remote, remote ∈ b.proxies.lookup proxy →
    a.Ordinary remote.id))

section

variable {a a' b b' : Node β} {l : Label β} {remote : RemoteActorId} {port : PortId} {body : β} {refs : List LocalRef}

/-! ## What a step keeps -/

theorem delivered_subset_of_step (hstep : step l a = some a') : a.delivered ⊆ a'.delivered := by
  obtain heq | ⟨r, body, -, -, -, -, rfl⟩ := delivered_of_step hstep
  · rw [heq]
    exact List.Subset.refl _
  · exact List.subset_append_left _ _

/-- **Where a value on a port comes from**: local code, or the `RpcProxyActor` that was sent it. -/
theorem answered_of_step (hstep : step l a = some a') (hreply : (port, .rpc body refs) ∈ a'.replies) :
    (port, .rpc body refs) ∈ a.replies ∨
      l = .trigger port body refs ∧ port ∈ a.held ∧ a'.rpcProxies = a.rpcProxies ∨
      ∃ actor msg, (actor, port) ∈ a.rpcProxies ∧ (actor, msg) ∈ a.delivered ∧ msg.body = body ∧ msg.refs = refs := by
  have hsame (heq : a'.replies = a.replies) : (port, .rpc body refs) ∈ a.replies := heq ▸ hreply
  cases hpump : l.isPump with
  | false =>
    cases l with
    | trigger port' body' refs' =>
      obtain ⟨⟨hheld, -, -⟩, rfl⟩ := trigger_inv hstep
      obtain hold | hnew := List.mem_append.mp hreply
      · exact .inl hold
      · cases List.mem_singleton.mp hnew
        exact .inr (.inl ⟨rfl, hheld, rfl⟩)
    | answer actor =>
      obtain ⟨port', msg, hport, hmsg, -, rfl | rfl⟩ := answer_inv hstep
      · exact .inl (hsame rfl)
      · obtain hold | hnew := List.mem_append.mp hreply
        · exact .inl hold
        · cases List.mem_singleton.mp hnew
          exact .inr (.inr ⟨actor, msg, mem_of_lookup hport, mem_of_rpcMessage hmsg, rfl, rfl⟩)
    | _ => exact .inl (hsame ((quiet_of_step hpump hstep).answered (by simp) (by simp)))
  | true =>
    cases l with
    | recv frame =>
      obtain ⟨-, rfl⟩ := recv_inv hstep
      obtain _ | _ | _ | _ := frame <;> exact .inl (hsame rfl)
    | handle uuid nexus sink =>
      obtain ⟨-, m, rest, -, hturned⟩ := turned_of_handle hstep
      rw [hturned.replies] at hreply
      obtain hold | hnew := List.mem_append.mp hreply
      · exact .inl hold
      · cases replies_not_rpc _ _ _ _ hnew
    | rebuildDone =>
      obtain ⟨r, -, -, rfl⟩ := rebuildDone_inv hstep
      obtain ⟨error, heq⟩ | ⟨body, -, -, heq⟩ := a.deliver_cases r <;> exact .inl (hsame (by rw [heq]; rfl))
    | _ => cases hpump

/-- An actor that has been published does not become one that stands for a reply port. -/
theorem Ordinary.step {id : OpaqueActorId} (h : a.Ordinary id) (hpopulated : a.Populated)
    (hstep : Node.step l a = some a') : a'.Ordinary id := by
  obtain ⟨actor, hactor, hnot⟩ := h
  refine ⟨actor, lookup_published_of_step hstep hactor, ?_⟩
  obtain hsame | ⟨tag, t, rest, timeout, port, todo, -, -, -, -, rfl⟩ := rpcProxies_of_step hstep
  · rwa [hsame]
  · show actor ∉ (a.rpcProxies ++ [(a.nextActor, port)]).map Prod.fst
    rw [List.map_append, List.mem_append]
    rintro (hold | hnew)
    · exact hnot hold
    · obtain rfl := List.mem_singleton.mp hnew
      exact Nat.lt_irrefl _ (hpopulated.below.registry id _ hactor)

theorem Rebuilds.mono {tag : Tag} (h : a.Rebuilds tag refs remote port) (hsent : a.sent ⊆ a'.sent) :
    a'.Rebuilds tag refs remote port := by
  obtain ⟨target, data, k, timeoutMs, timeout, hframe, hrest⟩ := h
  exact ⟨target, data, k, timeoutMs, timeout, hsent hframe, hrest⟩

/-- References are added at the end. -/
theorem Rebuilds.concat {tag : Tag} (h : a.Rebuilds tag refs remote port) (ref : LocalRef) :
    a.Rebuilds tag (refs ++ [ref]) remote port := by
  obtain ⟨target, data, k, timeoutMs, timeout, hframe, htag, hdata, hrefs⟩ := h
  refine ⟨target, data, k, timeoutMs, timeout, hframe, htag, hdata, ?_⟩
  rw [List.getElem?_append_left (List.getElem?_eq_some_iff.mp hrefs).1]
  exact hrefs

theorem Linked.mono (h : a.Linked b remote port) (hsent : a.sent ⊆ a'.sent) (hdelivered : b.delivered ⊆ b'.delivered) :
    a'.Linked b' remote port := by
  obtain ⟨d, hd, hrebuilds⟩ := h
  exact ⟨d, hdelivered hd, hrebuilds.mono hsent⟩

theorem Speaks.mono (h : a.Speaks b remote body refs) (hordinary : a.Ordinary remote.id → a'.Ordinary remote.id)
    (hsent : a.sent ⊆ a'.sent) (hdelivered : b.delivered ⊆ b'.delivered) (hreplies : b.replies ⊆ b'.replies) :
    a'.Speaks b' remote body refs := by
  obtain h | ⟨port, hreply, hlinked⟩ := h
  · exact .inl (hordinary h)
  · exact .inr ⟨port, hreplies hreply, hlinked.mono hsent hdelivered⟩

theorem Arrived.mono {actor : ActorId} {tag : Tag} {body : Option β} {todo : List RemoteRef} {done : List LocalRef}
    (h : a.Arrived b actor tag body todo done) (hsent : a.sent ⊆ a'.sent) : a'.Arrived b actor tag body todo done := by
  obtain ⟨target, data, front, hframe, hrest⟩ := h
  exact ⟨target, data, front, hsent hframe, hrest⟩

theorem Rebuilt.all_step {remotes : List RemoteRef} {done : List LocalRef} (h : List.Forall₂ b.Rebuilt remotes done)
    (hstep : Node.step l b = some b') : List.Forall₂ b'.Rebuilt remotes done := by
  refine h.imp fun remote ref hrebuilt => ?_
  cases hrebuilt with
  | actorRef hproxy => exact .actorRef (lookup_proxies_of_step hstep hproxy)
  | replyPort hport hproxy =>
    refine .replyPort (Nat.lt_of_lt_of_le hport (nextPort_le_of_step hstep)) fun proxy hmem => ?_
    obtain hold | ⟨-, -, -, -, -, -, -, heq⟩ := rebuiltPorts_of_step hstep hmem
    · exact lookup_proxies_of_step hstep (hproxy proxy hold)
    · exact absurd (congrArg Prod.fst heq) (Nat.ne_of_lt hport)

theorem Arrived.step {actor : ActorId} {tag : Tag} {body : Option β} {todo : List RemoteRef} {done : List LocalRef}
    (h : a.Arrived b actor tag body todo done) (hstep : Node.step l b = some b') :
    a.Arrived b' actor tag body todo done := by
  obtain ⟨target, data, front, hframe, hactor, htag, hbody, hrefs, hrebuilt⟩ := h
  exact ⟨target, data, front, hframe, lookup_published_of_step hstep hactor, htag, hbody, hrefs,
    Rebuilt.all_step hrebuilt hstep⟩

/-- A new proxy is the proxy of what it was created for. -/
theorem lookup_new_proxy (hpopulated : b.Populated) (id : RemoteActorId) :
    (b.proxies ++ [(b.nextActor, id)]).lookup b.nextActor = some id := by
  have hnew : b.proxies.lookup b.nextActor = none := by
    refine List.lookup_eq_none_iff.mpr fun e he => ?_
    simpa using Nat.ne_of_gt (hpopulated.proxies e he)
  rw [List.lookup_append, hnew]
  simp

theorem Carried.mono {x y : PortId} (h : a.Carried b x y) (hhandled : a.handled ⊆ a'.handled)
    (hdelivered : b.delivered ⊆ b'.delivered) : a'.Carried b' x y := by
  obtain ⟨target, msg, d, k, timeout, timeout', hgiven, hd, hrest⟩ := h
  exact ⟨target, msg, d, k, timeout, timeout', hhandled hgiven, hdelivered hd, hrest⟩

/-- **The sender moves.** -/
theorem Arriving.send (h : a.Arriving b) (hstep : Node.step l a = some a') : a'.Arriving b where
  mailbox target data hm := sent_subset_of_step hstep (h.mailbox target data hm)
  rebuilding r hr := (h.rebuilding r hr).mono (sent_subset_of_step hstep)
  delivered d hd := (h.delivered d hd).mono (sent_subset_of_step hstep)

theorem Carrying.send (h : a.Carrying b) (hpopulated : a.Populated) (hstep : Node.step l a = some a') :
    a'.Carrying b := by
  have hsent := sent_subset_of_step hstep
  have hspeaks {remote : RemoteActorId} {body : β} {refs : List LocalRef} (hs : a.Speaks b remote body refs) :
      a'.Speaks b remote body refs :=
    hs.mono (fun ho => ho.step hpopulated hstep) hsent (List.Subset.refl _) (List.Subset.refl _)
  refine ⟨h.arriving.send hstep, fun e he => ?_, fun e he => ?_, fun e he => ?_,
    fun target msg hm => hspeaks (h.immaterializing target msg hm), fun target msg hm => hspeaks (h.given target msg hm)⟩
  · obtain ⟨remote, hremote, hzero | ⟨r, hr, hrebuilds⟩ | hlinked⟩ := h.rebuilt e he
    · exact ⟨remote, hremote, .inl hzero⟩
    · exact ⟨remote, hremote, .inr (.inl ⟨r, hr, hrebuilds.mono hsent⟩)⟩
    · exact ⟨remote, hremote, .inr (.inr (hlinked.mono hsent (List.Subset.refl _)))⟩
  · exact (h.inbox e he).imp fun _ hs => ⟨hs.1, hspeaks hs.2⟩
  · exact (h.channel e he).imp fun _ hs => ⟨hs.1, hspeaks hs.2⟩

/-! ## The receiver moves -/

/-- **The message in the hands of the handler** stays there, or gets its next reference, or is lost, or is
    delivered. -/
theorem in_hand_of_step (hstep : step l b = some b') {r : Rebuilding β} (hr : b.rebuilding = some r) :
    b'.rebuilding = some r ∨
    (∃ r' ref, b'.rebuilding = some r' ∧ r'.tag = r.tag ∧ r'.done = r.done ++ [ref]) ∨
    (∃ error, b' = b.halt (.failed error)) ∨ ∃ body, b' = b.handOver r body := by
  cases hpump : l.isPump with
  | false =>
    by_cases href : l = .rebuildRef
    · subst href
      obtain ⟨r₀, ref, todo, hr₀, -, rfl⟩ := rebuildRef_inv hstep
      obtain rfl := Option.some.inj (hr.symm.trans hr₀)
      refine .inr (.inl ?_)
      cases ref with
      | actorRef id => exact ⟨_, _, rfl, rfl, rfl⟩
      | replyPort timeoutMs id => exact ⟨_, _, rfl, rfl, rfl⟩
    · exact .inl (((quiet_of_step hpump hstep).rebuilding href).trans hr)
  | true =>
    cases l with
    | recv frame =>
      obtain ⟨-, rfl⟩ := recv_inv hstep
      obtain _ | _ | _ | _ := frame <;> exact .inl hr
    | handle uuid nexus sink =>
      obtain ⟨⟨-, hidle, -⟩, -⟩ := handle_inv hstep
      cases hr.symm.trans hidle
    | rebuildDone =>
      obtain ⟨r₀, hr₀, -, rfl⟩ := rebuildDone_inv hstep
      obtain rfl := Option.some.inj (hr.symm.trans hr₀)
      obtain ⟨error, heq⟩ | ⟨body, -, -, heq⟩ := b.deliver_cases r
      · exact .inr (.inr (.inl ⟨error, heq⟩))
      · exact .inr (.inr (.inr ⟨body, heq⟩))
    | _ => cases hpump

/-- A port that was never handed over is lost with its message. -/
theorem uses_lost (h : b.Linear) {r : Rebuilding β} (hr : b.rebuilding = some r) (hport : port ∈ portsOf r.done)
    (life : Life) : (b.halt life).uses port = 0 := by
  have hone := h.once port
  have hcount : (b.rebuilding.toList.flatMap fun r => portsOf r.done).count port = (portsOf r.done).count port := by
    rw [hr]
    simp
  have hpos := List.count_pos_iff.mpr hport
  have hhalt : (b.halt life).uses port ≤ ({ b with rebuilding := none } : Node β).uses port :=
    uses_halt_le { b with rebuilding := none } life port
  have hnone : ((Option.toList (none : Option (Rebuilding β))).flatMap fun r => portsOf r.done).count port = 0 := rfl
  unfold uses at hone
  rw [hcount] at hone
  refine Nat.le_zero.mp (hhalt.trans ?_)
  unfold uses
  dsimp only
  omega

/-- A port that was answered has been handed over. -/
theorem Linked.of_answered (h : b.Linear) (hreply : (port, .rpc body refs) ∈ b.replies)
    (hlinked : b.uses port = 0 ∨ a.Linking b remote port ∨ a.Linked b remote port) : a.Linked b remote port := by
  have hone := h.once port
  have hanswered : 0 < (b.rpcProxies.map Prod.snd).count port + answers b.rpcProxies b.replies port := by
    unfold answers
    split
    · rename_i hmem
      have hpos := List.count_pos_iff.mpr hmem
      omega
    · have hpos := List.count_pos_iff.mpr (List.mem_map_of_mem (f := Prod.fst) hreply)
      exact Nat.lt_of_lt_of_le hpos (Nat.le_add_left _ _)
  obtain hzero | ⟨r, hr, -, -, k, -, timeout, -, -, -, href⟩ | hlinked := hlinked
  · unfold uses at hzero
    omega
  · have hpos := List.count_pos_iff.mpr (mem_portsOf (List.mem_of_getElem? href))
    have hcount : (b.rebuilding.toList.flatMap fun r => portsOf r.done).count port = (portsOf r.done).count port := by
      rw [Option.mem_def.mp hr]
      simp
    unfold uses at hone
    omega
  · exact hlinked

/-- A port that has been built is with its message, also where this goes. -/
theorem built_of_step (hstep : step l b = some b') (hlinear : b.Linear) (huses : Uses b b') {e : PortId × ActorId} (he : e ∈ b.rebuiltPorts)
    (hlinked : b.uses e.1 = 0 ∨ a.Linking b remote e.1 ∨ a.Linked b remote e.1) :
    b'.uses e.1 = 0 ∨ a.Linking b' remote e.1 ∨ a.Linked b' remote e.1 := by
  obtain hzero | ⟨r, hr, hrebuilds⟩ | hlinked := hlinked
  · refine .inl (Nat.le_zero.mp ?_)
    obtain ⟨-, hle⟩ | ⟨-, hle⟩ := huses
    · exact hzero ▸ hle e.1
    · have hle := hle e.1
      rwa [hzero, List.count_singleton, if_neg (by simpa using Nat.ne_of_gt (hlinear.rebuiltLt e he))] at hle
  · obtain hsame | ⟨r', ref, hr', htag, hdone⟩ | ⟨error, rfl⟩ | ⟨body, rfl⟩ := in_hand_of_step hstep hr
    · exact .inr (.inl ⟨r, hsame, hrebuilds⟩)
    · refine .inr (.inl ⟨r', hr', ?_⟩)
      rw [htag, hdone]
      exact hrebuilds.concat ref
    · obtain ⟨-, -, k, -, timeout, -, -, -, href⟩ := hrebuilds
      exact .inl (uses_lost hlinear hr (mem_portsOf (List.mem_of_getElem? href)) _)
    · exact .inr (.inr ⟨_, List.mem_append_right _ (List.mem_singleton_self _), hrebuilds⟩)
  · exact .inr (.inr (hlinked.mono (List.Subset.refl _) (delivered_subset_of_step hstep)))

namespace Arriving

variable (h : a.Arriving b) (hstep : step l b = some b')

include h hstep

theorem rebuilding_step (hlinear : b.Linear) (hpopulated : b.Populated) {r : Rebuilding β} (hr : r ∈ b'.rebuilding) :
    a.Arrived b' r.actor r.tag r.body r.todo r.done := by
  obtain hold | ⟨r₀, ref, -, hr₀, htodo, hactor, htag, hbody, rfl⟩ | ⟨_, _, _, target, data, -, hm, hactor, heq⟩ :=
    rebuilding_of_step hstep hr
  · exact (h.rebuilding r hold).step hstep
  · obtain ⟨target, data, front, hframe, hlook, htag₀, hbody₀, hrefs, hrebuilt⟩ := (h.rebuilding r₀ hr₀).step hstep
    refine ⟨target, data, front ++ [ref], hframe, hactor ▸ hlook, htag₀.trans htag, hbody₀.trans hbody, ?_, ?_⟩
    · rw [hrefs, htodo, List.append_assoc]
      rfl
    · cases ref with
      | actorRef id =>
        rw [← congrArg Rebuilding.done (Option.some.inj (Option.mem_def.mp hr))]
        exact List.rel_append hrebuilt (.cons (.actorRef (lookup_new_proxy hpopulated id)) .nil)
      | replyPort timeoutMs id =>
        rw [← congrArg Rebuilding.done (Option.some.inj (Option.mem_def.mp hr))]
        refine List.rel_append hrebuilt (.cons (.replyPort (Nat.lt_succ_self _) fun proxy hmem => ?_) .nil)
        obtain hold | hnew := List.mem_append.mp hmem
        · exact absurd (hlinear.rebuiltLt _ hold) (Nat.lt_irrefl _)
        · cases List.mem_singleton.mp hnew
          exact lookup_new_proxy hpopulated id
  · rw [heq]
    exact ⟨target, data, [], h.mailbox target data hm, lookup_published_of_step hstep hactor, rfl, rfl, rfl, .nil⟩

theorem delivered_step {d : ActorId × Msg β} (hd : d ∈ b'.delivered) :
    a.Arrived b' d.1 d.2.tag (some d.2.body) [] d.2.refs := by
  obtain heq | ⟨r, body, rfl, hr, hbody, -, rfl⟩ := delivered_of_step hstep
  · exact (h.delivered d (heq ▸ hd)).step hstep
  · obtain hold | hnew := List.mem_append.mp hd
    · exact (h.delivered d hold).step hstep
    · obtain ⟨r', hr', htodo, -⟩ := rebuildDone_inv hstep
      obtain rfl := Option.some.inj (hr.symm.trans hr')
      rw [List.mem_singleton.mp hnew]
      have harrived := (h.rebuilding r hr).step hstep
      rwa [hbody, htodo] at harrived

/-- **The receiver moves.** -/
theorem receive (hlinear : b.Linear) (hpopulated : b.Populated)
    (hrecv : ∀ frame, l = .recv (some frame) → frame ∈ a.sent) :
    a.Arriving b' := by
  refine ⟨fun target data hm => ?_, fun r hr => h.rebuilding_step hstep hlinear hpopulated hr,
    fun d hd => h.delivered_step hstep hd⟩
  obtain hold | hposts | ⟨frame, rfl, heq⟩ := mem_mailbox_of_step hstep hm
  · exact h.mailbox target data hold
  · cases l <;> cases hposts
  · obtain _ | _ | _ | _ := frame <;> cases heq
    exact hrecv _ rfl

end Arriving

namespace Carrying

variable (h : a.Carrying b) (hstep : step l b = some b')

include h hstep

theorem rebuilt_step (hlinear : b.Linear) (hpopulated : b.Populated) (huses : Uses b b') {e : PortId × ActorId}
    (he : e ∈ b'.rebuiltPorts) : ∃ remote, b'.proxies.lookup e.2 = some remote ∧
      (b'.uses e.1 = 0 ∨ a.Linking b' remote e.1 ∨ a.Linked b' remote e.1) := by
  obtain hold | ⟨r, timeoutMs, id, todo, rfl, hr, htodo, rfl⟩ := rebuiltPorts_of_step hstep he
  · obtain ⟨remote, hremote, hlinked⟩ := h.rebuilt e hold
    exact ⟨remote, lookup_proxies_of_step hstep hremote, built_of_step hstep hlinear huses hold hlinked⟩
  · obtain ⟨r₀, ref, todo₀, hr₀, htodo₀, rfl⟩ := rebuildRef_inv hstep
    obtain rfl := Option.some.inj (hr.symm.trans hr₀)
    obtain ⟨rfl, rfl⟩ := List.cons.inj (htodo.symm.trans htodo₀)
    obtain ⟨target, data, front, hframe, -, htag, -, hrefs, hrebuilt⟩ := h.arriving.rebuilding r hr
    refine ⟨id, lookup_new_proxy hpopulated id, .inr (.inl ⟨_, rfl, target, data, front.length, timeoutMs,
      timeoutMs.map fun ms => ms % 2 ^ 64 * 10 ^ 6, hframe, htag, ?_, ?_⟩)⟩
    · rw [hrefs, htodo, List.getElem?_append_right (Nat.le_refl _), Nat.sub_self]
      rfl
    · rw [hrebuilt.length_eq]
      exact List.getElem?_concat_length ..

theorem inbox_step (hlinear : b.Linear) (hhonest : a.Honest b l) {e : ActorId × Msg β} (he : e ∈ b'.inbox) :
    ∃ remote, b'.proxies.lookup e.1 = some remote ∧ a.Speaks b' remote e.2.body e.2.refs := by
  have hdelivered := delivered_subset_of_step hstep
  have hreplies := replies_subset_of_step hstep
  obtain hold | ⟨-, ⟨rfl, hproxy⟩ | ⟨port, rest, -, hdequeue, hreply⟩⟩ := inbox_of_step hstep he
  · obtain ⟨remote, hremote, hspeaks⟩ := h.inbox e hold
    exact ⟨remote, lookup_proxies_of_step hstep hremote, hspeaks.mono id (List.Subset.refl _) hdelivered hreplies⟩
  · obtain ⟨remote, hremote⟩ := lookup_of_mem_proxies hproxy
    exact ⟨remote, lookup_proxies_of_step hstep hremote, .inl (hhonest _ rfl remote hremote)⟩
  · -- what is forwarded was sent on a port, and so the port had been handed over
    have hbuilt : (port, e.1) ∈ b.rebuiltPorts := (Queues.perm_of_dequeue hdequeue).mem_iff.mpr List.mem_cons_self
    have hmem := mem_of_rpcReply hreply
    obtain ⟨remote, hremote, hlinked⟩ := h.rebuilt _ hbuilt
    refine ⟨remote, lookup_proxies_of_step hstep hremote, .inr ⟨port, hreplies hmem, ?_⟩⟩
    exact (Linked.of_answered hlinear hmem hlinked).mono (List.Subset.refl _) hdelivered

/-- **The receiver moves.** -/
theorem receive (hlinear : b.Linear) (hpopulated : b.Populated) (huses : Uses b b') (hhonest : a.Honest b l)
    (hrecv : ∀ frame, l = .recv (some frame) → frame ∈ a.sent) : a.Carrying b' := by
  have hspeaks {remote : RemoteActorId} {body : β} {refs : List LocalRef} (hs : a.Speaks b remote body refs) :
      a.Speaks b' remote body refs :=
    hs.mono id (List.Subset.refl _) (delivered_subset_of_step hstep) (replies_subset_of_step hstep)
  refine ⟨h.arriving.receive hstep hlinear hpopulated hrecv, fun e he => h.rebuilt_step hstep hlinear hpopulated huses he,
    fun e he => h.inbox_step hstep hlinear hhonest he, fun e he => ?_, fun target msg hm => ?_,
    fun target msg hm => ?_⟩
  · obtain ⟨remote, hremote, hs⟩ : ∃ remote, b.proxies.lookup e.1 = some remote ∧
        a.Speaks b remote e.2.body e.2.refs := (channel_of_step hstep he).elim (h.channel e) (h.inbox e)
    exact ⟨remote, lookup_proxies_of_step hstep hremote, hspeaks hs⟩
  · obtain hold | ⟨proxy, msg', rest, remote, rfl, hdequeue, hremote, heq⟩ | ⟨_, _, _, -, -, -, heq⟩ :=
      mail_of_step hstep hm (by rintro ⟨⟩)
    · exact hspeaks (h.immaterializing target msg hold)
    · cases heq
      obtain ⟨remote, hremote', hs⟩ :=
        h.channel _ ((Queues.perm_of_dequeue hdequeue).mem_iff.mpr List.mem_cons_self)
      obtain rfl := Option.some.inj (hremote.symm.trans hremote')
      exact hspeaks hs
    · cases heq
  · exact hspeaks ((handled_of_step hstep hm).elim (h.given target msg) (h.immaterializing target msg))

end Carrying

/-! ## The hop -/

theorem isPort_of_rebuilt {remotes : List RemoteRef} {refs : List LocalRef} (h : List.Forall₂ b.Rebuilt remotes refs) :
    remotes.map RemoteRef.isPort = kinds refs := by
  induction h with
  | nil => rfl
  | cons hrebuilt _ ih =>
    rw [List.map_cons, ih]
    cases hrebuilt <;> rfl

theorem isPort_of_serialized {refs : List LocalRef} {remotes : List RemoteRef} (h : List.Forall₂ a.Serialized refs remotes) :
    remotes.map RemoteRef.isPort = kinds refs := by
  induction h with
  | nil => rfl
  | cons hserialized _ ih =>
    rw [List.map_cons, ih]
    cases hserialized <;> rfl

/-- What stands for an `RpcProxyActor` on the wire was its port. -/
theorem serialized_port (hpopulated : a.Populated) {refs : List LocalRef} {remotes : List RemoteRef}
    (h : List.Forall₂ a.Serialized refs remotes) {k : Nat} {timeoutMs : Option Nat} {actor : ActorId}
    (hk : remotes[k]? = some (.replyPort timeoutMs remote)) (hactor : (actor, port) ∈ a.rpcProxies)
    (hremote : a.state.publishedActors.lookup remote.id = some actor) :
    ∃ timeout, refs[k]? = some (.replyPort timeout port) := by
  induction h generalizing k with
  | nil => cases hk
  | cons hserialized _ ih =>
    cases k with
    | succ k => exact ih hk
    | zero =>
      cases Option.some.inj hk
      cases hserialized with
      | @replyPort timeout port' actor' _ hactor' hid =>
        obtain rfl := Option.some.inj (hremote.symm.trans hid.lookup)
        have heq : (actor, port) = (actor, port') :=
          List.inj_on_of_nodup_map hpopulated.distinct hactor hactor' rfl
        cases heq
        exact ⟨timeout, rfl⟩

/-- **What is answered on a port was sent on the port that it went on as.** -/
theorem Carrying.answered_back (hab : a.Carrying b) (hba : b.Arriving a) (hlinear : a.Linear) (hpopulated : a.Populated)
    (hspent : a.Spent) (ha : a.Serializer) (hb : b.Serializer) {x : PortId} (hgiven : x ∈ a.givenPorts)
    (hreply : (x, .rpc body refs) ∈ a.replies) :
    ∃ y refs', a.Carried b x y ∧ (y, .rpc body refs') ∈ b.replies ∧ kinds refs' = kinds refs := by
  obtain ⟨⟨actor, x⟩, hserves, rfl⟩ := List.mem_map.mp (hspent.served hgiven (List.mem_map_of_mem hreply))
  obtain ⟨msg, hmsg, hvalue⟩ := hlinear.value _ hserves _ hreply
  obtain ⟨rfl, rfl⟩ := ReplyValue.rpc.inj hvalue
  -- the message that the `RpcProxyActor` got came from the other side
  obtain ⟨target, data, front, hframe, hactor, -, hbody, hrefs, hrebuilt⟩ :=
    hba.delivered _ (mem_of_rpcMessage hmsg)
  obtain ⟨msg', hgiven', -, hbody', hserialized⟩ := hb.sent target data hframe
  obtain ⟨actor', hactor', hnot⟩ | ⟨y, hy, d, hd, target', data', k, timeoutMs, timeout, hframe', htag, hdata, hport⟩ :=
    hab.given target msg' hgiven'
  · obtain rfl := Option.some.inj (hactor.symm.trans hactor')
    exact absurd (List.mem_map_of_mem hserves) hnot
  · -- the reference that `y` was rebuilt from was serialized from a port, and this is `x`
    obtain ⟨origin, horigin, htag', -, hserialized'⟩ := ha.sent target' data' hframe'
    obtain ⟨timeout', href⟩ := serialized_port hpopulated hserialized' hdata hserves hactor
    refine ⟨y, msg'.refs, ⟨target', origin, d, k, timeout', timeout, horigin, hd, htag.symm.trans htag'.symm, href,
      hport⟩, ?_, ?_⟩
    · rw [Option.some.inj (hbody.symm.trans hbody')]
      exact hy
    · rw [← isPort_of_serialized hserialized, hrefs, List.append_nil]
      exact isPort_of_rebuilt hrebuilt

/-- A port goes on as one port. -/
theorem Carried.unique (hspent : a.Spent) (hnodup : b.deliveredTags.Nodup) {x y y' : PortId} (h : a.Carried b x y)
    (h' : a.Carried b x y') : y = y' := by
  obtain ⟨target, msg, d, k, timeout, timeout₁, hgiven, hd, htag, hx, hy⟩ := h
  obtain ⟨target', msg', d', k', timeout', timeout₁', hgiven', hd', htag', hx', hy'⟩ := h'
  obtain ⟨rfl, rfl⟩ := hspent.position hgiven hgiven' hx hx'
  obtain rfl := List.inj_on_of_nodup_map hnodup hd hd' (htag.trans htag'.symm)
  cases hy.symm.trans hy'
  rfl

/-- It is one that the portal was given. -/
theorem Carried.given {x y : PortId} (h : a.Carried b x y) : x ∈ a.givenPorts := by
  obtain ⟨target, msg, d, k, timeout, timeout', hgiven, -, -, hx, -⟩ := h
  exact List.mem_flatMap.mpr ⟨_, hgiven, mem_portsOf (List.mem_of_getElem? hx)⟩

theorem Arriving.started (setup setup' : Setup) :
    (Node.started (β := β) setup).Arriving (Node.started setup') where
  mailbox := by rintro _ _ ⟨⟩
  rebuilding := by rintro _ ⟨⟩
  delivered := by rintro _ ⟨⟩

theorem Carrying.started (setup setup' : Setup) :
    (Node.started (β := β) setup).Carrying (Node.started setup') where
  arriving := .started setup setup'
  rebuilt := by rintro _ ⟨⟩
  inbox := by rintro _ ⟨⟩
  channel := by rintro _ ⟨⟩
  immaterializing := by rintro _ _ ⟨⟩
  given := by rintro _ _ ⟨⟩

/-! ## A side -/

/-- What holds of every side. -/
structure Relaying (n : Node β) : Prop where
  linear : n.Linear
  populated : n.Populated
  reached : n.Reached
  sound : n.Sound
  spent : n.Spent
  serializer : n.Serializer
  served : ∀ e ∈ n.rpcProxies, e.2 ∈ n.givenPorts

theorem Relaying.step (h : a.Relaying) (hstep : Node.step l a = some a') : a'.Relaying := by
  have huses := uses_of_step h.linear h.populated h.reached hstep
  have hlinear := h.linear.step h.populated h.reached hstep
  refine ⟨hlinear, h.populated.step hstep, h.reached.step hstep, h.sound.step hstep,
    h.spent.step h.linear hlinear huses hstep, h.serializer.step h.linear h.sound hstep, fun e he => ?_⟩
  refine givenPorts_subset_of_step hstep ?_
  obtain hsame | ⟨tag, t, rest, timeout, port, todo, -, hdequeue, -, htodo, rfl⟩ := rpcProxies_of_step hstep
  · exact h.served e (hsame ▸ he)
  · obtain hold | hnew := List.mem_append.mp he
    · exact h.served e hold
    · -- the new actor serves the next port of a task, and the task has a message that was given
      rw [List.mem_singleton.mp hnew]
      obtain ⟨msg, front, hserializing⟩ :=
        h.serializer.tasks (tag, t) ((Queues.perm_of_dequeue hdequeue).mem_iff.mpr List.mem_cons_self)
      refine List.mem_flatMap.mpr ⟨_, hserializing.given, mem_portsOf (?_ : .replyPort timeout port ∈ msg.refs)⟩
      rw [hserializing.refs, htodo]
      exact List.mem_append_right _ List.mem_cons_self

theorem Relaying.started (setup : Setup) : (Node.started (β := β) setup).Relaying :=
  ⟨Linear.of_run (.nil _), Populated.of_run (.nil _), Reached.of_run (.nil _), Sound.started setup,
    Spent.started setup, Serializer.started setup, by rintro _ ⟨⟩⟩

end

end Node
end Portal
end Wormhole
