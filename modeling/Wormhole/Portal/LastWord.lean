import Wormhole.Portal.Registry

/-!
# `Portal.LastWord` — what a portal says of an actor after its exit notice

The registry keeps an actor whose exit has been announced, and its names. A query for such a name is answered
with the id all the same, and a detached task that has got the id before may post its message after the
notice. These are the only ways in which the id is handed out again.
-/

namespace Wormhole
namespace Portal

variable {β : Type}

/-- The ids that a frame gives to the peer to use. -/
def ConduitMessage.offers : ConduitMessage β → List RemoteActorId
  | .content (some (.responseActorByName _ (.ok id))) => [id]
  | .content (some (.sendMessage _ data)) => data.refs.map RemoteRef.id
  | _ => []

/-- **No frame offers an id that an earlier frame has declared dead.** -/
def LastWord (sent : List (ConduitMessage β)) : Prop :=
  sent.Pairwise fun earlier later => ∀ r, earlier = .content (some (.actorExited r)) → r ∉ later.offers

/-- The exit of what is published as `id` has been announced. -/
def Node.Announced (n : Node β) (id : OpaqueActorId) : Prop :=
  ∃ r : RemoteActorId, r.id = id ∧ ConduitMessage.content (some (.actorExited r)) ∈ n.sent

/-- A turn that can write is not about an actor whose exit has been announced: the name that is asked for
    is not one that was given to such an actor, here or, if it is none here, in the nexus; and the message
    that is to be transmitted has no reference to one. -/
def AboutTheLiving (l : Label β) (n : Node β) : Prop :=
  ∀ uuid nexus sink m rest, l = .handle uuid nexus sink → sink ≠ .refused → n.mailbox = m :: rest →
    match m with
    | .content (some (.requestActorByName _ name)) =>
      (∀ id, n.state.namedActors.lookup name = some id → ¬n.Announced id) ∧
      ∀ actor id, n.state.namedActors.lookup name = none → nexus = some (some actor) →
        n.state.publishedActors.lookup id = some actor → ¬n.Announced id
    | .transmitMessage _ bytes => ∀ ref ∈ bytes.refs, ¬n.Announced ref.id.id
    | _ => True

/-! ## One turn -/

section

variable {env : HandleEnv} {state : PortalActorState} {m : PortalActorMessage β} {r : RemoteActorId}

/-- What a turn can offer to the peer. -/
inductive Offers (env : HandleEnv) (state : PortalActorState) : PortalActorMessage β → RemoteActorId → Prop where
  | named (channel : ConduitID) (request : CrossPortalMessageId) (name : String) (id : OpaqueActorId)
      (hopen : state.channelState = .opened channel) (hname : state.namedActors.lookup name = some id) :
      Offers env state (.content (some (.requestActorByName request name))) (state.mint channel id)
  | fetched (channel : ConduitID) (request : CrossPortalMessageId) (name : String) (actor : ActorId)
      (hopen : state.channelState = .opened channel) (hname : state.namedActors.lookup name = none)
      (hnexus : env.nexus = some (some actor)) :
      Offers env state (.content (some (.requestActorByName request name)))
        (state.mint channel (publishActor (β := β) env state.publishedActors actor).id)
  | transmit (channel : ConduitID) (target : RemoteActorId) (bytes : Payload β) (ref : RemoteRef)
      (hopen : state.channelState = .opened channel) (href : ref ∈ bytes.refs) :
      Offers env state (.transmitMessage target bytes) ref.id

/-- **What a turn offers is in the frame that it writes.** -/
theorem exists_frame_of_offers (h : Offers env state m r) (hsink : env.sink ≠ .refused) :
    ∃ msg ∈ (handle env state m).frames, r ∈ (ConduitMessage.content (some msg)).offers := by
  cases h with
  | named channel request name id hopen hname =>
    refine ⟨.responseActorByName request (.ok (state.mint channel id)), ?_, List.mem_singleton_self _⟩
    simp [handle, handleContent, handleCrossPortalMessage, handleRequestActorByName, hopen, hname, hsink]
  | fetched channel request name actor hopen hname hnexus =>
    refine ⟨.responseActorByName request
      (.ok (state.mint channel (publishActor (β := β) env state.publishedActors actor).id)), ?_,
      List.mem_singleton_self _⟩
    simp [handle, handleContent, handleCrossPortalMessage, handleRequestActorByName, hopen, hname, hnexus,
      hsink]
  | transmit channel target bytes ref hopen href =>
    refine ⟨.sendMessage target bytes, ?_, List.mem_map_of_mem href⟩
    simp [handle, handleTransmitMessage, hopen, hsink]

theorem offers_of_frame {msg : CrossPortalMessage β} (hmsg : msg ∈ (handle env state m).frames)
    (hr : r ∈ (ConduitMessage.content (some msg)).offers) : Offers env state m r ∧ env.sink ≠ .refused := by
  have hcause := handle_causes (mem_frames hmsg)
  cases hcause with
  | named channel request name id hopen hname =>
    obtain rfl := List.mem_singleton.mp hr
    simp [handle, handleContent, handleCrossPortalMessage, handleRequestActorByName, hopen, hname] at hmsg
    exact ⟨.named channel request name id hopen hname, hmsg⟩
  | fetched channel request name id actor hopen hname hnexus hid =>
    obtain rfl := List.mem_singleton.mp hr
    simp [handle, handleContent, handleCrossPortalMessage, handleRequestActorByName, hopen, hname,
      hnexus] at hmsg
    rw [hmsg.2]
    exact ⟨.fetched channel request name actor hopen hname hnexus, hmsg.1⟩
  | transmit channel target bytes hopen =>
    obtain ⟨ref, href, rfl⟩ := List.mem_map.mp hr
    simp [handle, handleTransmitMessage, hopen] at hmsg
    exact ⟨.transmit channel target bytes ref hopen href, hmsg⟩
  | notFound => cases hr
  | query => cases hr
  | exit => cases hr

end

/-! ## One step -/

section

variable {n n' : Node β} {l : Label β} {r : RemoteActorId}

namespace Node

theorem minted_of_announced (hexit : ConduitMessage.content (some (.actorExited r)) ∈ n.sent) : r ∈ n.minted :=
  List.mem_append_left _ (List.mem_flatMap.mpr ⟨_, hexit, List.mem_singleton_self r⟩)

/-- The opaque id determines the id: the channel and the side are those of the portal. -/
theorem Sound.announced (h : n.Sound) (hchannel : n.state.channelState = .opened r.connectionKey)
    (hside : r.side = n.state.args.localId) :
    n.Announced r.id ↔ ConduitMessage.content (some (.actorExited r)) ∈ n.sent := by
  constructor
  · rintro ⟨r', hid, hexit⟩
    obtain ⟨actor, hchannel', hside', -⟩ := h.minted r' (minted_of_announced hexit)
    have heq : r' = r := by
      obtain ⟨key, side, id⟩ := r
      obtain ⟨key', side', id'⟩ := r'
      rw [hchannel] at hchannel'
      cases hchannel'
      cases hid
      cases hside.trans hside'.symm
      rfl
    rw [← heq]
    exact hexit
  · exact fun hexit => ⟨r, rfl, hexit⟩

/-- What has been announced was in the registry, in an open portal. -/
theorem Sound.of_announced (h : n.Sound) {id : OpaqueActorId} (hexit : n.Announced id) :
    ∃ channel actor, n.state.channelState = .opened channel ∧ n.state.publishedActors.lookup id = some actor := by
  obtain ⟨r, rfl, hr⟩ := hexit
  obtain ⟨actor, hchannel, -, hlook⟩ := h.minted r (minted_of_announced hr)
  exact ⟨_, actor, hchannel, hlook⟩

/-- The condition on a turn says that what the turn can offer has not been announced. -/
theorem aboutTheLiving_iff (h : n.Sound) {uuid : OpaqueActorId} {nexus : Option (Option ActorId)}
    {sink : SinkResult} {m : PortalActorMessage β} {rest : List (PortalActorMessage β)}
    (huuid : n.state.publishedActors.lookup uuid = none) (hmail : n.mailbox = m :: rest) :
    AboutTheLiving (.handle uuid nexus sink) n ↔ (sink ≠ .refused →
      ∀ r, Offers (n.env uuid nexus sink) n.state m r →
        ConduitMessage.content (some (.actorExited r)) ∉ n.sent) := by
  constructor
  · intro hliving hsink r hoffers hexit
    have hliving := hliving uuid nexus sink m rest rfl hsink hmail
    cases hoffers with
    | named channel request name id hopen hname =>
      exact hliving.1 id hname ⟨_, rfl, hexit⟩
    | fetched channel request name actor hopen hname hnexus =>
      -- an id that was announced is no new one
      obtain ⟨-, b, -, hb⟩ := h.of_announced ⟨_, rfl, hexit⟩
      have hafter := lookup_publishActor (β := β) (n.env uuid nexus sink) n.state.publishedActors actor
      have hgrow := lookup_publishActor_of_published (β := β) (n.env uuid nexus sink) _ actor huuid hb
      rw [PortalActorState.mint, hafter] at hgrow
      cases hgrow
      exact hliving.2 actor _ hname hnexus hb ⟨_, rfl, hexit⟩
    | transmit channel target bytes ref hopen href =>
      exact hliving ref href ⟨_, rfl, hexit⟩
  · intro hoffers uuid' nexus' sink' m' rest' hl hsink hmail'
    cases hl
    rw [hmail] at hmail'
    cases hmail'
    have hnone := hoffers hsink
    split
    · rename_i request name
      refine ⟨?_, ?_⟩
      · intro id hname hexit
        obtain ⟨channel, -, hopen, -⟩ := h.of_announced hexit
        exact hnone _ (.named channel request name id hopen hname) ((h.announced hopen rfl).mp hexit)
      · intro actor id hname hnexus hlook hexit
        obtain ⟨channel, -, hopen, -⟩ := h.of_announced hexit
        -- an actor that is published keeps its id
        have hid := publishActor_id_of_published (β := β) (n.env uuid nexus sink) _ actor h.consistent.distinct
          hlook
        refine hnone _ (.fetched channel request name actor hopen hname hnexus) ?_
        rw [hid]
        exact (h.announced hopen rfl).mp hexit
    · rename_i target bytes
      intro ref href hexit
      have hminted : ref.id ∈ n.minted :=
        h.mailbox _ (hmail ▸ List.mem_cons_self) ref.id (List.mem_map_of_mem href)
      obtain ⟨actor, hchannel, hside, -⟩ := h.minted _ hminted
      exact hnone _ (.transmit _ target bytes ref hchannel href) ((h.announced hchannel hside).mp hexit)
    · trivial

end Node

/-- A turn that writes keeps the last word exactly if it is about the living. -/
theorem lastWord_turn (h : n.Sound) {uuid : OpaqueActorId} {nexus : Option (Option ActorId)}
    {sink : SinkResult} (hstep : Node.step (.handle uuid nexus sink) n = some n') :
    LastWord n'.sent ↔ LastWord n.sent ∧ AboutTheLiving (.handle uuid nexus sink) n := by
  obtain ⟨⟨-, -, huuid, -⟩, m, rest, hmail, hturned⟩ := Node.turned_of_handle hstep
  rw [Node.aboutTheLiving_iff h huuid hmail, hturned.sent, LastWord, List.pairwise_append]
  have hone : ((handle (n.env uuid nexus sink) n.state m).frames.map fun msg =>
      ConduitMessage.content (some msg)).Pairwise fun earlier later => ∀ r,
        earlier = .content (some (.actorExited r)) → r ∉ later.offers := by
    have hlen := handle_frames (n.env uuid nexus sink) n.state m
    match (handle (n.env uuid nexus sink) n.state m).frames, hlen with
    | [], _ => exact .nil
    | [_], _ => exact List.pairwise_singleton _ _
  constructor
  · rintro ⟨hold, -, hnew⟩
    refine ⟨hold, fun hsink r hoffers hexit => ?_⟩
    obtain ⟨msg, hmsg, hr⟩ := exists_frame_of_offers hoffers hsink
    exact hnew _ hexit _ (List.mem_map_of_mem hmsg) r rfl hr
  · rintro ⟨hold, hliving⟩
    refine ⟨hold, hone, ?_⟩
    rintro _ hexit frame hframe r rfl hr
    obtain ⟨msg, hmsg, rfl⟩ := List.mem_map.mp hframe
    obtain ⟨hoffers, hsink⟩ := offers_of_frame hmsg hr
    exact hliving hsink r hoffers hexit

theorem lastWord_step (h : n.Sound) (hstep : Node.step l n = some n') :
    LastWord n'.sent ↔ LastWord n.sent ∧ AboutTheLiving l n := by
  by_cases hl : ∃ uuid nexus sink, l = .handle uuid nexus sink
  · obtain ⟨uuid, nexus, sink, rfl⟩ := hl
    exact lastWord_turn h hstep
  · have hliving : AboutTheLiving l n := fun uuid nexus sink _ _ heq => absurd ⟨uuid, nexus, sink, heq⟩ hl
    obtain hidle | ⟨uuid, nexus, sink, _, _, heq, -⟩ := Node.idle_or_turned hstep
    · rw [hidle.sent]
      exact ⟨fun hlast => ⟨hlast, hliving⟩, And.left⟩
    · exact absurd ⟨uuid, nexus, sink, heq⟩ hl

end

/-! ## Runs -/

/-- **The last word.** In a run of a portal, no frame offers an id after the frame that has declared it dead,
    if and only if no turn of the run is about an actor whose exit has been announced. -/
theorem last_word_iff (setup : Setup) (ls : List (Label β)) (n : Node β)
    (hrun : Transition.Run Node.step Transition.Any ls (Node.started setup) n) :
    LastWord n.sent ↔ Transition.Run Node.step AboutTheLiving ls (Node.started setup) n := by
  constructor
  · intro hlast
    have hsound := hrun.carry (fun _ _ _ h _ hstep => h.step hstep) (Node.Sound.started setup)
    apply hsound.strengthen (P := fun n => LastWord n.sent)
    · -- the frames of a run begin with those of its beginning
      intro l n n' hstep hlast
      obtain hidle | ⟨_, _, _, _, _, -, -, -, hturned⟩ := Node.idle_or_turned hstep
      · exact hidle.sent ▸ hlast
      · rw [hturned.sent] at hlast
        exact (List.pairwise_append.mp hlast).1
    · intro l n n' hgood hstep hlast
      exact ((lastWord_step hgood.1 hstep).mp hlast).2
    · exact hlast
  · intro hliving
    have hsound := hliving.carry (fun _ _ _ h _ hstep => h.step hstep) (Node.Sound.started setup)
    apply hsound.invariant (P := fun n => LastWord n.sent)
    · intro l n n' hlast hgood hstep
      exact (lastWord_step hgood.1 hstep).mpr ⟨hlast, hgood.2⟩
    · exact List.pairwise_singleton _ _

/-- Actor 0 is published under a name and exits, and its exit is announced; then the peer asks for it. -/
def askedForTheDead : List (Label Nat) :=
  [.recv (some (.handshake (some (twoSides .right).introduction))), .handle ⟨7⟩ none .flushed,
   .request (.publishNamedActor "zero" 0 false), .handle ⟨8⟩ none .flushed,
   .exit 0, .notify 0, .handle ⟨9⟩ none .flushed,
   .recv (some (.content (some (.requestActorByName 1 "zero")))), .handle ⟨9⟩ none .flushed]

/-- **An id is handed out after its exit notice.** -/
theorem dead_actor_offered : ∃ n, Transition.exec Node.step askedForTheDead (Node.started (twoSides .left)) = some n ∧
    n.sent = [.handshake (some (twoSides .left).introduction),
      .content (some (.actorExited ⟨⟨0x06060606060606060606060606060606⟩, ⟨1⟩, ⟨8⟩⟩)),
      .content (some (.responseActorByName 1 (.ok ⟨⟨0x06060606060606060606060606060606⟩, ⟨1⟩, ⟨8⟩⟩)))] ∧
    ¬LastWord n.sent := by
  have heval : (Transition.exec Node.step askedForTheDead (Node.started (twoSides .left))).map (fun n =>
      decide (n.sent = [.handshake (some (twoSides .left).introduction),
        .content (some (.actorExited ⟨⟨0x06060606060606060606060606060606⟩, ⟨1⟩, ⟨8⟩⟩)),
        .content (some (.responseActorByName 1 (.ok ⟨⟨0x06060606060606060606060606060606⟩, ⟨1⟩, ⟨8⟩⟩)))])) =
      some true := by
    decide +kernel
  obtain ⟨n, hn, hsent⟩ := Option.map_eq_some_iff.mp heval
  have hsent := of_decide_eq_true hsent
  refine ⟨n, hn, hsent, fun hlast => ?_⟩
  rw [hsent] at hlast
  obtain ⟨-, hlast⟩ := List.pairwise_cons.mp hlast
  exact (List.pairwise_cons.mp hlast).1 _ List.mem_cons_self _ rfl (List.mem_singleton_self _)

/-- The peer asks while the actor lives. -/
def askedForTheLiving : List (Label Nat) :=
  [.recv (some (.handshake (some (twoSides .right).introduction))), .handle ⟨7⟩ none .flushed,
   .request (.publishNamedActor "zero" 0 false), .handle ⟨8⟩ none .flushed,
   .recv (some (.content (some (.requestActorByName 1 "zero")))), .handle ⟨9⟩ none .flushed,
   .exit 0, .notify 0, .handle ⟨9⟩ none .flushed]

theorem last_word_iff_living : ∃ n,
    Transition.exec Node.step askedForTheLiving (Node.started (twoSides .left)) = some n ∧
    Transition.Run Node.step AboutTheLiving askedForTheLiving (Node.started (twoSides .left)) n := by
  have heval : (Transition.exec Node.step askedForTheLiving (Node.started (twoSides .left))).map (fun n =>
      decide (n.sent = [.handshake (some (twoSides .left).introduction),
        .content (some (.responseActorByName 1 (.ok ⟨⟨0x06060606060606060606060606060606⟩, ⟨1⟩, ⟨8⟩⟩))),
        .content (some (.actorExited ⟨⟨0x06060606060606060606060606060606⟩, ⟨1⟩, ⟨8⟩⟩))])) = some true := by
    decide +kernel
  obtain ⟨n, hn, hsent⟩ := Option.map_eq_some_iff.mp heval
  refine ⟨n, hn, (last_word_iff _ askedForTheLiving n (Transition.run_of_exec hn)).mp ?_⟩
  rw [of_decide_eq_true hsent]
  simp [LastWord, ConduitMessage.offers]

end Portal
end Wormhole
