import Wormhole.Portal.Handle

/-!
# `Portal.Turns` — what one turn of the message pump can do

The effects of a turn sorted by kind, and for each part of the portal the messages that can touch it: the
phase, the published actors, the proxies, the frames on the wire, the way the turn ends. What is proved
later about runs uses `handle` through these lemmas only.
-/

namespace Wormhole
namespace Portal

variable {β : Type}

/-! ## The effects of a turn, by kind -/

def Effect.frame? : Effect β → Option (CrossPortalMessage β)
  | .send msg => some msg
  | _ => none

def Effect.reply? : Effect β → Option (PortId × ReplyValue β)
  | .reply port value => some (port, value)
  | _ => none

def Effect.watched? : Effect β → Option ActorId
  | .watch actor => some actor
  | _ => none

def Effect.spawned? : Effect β → Option (RemoteActorId × Msg β)
  | .spawn target msg => some (target, msg)
  | _ => none

def Effect.stopped? : Effect β → Option ActorId
  | .stop actor => some actor
  | _ => none

namespace Turn

def frames (turn : Turn β) : List (CrossPortalMessage β) := turn.effects.filterMap Effect.frame?
def replies (turn : Turn β) : List (PortId × ReplyValue β) := turn.effects.filterMap Effect.reply?
def watched (turn : Turn β) : List ActorId := turn.effects.filterMap Effect.watched?
def spawned (turn : Turn β) : List (RemoteActorId × Msg β) := turn.effects.filterMap Effect.spawned?
def stopped (turn : Turn β) : List ActorId := turn.effects.filterMap Effect.stopped?

end Turn

/-- The ids of this side that a value on a reply port hands out. -/
def ReplyValue.minted : ReplyValue β → List RemoteActorId
  | .published id => [id]
  | .publishedNamed (some id) => [id]
  | _ => []

/-- The ids of this side that a frame hands out. -/
def CrossPortalMessage.minted : CrossPortalMessage β → List RemoteActorId
  | .responseActorByName _ (.ok id) => [id]
  | .responseActorById _ (.ok id) => [id]
  | .actorExited id => [id]
  | _ => []

/-- The ids that a turn mints. -/
def Turn.minted (turn : Turn β) : List RemoteActorId :=
  turn.frames.flatMap CrossPortalMessage.minted ++ turn.replies.flatMap (ReplyValue.minted ·.2)

/-! ## The two ways to end -/

section

variable (env : HandleEnv) (state : PortalActorState) (effects : List (Effect β)) (port : PortId)
  (value : ReplyValue β) (msg : CrossPortalMessage β)

@[simp] theorem replying_state : (replying env state effects port value).state = state := by
  unfold replying; split <;> rfl

@[simp] theorem sending_state : (sending env state effects msg).state = state := by
  unfold sending; split <;> rfl

theorem replying_of_alive (h : env.alive port = true) :
    replying env state effects port value = { state, effects := effects ++ [.reply port value] } :=
  if_pos h

theorem replying_of_dropped (h : env.alive port = false) :
    replying env state effects port value = { state, effects, outcome := .err .reply } := by
  rw [replying, h]; rfl

@[simp] theorem replying_effects : (replying env state effects port value).effects =
    effects ++ if env.alive port then [.reply port value] else [] := by
  unfold replying; split <;> simp

@[simp] theorem sending_effects : (sending env state effects msg).effects =
    effects ++ if env.sink = .refused then [] else [.send msg] := by
  unfold sending; split <;> simp_all

@[simp] theorem watched_nil (outcome : Outcome β) :
    ({ state, effects := [], outcome } : Turn β).watched = [] := rfl

@[simp] theorem watched_replying :
    (replying env state effects port value).watched = effects.filterMap Effect.watched? := by
  rw [Turn.watched, replying_effects, List.filterMap_append]
  split <;> simp [Effect.watched?]

@[simp] theorem watched_sending :
    (sending env state effects msg).watched = effects.filterMap Effect.watched? := by
  rw [Turn.watched, sending_effects, List.filterMap_append]
  split <;> simp [Effect.watched?]

@[simp] theorem replies_replying : (replying env state effects port value).replies =
    effects.filterMap Effect.reply? ++ if env.alive port then [(port, value)] else [] := by
  rw [Turn.replies, replying_effects, List.filterMap_append]
  split <;> simp [Effect.reply?]

@[simp] theorem replies_sending :
    (sending env state effects msg).replies = effects.filterMap Effect.reply? := by
  rw [Turn.replies, sending_effects, List.filterMap_append]
  split <;> simp [Effect.reply?]

@[simp] theorem spawned_replying :
    (replying env state effects port value).spawned = effects.filterMap Effect.spawned? := by
  rw [Turn.spawned, replying_effects, List.filterMap_append]
  split <;> simp [Effect.spawned?]

@[simp] theorem spawned_sending :
    (sending env state effects msg).spawned = effects.filterMap Effect.spawned? := by
  rw [Turn.spawned, sending_effects, List.filterMap_append]
  split <;> simp [Effect.spawned?]

theorem replying_outcome : (replying env state effects port value).outcome = .ok ∨
    (replying env state effects port value).outcome = .err .reply := by
  unfold replying; split <;> simp

theorem sending_outcome : (sending env state effects msg).outcome = .ok ∧ env.sink = .flushed ∨
    (sending env state effects msg).outcome = .err .sender := by
  unfold sending; split <;> simp_all

end

/-! ## Publishing -/

/-- What publishing can do to the registry, with the actors that are watched from then on. -/
inductive Publishes (uuid : OpaqueActorId) (published : HashMap OpaqueActorId ActorId) :
    HashMap OpaqueActorId ActorId → List ActorId → Prop where
  | known : Publishes uuid published published []
  | new (actor : ActorId) (hnew : ∀ id, published.lookup id ≠ some actor) :
      Publishes uuid published (published.insert uuid actor) [actor]

section

variable (env : HandleEnv) (published : HashMap OpaqueActorId ActorId) (actor : ActorId)

theorem publishActor_publishes : Publishes env.uuid published
    (publishActor (β := β) env published actor).publishedActors
    ((publishActor (β := β) env published actor).effects.filterMap Effect.watched?) := by
  fun_cases publishActor (β := β) env published actor with
  | case1 id hfind => exact .known
  | case2 hfind =>
    refine .new actor fun id hlook => ?_
    have := HashMap.findKey?_eq_none.mp hfind id actor hlook
    simp at this

/-- The id that is answered is one the actor is published under. -/
theorem lookup_publishActor : (publishActor (β := β) env published actor).publishedActors.lookup
    (publishActor (β := β) env published actor).id = some actor := by
  fun_cases publishActor (β := β) env published actor with
  | case1 id hfind =>
    obtain ⟨w, hlook, hw⟩ := HashMap.findKey?_eq_some hfind
    rwa [beq_iff_eq.mp hw] at hlook
  | case2 hfind => exact AList.lookup_insert _

theorem lookup_publishActor_of_published (huuid : published.lookup env.uuid = none) {id : OpaqueActorId}
    {b : ActorId} (h : published.lookup id = some b) :
    (publishActor (β := β) env published actor).publishedActors.lookup id = some b := by
  fun_cases publishActor (β := β) env published actor with
  | case1 => exact h
  | case2 =>
    have hne : id ≠ env.uuid := by
      rintro rfl
      rw [huuid] at h
      cases h
    rw [AList.lookup_insert_ne hne, h]

/-- An actor that is published already keeps its id. -/
theorem publishActor_id_of_published (hdistinct : ∀ id id' b, published.lookup id = some b →
    published.lookup id' = some b → id = id') {id : OpaqueActorId} (h : published.lookup id = some actor) :
    (publishActor (β := β) env published actor).id = id := by
  fun_cases publishActor (β := β) env published actor with
  | case1 id' hfind =>
    obtain ⟨w, hlook, hw⟩ := HashMap.findKey?_eq_some hfind
    rw [beq_iff_eq.mp hw] at hlook
    exact hdistinct id' id actor hlook h
  | case2 hfind =>
    have := HashMap.findKey?_eq_none.mp hfind id actor h
    simp at this

/-- Nothing else is published. -/
theorem of_lookup_publishActor {id : OpaqueActorId} {b : ActorId}
    (h : (publishActor (β := β) env published actor).publishedActors.lookup id = some b) :
    published.lookup id = some b ∨ b = actor := by
  revert h
  fun_cases publishActor (β := β) env published actor with
  | case1 => exact .inl
  | case2 =>
    rw [HashMap.lookup_insert_eq]
    split
    · exact fun h => .inr (Option.some.inj h).symm
    · exact .inl

/-- Publishing only watches. -/
theorem publishActor_effects {effect : Effect β} (h : effect ∈ (publishActor env published actor).effects) :
    effect = .watch actor := by
  revert h
  fun_cases publishActor (β := β) env published actor <;> simp

/-- Publishing writes nothing, answers nothing and spawns nothing. -/
@[simp] theorem frames_publishActor :
    (publishActor (β := β) env published actor).effects.filterMap Effect.frame? = [] :=
  List.filterMap_eq_nil_iff.mpr fun _ h => publishActor_effects _ _ _ h ▸ rfl

@[simp] theorem replies_publishActor :
    (publishActor (β := β) env published actor).effects.filterMap Effect.reply? = [] :=
  List.filterMap_eq_nil_iff.mpr fun _ h => publishActor_effects _ _ _ h ▸ rfl

@[simp] theorem spawned_publishActor :
    (publishActor (β := β) env published actor).effects.filterMap Effect.spawned? = [] :=
  List.filterMap_eq_nil_iff.mpr fun _ h => publishActor_effects _ _ _ h ▸ rfl

end

/-! ## Phase, arguments and registries -/

section

variable (env : HandleEnv) (state : PortalActorState)

/-- The phase changes with the handshake only, and the arguments never. -/
theorem handleCrossPortalMessage_phase (channel : ConduitID) (msg : CrossPortalMessage β) :
    (handleCrossPortalMessage env state channel msg).state.channelState = state.channelState ∧
    (handleCrossPortalMessage env state channel msg).state.args = state.args := by
  fun_cases handleCrossPortalMessage env state channel msg
  · fun_cases handleRequestActorByName <;> simp
  · fun_cases handleResponse <;> simp
  · fun_cases handleResponse <;> simp
  · fun_cases handleSendMessage <;> simp
  · fun_cases handleActorExited <;> simp

/-- The one message that changes the phase. -/
def Opens (state : PortalActorState) (m : PortalActorMessage β) (phase : PortalConduitState) : Prop :=
  ∃ own remote, state.channelState = .opening own ∧ m = .handshake (some remote) ∧
    phase = .opened (channelId own.channelIdContribution remote.channelIdContribution)

theorem handle_channelState (m : PortalActorMessage β) :
    (handle env state m).state.channelState = state.channelState ∨
    Opens state m (handle env state m).state.channelState := by
  fun_cases handle env state m
  · fun_cases handleHandshake with
    | case1 own hopening => exact .inl rfl
    | case2 own hopening remote id => exact .inr ⟨own, remote, hopening, rfl, rfl⟩
    | case3 _ hopened => exact .inl rfl
  · refine .inl ?_
    fun_cases handleContent
    · rfl
    · rfl
    · exact (handleCrossPortalMessage_phase env state _ _).1
  · exact .inl rfl
  · refine .inl ?_; fun_cases handleWaitForHandshake <;> simp
  · refine .inl ?_; fun_cases handlePublishNamedActor <;> simp +zetaDelta
  · refine .inl ?_; fun_cases handlePublishActor <;> simp
  · refine .inl ?_; fun_cases handleQueryNamedRemoteActor <;> simp
  · refine .inl ?_; fun_cases handleImmaterializeMessage <;> rfl
  · refine .inl ?_; fun_cases handleTransmitMessage <;> simp
  · refine .inl ?_; fun_cases handleRegisterProxyForRemoteActor <;> rfl
  · refine .inl ?_; fun_cases handleLocalActorExited <;> simp

theorem handle_args (m : PortalActorMessage β) : (handle env state m).state.args = state.args := by
  fun_cases handle env state m
  · fun_cases handleHandshake <;> rfl
  · fun_cases handleContent
    · rfl
    · rfl
    · exact (handleCrossPortalMessage_phase env state _ _).2
  · rfl
  · fun_cases handleWaitForHandshake <;> simp
  · fun_cases handlePublishNamedActor <;> simp +zetaDelta
  · fun_cases handlePublishActor <;> simp
  · fun_cases handleQueryNamedRemoteActor <;> simp
  · fun_cases handleImmaterializeMessage <;> rfl
  · fun_cases handleTransmitMessage <;> simp
  · fun_cases handleRegisterProxyForRemoteActor <;> rfl
  · fun_cases handleLocalActorExited <;> simp

/-- Whatever the message, the registry grows by publishing, and what is new is watched. -/
theorem handle_published (m : PortalActorMessage β) : Publishes env.uuid state.publishedActors
    (handle env state m).state.publishedActors (handle env state m).watched := by
  have hpub := publishActor_publishes (β := β) env state.publishedActors
  have hknown : Publishes env.uuid state.publishedActors state.publishedActors [] := .known
  fun_cases handle env state m
  · fun_cases handleHandshake
    · exact hknown
    · simpa [Turn.watched, Effect.watched?, Function.comp_def, List.filterMap_map] using hknown
    · exact hknown
  · fun_cases handleContent
    · exact hknown
    · exact hknown
    · fun_cases handleCrossPortalMessage
      · fun_cases handleRequestActorByName
        · simpa using hknown
        · simpa using hknown
        · simpa using hknown
        · simpa using hpub _
      · fun_cases handleResponse <;> simpa using hknown
      · fun_cases handleResponse <;> simpa using hknown
      · fun_cases handleSendMessage <;> exact hknown
      · fun_cases handleActorExited <;> exact hknown
  · exact hknown
  · fun_cases handleWaitForHandshake
    · exact hknown
    · simpa using hknown
  · fun_cases handlePublishNamedActor
    · exact hpub _
    · simpa using hpub _
    · simpa using hpub _
  · fun_cases handlePublishActor
    · exact hpub _
    · exact hknown
    · simpa using hpub _
  · fun_cases handleQueryNamedRemoteActor
    · exact hknown
    · simpa using hknown
  · fun_cases handleImmaterializeMessage <;> exact hknown
  · fun_cases handleTransmitMessage
    · exact hknown
    · simpa using hknown
  · fun_cases handleRegisterProxyForRemoteActor <;> exact hknown
  · fun_cases handleLocalActorExited
    · exact hknown
    · exact hknown
    · simpa using hknown

/-- The actor that a portal publishes when it handles a message, given the answer of the nexus. -/
def PortalActorMessage.publishes (state : PortalActorState) (nexus : Option (Option ActorId)) :
    PortalActorMessage β → Option ActorId
  | .publishNamedActor _ actor _ => some actor
  | .publishActor actor _ => some actor
  | .content (some (.requestActorByName _ name)) =>
    if state.namedActors.lookup name = none then nexus.join else none
  | _ => none

/-- What is in the registry after a turn was there before, or the message asked for it. -/
theorem of_lookup_published {m : PortalActorMessage β} {id : OpaqueActorId} {actor : ActorId}
    (h : (handle env state m).state.publishedActors.lookup id = some actor) :
    state.publishedActors.lookup id = some actor ∨ m.publishes state env.nexus = some actor := by
  revert h
  fun_cases handle env state m
  · fun_cases handleHandshake <;> exact .inl
  · fun_cases handleContent
    · exact .inl
    · exact .inl
    · fun_cases handleCrossPortalMessage
      · fun_cases handleRequestActorByName with
        | case1 => rw [sending_state]; exact .inl
        | case2 => exact .inl
        | case3 => rw [sending_state]; exact .inl
        | case4 hname b hnexus publication =>
          rw [sending_state]
          intro h
          refine (of_lookup_publishActor env state.publishedActors b h).imp_right fun hactor => ?_
          simp [PortalActorMessage.publishes, hname, hnexus, hactor]
      · fun_cases handleResponse
        · rw [replying_state]; exact .inl
        · exact .inl
      · fun_cases handleResponse
        · rw [replying_state]; exact .inl
        · exact .inl
      · fun_cases handleSendMessage <;> exact .inl
      · fun_cases handleActorExited <;> exact .inl
  · exact .inl
  · fun_cases handleWaitForHandshake
    · exact .inl
    · rw [replying_state]; exact .inl
  · have hpub (b : ActorId)
        (h : (publishActor (β := β) env state.publishedActors b).publishedActors.lookup id = some actor) :
        state.publishedActors.lookup id = some actor ∨ some b = some actor :=
      (of_lookup_publishActor env state.publishedActors b h).imp_right fun hactor => by rw [hactor]
    fun_cases handlePublishNamedActor
    · exact hpub _
    · rw [replying_state]; exact hpub _
    · rw [replying_state]; exact hpub _
  · have hpub (b : ActorId)
        (h : (publishActor (β := β) env state.publishedActors b).publishedActors.lookup id = some actor) :
        state.publishedActors.lookup id = some actor ∨ some b = some actor :=
      (of_lookup_publishActor env state.publishedActors b h).imp_right fun hactor => by rw [hactor]
    fun_cases handlePublishActor
    · exact hpub _
    · exact .inl
    · rw [replying_state]; exact hpub _
  · fun_cases handleQueryNamedRemoteActor
    · exact .inl
    · rw [sending_state]; exact .inl
  · fun_cases handleImmaterializeMessage <;> exact .inl
  · fun_cases handleTransmitMessage
    · exact .inl
    · rw [sending_state]; exact .inl
  · fun_cases handleRegisterProxyForRemoteActor <;> exact .inl
  · fun_cases handleLocalActorExited
    · exact .inl
    · exact .inl
    · rw [sending_state]; exact .inl

/-- What is published stays published. -/
theorem lookup_published (huuid : state.publishedActors.lookup env.uuid = none) (m : PortalActorMessage β)
    {id : OpaqueActorId} {actor : ActorId} (h : state.publishedActors.lookup id = some actor) :
    (handle env state m).state.publishedActors.lookup id = some actor := by
  have hpub := handle_published env state m
  generalize (handle env state m).state.publishedActors = after at hpub ⊢
  generalize (handle env state m).watched = watched at hpub
  cases hpub with
  | known => exact h
  | new b hnew =>
    have hne : id ≠ env.uuid := by
      rintro rfl
      rw [huuid] at h
      cases h
    rw [AList.lookup_insert_ne hne, h]

/-- A name is given by its publication only, to the id that the actor is published under. -/
theorem handle_names (m : PortalActorMessage β) :
    ((∀ name actor reply, m ≠ .publishNamedActor name actor reply) ∧
      (handle env state m).state.namedActors = state.namedActors) ∨
    ∃ name actor reply id, m = .publishNamedActor name actor reply ∧
      (handle env state m).state.namedActors = state.namedActors.insert name id ∧
      (handle env state m).state.publishedActors.lookup id = some actor := by
  by_cases hm : ∃ name actor reply, m = .publishNamedActor name actor reply
  · obtain ⟨name, actor, reply, rfl⟩ := hm
    refine .inr ⟨name, actor, reply, (publishActor (β := β) env state.publishedActors actor).id, rfl, ?_⟩
    have hlook := lookup_publishActor (β := β) env state.publishedActors actor
    show (handlePublishNamedActor env state name actor reply).state.namedActors = _ ∧
      (handlePublishNamedActor env state name actor reply).state.publishedActors.lookup _ = _
    fun_cases handlePublishNamedActor env state name actor reply
    · exact ⟨rfl, hlook⟩
    · rw [replying_state]; exact ⟨rfl, hlook⟩
    · rw [replying_state]; exact ⟨rfl, hlook⟩
  · have hne : ∀ name actor reply, m ≠ .publishNamedActor name actor reply :=
      fun name actor reply heq => hm ⟨name, actor, reply, heq⟩
    refine .inl ⟨hne, ?_⟩
    fun_cases handle env state m
    · fun_cases handleHandshake <;> rfl
    · fun_cases handleContent
      · rfl
      · rfl
      · fun_cases handleCrossPortalMessage
        · fun_cases handleRequestActorByName <;> simp
        · fun_cases handleResponse <;> simp
        · fun_cases handleResponse <;> simp
        · fun_cases handleSendMessage <;> rfl
        · fun_cases handleActorExited <;> rfl
    · rfl
    · fun_cases handleWaitForHandshake <;> simp
    · exact absurd rfl (hne _ _ _)
    · fun_cases handlePublishActor <;> simp
    · fun_cases handleQueryNamedRemoteActor <;> simp
    · fun_cases handleImmaterializeMessage <;> rfl
    · fun_cases handleTransmitMessage <;> simp
    · fun_cases handleRegisterProxyForRemoteActor <;> rfl
    · fun_cases handleLocalActorExited <;> simp

/-- The proxies change with their registration and with the exit of what they stand for. -/
theorem handle_proxies (m : PortalActorMessage β)
    (hreg : ∀ id actor, m ≠ .registerProxyForRemoteActor id actor)
    (hexit : ∀ id, m ≠ .content (some (.actorExited id))) :
    (handle env state m).state.proxiesForRemoteActors = state.proxiesForRemoteActors := by
  fun_cases handle env state m
  · fun_cases handleHandshake <;> rfl
  · fun_cases handleContent
    · rfl
    · rfl
    · fun_cases handleCrossPortalMessage
      · fun_cases handleRequestActorByName <;> simp
      · fun_cases handleResponse <;> simp
      · fun_cases handleResponse <;> simp
      · fun_cases handleSendMessage <;> rfl
      · exact absurd rfl (hexit _)
  · rfl
  · fun_cases handleWaitForHandshake <;> simp
  · fun_cases handlePublishNamedActor <;> simp +zetaDelta
  · fun_cases handlePublishActor <;> simp
  · fun_cases handleQueryNamedRemoteActor <;> simp
  · fun_cases handleImmaterializeMessage <;> rfl
  · fun_cases handleTransmitMessage <;> simp
  · exact absurd rfl (hreg _ _)
  · fun_cases handleLocalActorExited <;> simp

/-- The slot of a remote id changes with that id only. -/
theorem lookup_proxies_of_ne (m : PortalActorMessage β) {r : RemoteActorId}
    (hreg : ∀ actor, m ≠ .registerProxyForRemoteActor r actor) (hexit : m ≠ .content (some (.actorExited r))) :
    (handle env state m).state.proxiesForRemoteActors.lookup r = state.proxiesForRemoteActors.lookup r := by
  by_cases hreg' : ∃ id actor, m = .registerProxyForRemoteActor id actor
  · obtain ⟨id, actor, rfl⟩ := hreg'
    have hne : r ≠ id := by rintro rfl; exact hreg actor rfl
    show (handleRegisterProxyForRemoteActor (β := β) state id actor).state.proxiesForRemoteActors.lookup r = _
    fun_cases handleRegisterProxyForRemoteActor (β := β) state id actor
    · rfl
    · exact AList.lookup_insert_ne hne
  · by_cases hexit' : ∃ id, m = .content (some (.actorExited id))
    · obtain ⟨id, rfl⟩ := hexit'
      have hne : r ≠ id := by rintro rfl; exact hexit rfl
      show (handleContent env state (some (.actorExited (β := β) id))).state.proxiesForRemoteActors.lookup r = _
      unfold handleContent
      split
      · rfl
      · show (handleActorExited (β := β) state id).state.proxiesForRemoteActors.lookup r = _
        fun_cases handleActorExited (β := β) state id
        · exact AList.lookup_erase_ne hne
        · rfl
    · rw [handle_proxies env state m (fun id actor heq => hreg' ⟨id, actor, heq⟩)
        fun id heq => hexit' ⟨id, heq⟩]

theorem lookup_proxies_register {channel : ConduitID} (hopen : state.channelState = .opened channel)
    (r : RemoteActorId) (actor : ActorId) :
    (handle (β := β) env state (.registerProxyForRemoteActor r actor)).state.proxiesForRemoteActors.lookup r =
      some actor := by
  simp only [handle, handleRegisterProxyForRemoteActor, hopen]
  exact AList.lookup_insert _

/-- The exit of a remote actor empties its slot, and stops the proxy that was in it. -/
theorem lookup_proxies_exited {channel : ConduitID} (hopen : state.channelState = .opened channel)
    (r : RemoteActorId) :
    (handle (β := β) env state (.content (some (.actorExited r)))).state.proxiesForRemoteActors.lookup r = none ∧
    ∀ actor, state.proxiesForRemoteActors.lookup r = some actor →
      actor ∈ (handle (β := β) env state (.content (some (.actorExited r)))).stopped := by
  simp only [handle, handleContent, hopen, handleCrossPortalMessage]
  fun_cases handleActorExited (β := β) state r with
  | case1 actor hlook =>
    refine ⟨AList.lookup_erase _ _, fun b hb => ?_⟩
    rw [hlook] at hb
    cases hb
    exact List.mem_singleton_self _
  | case2 hlook =>
    refine ⟨hlook, fun b hb => ?_⟩
    rw [hlook] at hb
    cases hb

end

/-! ## Where an effect comes from -/

/-- The messages and the states an effect of a turn can come from. -/
inductive Causes (env : HandleEnv) (state after : PortalActorState) :
    PortalActorMessage β → Effect β → Prop where
  | waiter (text : Option Introduction) (port : PortId) :
      Causes env state after (.handshake text) (.reply port .opened)
  | opened (port : PortId) : Causes env state after (.waitForHandshake port) (.reply port .opened)
  | resolved (msg : CrossPortalMessage β) (id : CrossPortalMessageId) (result : Resolution)
      (port : PortId) (hmsg : msg = .responseActorByName id result ∨ msg = .responseActorById id result)
      (hlook : state.openRequests.lookup id = some port) :
      Causes env state after (.content (some msg)) (.reply port (.resolved result))
  | published (channel : ConduitID) (actor : ActorId) (id : OpaqueActorId) (port : PortId)
      (hopen : state.channelState = .opened channel) (hid : after.publishedActors.lookup id = some actor) :
      Causes env state after (.publishActor actor (some port))
        (.reply port (.published (state.mint channel id)))
  | publishedNamed (channel : ConduitID) (name : String) (actor : ActorId) (id : OpaqueActorId)
      (port : PortId) (hopen : state.channelState = .opened channel)
      (hid : after.publishedActors.lookup id = some actor) :
      Causes env state after (.publishNamedActor name actor (some port))
        (.reply port (.publishedNamed (some (state.mint channel id))))
  | unnamed (name : String) (actor : ActorId) (port : PortId) :
      Causes env state after (.publishNamedActor name actor (some port)) (.reply port (.publishedNamed none))
  | watch (m : PortalActorMessage β) (actor : ActorId) : Causes env state after m (.watch actor)
  | named (channel : ConduitID) (id : CrossPortalMessageId) (name : String) (opaqueId : OpaqueActorId)
      (hopen : state.channelState = .opened channel) (hname : state.namedActors.lookup name = some opaqueId) :
      Causes env state after (.content (some (.requestActorByName id name)))
        (.send (.responseActorByName id (.ok (state.mint channel opaqueId))))
  | fetched (channel : ConduitID) (id : CrossPortalMessageId) (name : String) (opaqueId : OpaqueActorId)
      (actor : ActorId) (hopen : state.channelState = .opened channel)
      (hname : state.namedActors.lookup name = none) (hnexus : env.nexus = some (some actor))
      (hid : after.publishedActors.lookup opaqueId = some actor) :
      Causes env state after (.content (some (.requestActorByName id name)))
        (.send (.responseActorByName id (.ok (state.mint channel opaqueId))))
  | notFound (channel : ConduitID) (id : CrossPortalMessageId) (name : String)
      (hopen : state.channelState = .opened channel) (hname : state.namedActors.lookup name = none)
      (hnexus : env.nexus = some none) :
      Causes env state after (.content (some (.requestActorByName id name)))
        (.send (.responseActorByName id (.err .actorNotFound)))
  | stop (channel : ConduitID) (id : RemoteActorId) (actor : ActorId)
      (hopen : state.channelState = .opened channel)
      (hlook : state.proxiesForRemoteActors.lookup id = some actor) :
      Causes env state after (.content (some (.actorExited id))) (.stop actor)
  | query (channel : ConduitID) (name : String) (port : PortId)
      (hopen : state.channelState = .opened channel) :
      Causes env state after (.queryNamedRemoteActor name port)
        (.send (.requestActorByName state.nextRequestId name))
  | spawn (channel : ConduitID) (target : RemoteActorId) (msg : Msg β)
      (hopen : state.channelState = .opened channel) :
      Causes env state after (.immaterializeMessage target msg) (.spawn target msg)
  | transmit (channel : ConduitID) (target : RemoteActorId) (bytes : Payload β)
      (hopen : state.channelState = .opened channel) :
      Causes env state after (.transmitMessage target bytes) (.send (.sendMessage target bytes))
  | exit (channel : ConduitID) (actor : ActorId) (id : OpaqueActorId)
      (hopen : state.channelState = .opened channel) (hid : state.publishedActors.lookup id = some actor) :
      Causes env state after (.localActorExited actor) (.send (.actorExited (state.mint channel id)))

section

variable {env : HandleEnv} {state : PortalActorState} {effect : Effect β}

theorem mem_replying {effects : List (Effect β)} {port : PortId} {value : ReplyValue β}
    (h : effect ∈ (replying env state effects port value).effects) :
    effect ∈ effects ∨ effect = .reply port value := by
  rw [replying_effects, List.mem_append] at h
  refine h.imp id fun h => ?_
  split at h
  · exact List.mem_singleton.mp h
  · cases h

theorem mem_sending {effects : List (Effect β)} {msg : CrossPortalMessage β}
    (h : effect ∈ (sending env state effects msg).effects) : effect ∈ effects ∨ effect = .send msg := by
  rw [sending_effects, List.mem_append] at h
  refine h.imp id fun h => ?_
  split at h
  · cases h
  · exact List.mem_singleton.mp h

theorem mem_nil_or {P : Prop} (h : effect ∈ ([] : List (Effect β)) ∨ P) : P :=
  h.resolve_left List.not_mem_nil

theorem handleCrossPortalMessage_causes {channel : ConduitID} {msg : CrossPortalMessage β}
    (hopen : state.channelState = .opened channel)
    (h : effect ∈ (handleCrossPortalMessage env state channel msg).effects) :
    Causes env state (handleCrossPortalMessage env state channel msg).state (.content (some msg)) effect := by
  revert h
  fun_cases handleCrossPortalMessage env state channel msg
  · fun_cases handleRequestActorByName with
    | case1 opaqueId hname =>
      intro h
      obtain rfl := mem_nil_or (mem_sending h)
      exact .named _ _ _ _ hopen hname
    | case2 hname hnexus => rintro ⟨⟩
    | case3 hname hnexus =>
      intro h
      obtain rfl := mem_nil_or (mem_sending h)
      exact .notFound _ _ _ hopen hname hnexus
    | case4 hname actor hnexus publication =>
      intro h
      obtain h | rfl := mem_sending h
      · obtain rfl := publishActor_effects _ _ _ h
        exact .watch _ _
      · refine .fetched _ _ _ _ actor hopen hname hnexus ?_
        rw [sending_state]
        exact lookup_publishActor env state.publishedActors actor
  · fun_cases handleResponse with
    | case1 port hlook =>
      intro h
      obtain rfl := mem_nil_or (mem_replying h)
      exact .resolved _ _ _ _ (.inl rfl) hlook
    | case2 => rintro ⟨⟩
  · fun_cases handleResponse with
    | case1 port hlook =>
      intro h
      obtain rfl := mem_nil_or (mem_replying h)
      exact .resolved _ _ _ _ (.inr rfl) hlook
    | case2 => rintro ⟨⟩
  · fun_cases handleSendMessage <;> rintro ⟨⟩
  · fun_cases handleActorExited with
    | case1 actor hlook =>
      intro h
      obtain rfl := List.mem_singleton.mp h
      exact .stop _ _ _ hopen hlook
    | case2 => rintro ⟨⟩

/-- **Every effect of a turn has one of these causes.** -/
theorem handle_causes {m : PortalActorMessage β} (h : effect ∈ (handle env state m).effects) :
    Causes env state (handle env state m).state m effect := by
  revert h
  fun_cases handle env state m
  · fun_cases handleHandshake with
    | case1 => rintro ⟨⟩
    | case2 own hopening remote id =>
      intro h
      obtain ⟨port, -, rfl⟩ := List.mem_map.mp h
      exact .waiter _ _
    | case3 => rintro ⟨⟩
  · fun_cases handleContent with
    | case1 => rintro ⟨⟩
    | case2 => rintro ⟨⟩
    | case3 channel hopen msg => exact handleCrossPortalMessage_causes hopen
  · rintro ⟨⟩
  · fun_cases handleWaitForHandshake with
    | case1 => rintro ⟨⟩
    | case2 channel hopen =>
      intro h
      obtain rfl := mem_nil_or (mem_replying h)
      exact .opened _
  · fun_cases handlePublishNamedActor with
    | case1 =>
      intro h
      obtain rfl := publishActor_effects _ _ _ h
      exact .watch _ _
    | case2 publication state' rpc channel hopen =>
      intro h
      obtain h | rfl := mem_replying h
      · obtain rfl := publishActor_effects _ _ _ h
        exact .watch _ _
      · refine .publishedNamed _ _ _ _ _ hopen ?_
        rw [replying_state]
        exact lookup_publishActor env state.publishedActors _
    | case3 publication state' rpc own hopening =>
      intro h
      obtain h | rfl := mem_replying h
      · obtain rfl := publishActor_effects _ _ _ h
        exact .watch _ _
      · exact .unnamed _ _ _
  · fun_cases handlePublishActor with
    | case1 =>
      intro h
      obtain rfl := publishActor_effects _ _ _ h
      exact .watch _ _
    | case2 => rintro ⟨⟩
    | case3 rpc channel hopen publication =>
      intro h
      obtain h | rfl := mem_replying h
      · obtain rfl := publishActor_effects _ _ _ h
        exact .watch _ _
      · refine .published _ _ _ _ hopen ?_
        rw [replying_state]
        exact lookup_publishActor env state.publishedActors _
  · fun_cases handleQueryNamedRemoteActor with
    | case1 => rintro ⟨⟩
    | case2 channel hopen requestId =>
      intro h
      obtain rfl := mem_nil_or (mem_sending h)
      exact .query _ _ _ hopen
  · fun_cases handleImmaterializeMessage with
    | case1 => rintro ⟨⟩
    | case2 channel hopen =>
      intro h
      obtain rfl := List.mem_singleton.mp h
      exact .spawn _ _ _ hopen
  · fun_cases handleTransmitMessage with
    | case1 => rintro ⟨⟩
    | case2 channel hopen =>
      intro h
      obtain rfl := mem_nil_or (mem_sending h)
      exact .transmit _ _ _ hopen
  · fun_cases handleRegisterProxyForRemoteActor <;> rintro ⟨⟩
  · fun_cases handleLocalActorExited with
    | case1 => rintro ⟨⟩
    | case2 => rintro ⟨⟩
    | case3 channel hopen id hfind =>
      intro h
      obtain rfl := mem_nil_or (mem_sending h)
      obtain ⟨actor, hlook, hactor⟩ := HashMap.findKey?_eq_some hfind
      rw [beq_iff_eq.mp hactor] at hlook
      exact .exit _ _ _ hopen hlook

end

section

variable {env : HandleEnv} {state after : PortalActorState} {m : PortalActorMessage β}

theorem mem_frames {turn : Turn β} {msg : CrossPortalMessage β} (h : msg ∈ turn.frames) :
    .send msg ∈ turn.effects := by
  obtain ⟨effect, hmem, heq⟩ := List.mem_filterMap.mp h
  cases effect <;> cases heq
  exact hmem

theorem mem_replies {turn : Turn β} {reply : PortId × ReplyValue β} (h : reply ∈ turn.replies) :
    .reply reply.1 reply.2 ∈ turn.effects := by
  obtain ⟨effect, hmem, heq⟩ := List.mem_filterMap.mp h
  cases effect <;> cases heq
  exact hmem

theorem Causes.minted_frame {msg : CrossPortalMessage β} {id : RemoteActorId}
    (h : Causes env state after m (.send msg)) (hid : id ∈ msg.minted) :
    ∃ channel opaqueId, state.channelState = .opened channel ∧ id = state.mint channel opaqueId := by
  cases h with
  | named channel _ _ opaqueId hopen _ => exact ⟨channel, opaqueId, hopen, List.mem_singleton.mp hid⟩
  | fetched channel _ _ opaqueId _ hopen => exact ⟨channel, opaqueId, hopen, List.mem_singleton.mp hid⟩
  | notFound => cases hid
  | query => cases hid
  | transmit => cases hid
  | exit channel _ opaqueId hopen _ => exact ⟨channel, opaqueId, hopen, List.mem_singleton.mp hid⟩

theorem Causes.minted_reply {port : PortId} {value : ReplyValue β} {id : RemoteActorId}
    (h : Causes env state after m (.reply port value)) (hid : id ∈ value.minted) :
    ∃ channel opaqueId, state.channelState = .opened channel ∧ id = state.mint channel opaqueId := by
  cases h with
  | waiter => cases hid
  | opened => cases hid
  | resolved => cases hid
  | published channel _ opaqueId _ hopen _ => exact ⟨channel, opaqueId, hopen, List.mem_singleton.mp hid⟩
  | publishedNamed channel _ _ opaqueId _ hopen _ =>
    exact ⟨channel, opaqueId, hopen, List.mem_singleton.mp hid⟩
  | unnamed => cases hid

/-- **A turn mints ids of the open channel and of this side only.** -/
theorem handle_minted {id : RemoteActorId} (h : id ∈ (handle env state m).minted) :
    ∃ channel opaqueId, state.channelState = .opened channel ∧ id = state.mint channel opaqueId := by
  obtain h | h := List.mem_append.mp h
  · obtain ⟨msg, hmsg, hid⟩ := List.mem_flatMap.mp h
    exact (handle_causes (mem_frames hmsg)).minted_frame hid
  · obtain ⟨reply, hreply, hid⟩ := List.mem_flatMap.mp h
    exact (handle_causes (mem_replies hreply)).minted_reply hid

end

/-- A turn spawns the task of the message it handles, or none. -/
theorem handle_spawned (env : HandleEnv) (state : PortalActorState) (m : PortalActorMessage β) :
    (handle env state m).spawned = [] ∨
    ∃ target msg, m = .immaterializeMessage target msg ∧ (handle env state m).spawned = [(target, msg)] := by
  have hmem {s : RemoteActorId × Msg β} (h : s ∈ (handle env state m).spawned) :
      m = .immaterializeMessage s.1 s.2 := by
    obtain ⟨effect, heffect, heq⟩ := List.mem_filterMap.mp h
    cases effect with
    | spawn target msg =>
      cases heq
      cases handle_causes heffect
      rfl
    | _ => cases heq
  by_cases hm : ∃ target msg, m = .immaterializeMessage target msg
  · obtain ⟨target, msg, rfl⟩ := hm
    show (handleImmaterializeMessage state target msg).spawned = [] ∨ _
    unfold handleImmaterializeMessage
    split
    · exact .inl rfl
    · rename_i hopen
      refine .inr ⟨target, msg, rfl, ?_⟩
      simp only [handle, handleImmaterializeMessage, hopen]
      rfl
  · refine .inl (List.eq_nil_iff_forall_not_mem.mpr fun s hs => hm ⟨s.1, s.2, hmem hs⟩)

@[simp] theorem frames_replying (env : HandleEnv) (state : PortalActorState) (effects : List (Effect β))
    (port : PortId) (value : ReplyValue β) :
    (replying env state effects port value).frames = effects.filterMap Effect.frame? := by
  rw [Turn.frames, replying_effects, List.filterMap_append]
  split <;> simp [Effect.frame?]

@[simp] theorem frames_sending (env : HandleEnv) (state : PortalActorState) (effects : List (Effect β))
    (msg : CrossPortalMessage β) : (sending env state effects msg).frames =
    effects.filterMap Effect.frame? ++ if env.sink = .refused then [] else [msg] := by
  rw [Turn.frames, sending_effects, List.filterMap_append]
  split <;> simp [Effect.frame?]

/-- A turn writes one frame at most. -/
theorem handle_frames (env : HandleEnv) (state : PortalActorState) (m : PortalActorMessage β) :
    (handle env state m).frames.length ≤ 1 := by
  have hsend {state' : PortalActorState} {effects : List (Effect β)} {msg : CrossPortalMessage β}
      (h : effects.filterMap Effect.frame? = []) : (sending env state' effects msg).frames.length ≤ 1 := by
    rw [frames_sending, h]
    split <;> simp
  have hnone {turn : Turn β} (h : turn.frames = []) : turn.frames.length ≤ 1 := by simp [h]
  fun_cases handle env state m
  · fun_cases handleHandshake <;> exact hnone (by simp [Turn.frames, Effect.frame?, Function.comp_def])
  · fun_cases handleContent
    · exact hnone rfl
    · exact hnone rfl
    · fun_cases handleCrossPortalMessage
      · fun_cases handleRequestActorByName
        · exact hsend rfl
        · exact hnone rfl
        · exact hsend rfl
        · exact hsend (frames_publishActor ..)
      · fun_cases handleResponse
        · exact hnone (frames_replying ..)
        · exact hnone rfl
      · fun_cases handleResponse
        · exact hnone (frames_replying ..)
        · exact hnone rfl
      · fun_cases handleSendMessage <;> exact hnone rfl
      · fun_cases handleActorExited <;> exact hnone rfl
  · exact hnone rfl
  · fun_cases handleWaitForHandshake
    · exact hnone rfl
    · exact hnone (frames_replying ..)
  · fun_cases handlePublishNamedActor
    · exact hnone (frames_publishActor ..)
    · exact hnone (by simp +zetaDelta)
    · exact hnone (by simp +zetaDelta)
  · fun_cases handlePublishActor
    · exact hnone (frames_publishActor ..)
    · exact hnone rfl
    · exact hnone (by simp +zetaDelta)
  · fun_cases handleQueryNamedRemoteActor
    · exact hnone rfl
    · exact hsend rfl
  · fun_cases handleImmaterializeMessage <;> exact hnone rfl
  · fun_cases handleTransmitMessage
    · exact hnone rfl
    · exact hsend rfl
  · fun_cases handleRegisterProxyForRemoteActor <;> exact hnone rfl
  · fun_cases handleLocalActorExited
    · exact hnone rfl
    · exact hnone rfl
    · exact hsend rfl

/-! ## How a turn ends -/

/-- The messages and the states the end of a turn can come from. -/
inductive Ends (state : PortalActorState) : PortalActorMessage β → Outcome β → Prop where
  | ok (m : PortalActorMessage β) : Ends state m .ok
  | err (m : PortalActorMessage β) (error : HandlerError) : Ends state m (.err error)
  | handshakeAfterHandshake (channel : ConduitID) (text : Option Introduction)
      (hopen : state.channelState = .opened channel) :
      Ends state (.handshake text) (.stop .handshakeAfterHandshake)
  | contentBeforeHandshake (own : Introduction) (data : Option (CrossPortalMessage β))
      (hopening : state.channelState = .opening own) :
      Ends state (.content data) (.stop .contentBeforeHandshake)
  | close : Ends state .close (.stop .portalClosed)
  | rematerialize (channel : ConduitID) (target : RemoteActorId) (actor : ActorId) (data : Payload β)
      (hopen : state.channelState = .opened channel)
      (hlook : state.publishedActors.lookup target.id = some actor) :
      Ends state (.content (some (.sendMessage target data))) (.rematerialize actor data)

section

variable (env : HandleEnv) (state : PortalActorState)

theorem ends_replying (m : PortalActorMessage β) (state' : PortalActorState) (effects : List (Effect β))
    (port : PortId) (value : ReplyValue β) :
    Ends state m (replying env state' effects port value).outcome := by
  obtain h | h := replying_outcome env state' effects port value
  · rw [h]; exact .ok m
  · rw [h]; exact .err m _

theorem ends_sending (m : PortalActorMessage β) (state' : PortalActorState) (effects : List (Effect β))
    (msg : CrossPortalMessage β) : Ends state m (sending env state' effects msg).outcome := by
  obtain ⟨h, -⟩ | h := sending_outcome env state' effects msg
  · rw [h]; exact .ok m
  · rw [h]; exact .err m _

theorem handleCrossPortalMessage_ends {channel : ConduitID} (msg : CrossPortalMessage β)
    (hopen : state.channelState = .opened channel) :
    Ends state (.content (some msg)) (handleCrossPortalMessage env state channel msg).outcome := by
  fun_cases handleCrossPortalMessage env state channel msg
  · fun_cases handleRequestActorByName
    · exact ends_sending ..
    · exact .err _ _
    · exact ends_sending ..
    · exact ends_sending ..
  · fun_cases handleResponse
    · exact ends_replying ..
    · exact .ok _
  · fun_cases handleResponse
    · exact ends_replying ..
    · exact .ok _
  · fun_cases handleSendMessage with
    | case1 actor hlook => exact .rematerialize _ _ _ _ hopen hlook
    | case2 => exact .ok _
  · fun_cases handleActorExited <;> exact .ok _

/-- **A turn ends in one of these ways.** -/
theorem handle_ends (m : PortalActorMessage β) : Ends state m (handle env state m).outcome := by
  fun_cases handle env state m
  · fun_cases handleHandshake with
    | case1 => exact .err _ _
    | case2 => exact .ok _
    | case3 text channel hopen => exact .handshakeAfterHandshake _ _ hopen
  · fun_cases handleContent with
    | case1 data own hopening => exact .contentBeforeHandshake _ _ hopening
    | case2 => exact .err _ _
    | case3 channel hopen msg => exact handleCrossPortalMessage_ends env state msg hopen
  · exact .close
  · fun_cases handleWaitForHandshake
    · exact .ok _
    · exact ends_replying ..
  · fun_cases handlePublishNamedActor
    · exact .ok _
    · exact ends_replying ..
    · exact ends_replying ..
  · fun_cases handlePublishActor
    · exact .ok _
    · exact .ok _
    · exact ends_replying ..
  · fun_cases handleQueryNamedRemoteActor
    · exact .ok _
    · exact ends_sending ..
  · fun_cases handleImmaterializeMessage <;> exact .ok _
  · fun_cases handleTransmitMessage
    · exact .ok _
    · exact ends_sending ..
  · fun_cases handleRegisterProxyForRemoteActor <;> exact .ok _
  · fun_cases handleLocalActorExited
    · exact .ok _
    · exact .ok _
    · exact ends_sending ..

end

end Portal
end Wormhole
