import Wormhole.Nexus.Steps
import Wormhole.Portal.Pair

/-!
# `Nexus.Abandoned` — a caller that no longer waits

Every answer but one goes through `reply.send(…)?`: a caller that has dropped its receiver makes the handler
return an error, and takes down the actor it asked. Only the waiters of the handshake are answered with
`let _ =`. The statement compares two runs from states that differ in this receiver alone.
-/

namespace Wormhole
namespace Portal

variable {β : Type}

/-- A portal in the given state answers on a port as the last thing it does for a message. -/
inductive Answers (state : PortalActorState) : PortalActorMessage β → PortId → Prop where
  | responseActorByName (channel : ConduitID) (id : CrossPortalMessageId) (response : Resolution) (port : PortId)
      (hopen : state.channelState = .opened channel) (hrequest : state.openRequests.lookup id = some port) :
      Answers state (.content (some (.responseActorByName id response))) port
  | responseActorById (channel : ConduitID) (id : CrossPortalMessageId) (response : Resolution) (port : PortId)
      (hopen : state.channelState = .opened channel) (hrequest : state.openRequests.lookup id = some port) :
      Answers state (.content (some (.responseActorById id response))) port
  | waitForHandshake (channel : ConduitID) (port : PortId) (hopen : state.channelState = .opened channel) :
      Answers state (.waitForHandshake port) port
  | publishNamedActor (name : String) (actor : ActorId) (port : PortId) :
      Answers state (.publishNamedActor name actor (some port)) port
  | publishActor (channel : ConduitID) (actor : ActorId) (port : PortId)
      (hopen : state.channelState = .opened channel) : Answers state (.publishActor actor (some port)) port

/-- Publishing does not look at receivers. -/
theorem publishActor_alive (env : HandleEnv) (alive : PortId → Bool)
    (publishedActors : HashMap OpaqueActorId ActorId) (actor : ActorId) :
    publishActor (β := β) { env with alive } publishedActors actor = publishActor env publishedActors actor := by
  unfold publishActor
  cases publishedActors.findKey? (· == actor) <;> rfl

/-- Whether a receiver is alive is looked at only when the answer is sent. -/
theorem Answers.turn {state : PortalActorState} {m : PortalActorMessage β} {port : PortId}
    (h : Answers state m port) (env : HandleEnv) : ∃ state' effects value, ∀ alive,
      handle { env with alive } state m = replying { env with alive } state' effects port value := by
  cases h with
  | responseActorByName channel id response port hopen hrequest =>
    refine ⟨{ state with openRequests := state.openRequests.erase id }, [], .resolved response, ?_⟩
    intro alive
    simp only [handle, handleContent, hopen, handleCrossPortalMessage, handleResponse, hrequest]
  | responseActorById channel id response port hopen hrequest =>
    refine ⟨{ state with openRequests := state.openRequests.erase id }, [], .resolved response, ?_⟩
    intro alive
    simp only [handle, handleContent, hopen, handleCrossPortalMessage, handleResponse, hrequest]
  | waitForHandshake channel port hopen =>
    refine ⟨state, [], .opened, ?_⟩
    intro alive
    simp only [handle, handleWaitForHandshake, hopen]
  | publishNamedActor name actor port =>
    let publication : Publication β := Portal.publishActor env state.publishedActors actor
    let state' := { state with
      publishedActors := publication.publishedActors
      namedActors := state.namedActors.insert name publication.id }
    cases hphase : state.channelState with
    | opening introduction =>
      refine ⟨state', publication.effects, .publishedNamed none, ?_⟩
      intro alive
      simp only [handle, handlePublishNamedActor, publishActor_alive, hphase, state', publication]
    | opened channel =>
      refine ⟨state', publication.effects, .publishedNamed (some (state.mint channel publication.id)), ?_⟩
      intro alive
      simp only [handle, handlePublishNamedActor, publishActor_alive, hphase, state', publication]
  | publishActor channel actor port hopen =>
    let publication : Publication β := Portal.publishActor env state.publishedActors actor
    refine ⟨{ state with publishedActors := publication.publishedActors }, publication.effects,
      .published (state.mint channel publication.id), ?_⟩
    intro alive
    simp only [handle, handlePublishActor, publishActor_alive, hopen, publication]

/-- **The two runs of a portal**: with the receiver it goes on, without it it fails. -/
theorem Node.step_abandoned {n : Node β} {uuid : OpaqueActorId} {answer : Option (Option ActorId)}
    {sink : SinkResult} {m : PortalActorMessage β} {rest : List (PortalActorMessage β)} {port : PortId}
    (hfits : n.Fits uuid answer) (hmail : n.mailbox = m :: rest) (hanswers : Answers n.state m port)
    (halive : port ∉ n.dropped) :
    ∃ n₁ n₂, Node.step (.handle uuid answer sink) n = some n₁ ∧ n₁.life = .running ∧
      (∃ value, (port, value) ∈ n₁.replies) ∧
      Node.step (.handle uuid answer sink) { n with dropped := n.dropped ++ [port] } = some n₂ ∧
      n₂.life = .failed .reply := by
  obtain ⟨state', effects, value, hturn⟩ := hanswers.turn (n.env uuid answer sink)
  have hwith : handle (n.env uuid answer sink) n.state m =
      { state := state', effects := effects ++ [.reply port value] } :=
    (hturn fun p => p ∉ n.dropped).trans (replying_of_alive _ _ _ _ _ (by simpa using halive))
  let n' := { n with dropped := n.dropped ++ [port] }
  have hwithout : handle (n'.env uuid answer sink) n'.state m =
      { state := state', effects, outcome := .err .reply } :=
    (hturn fun p => p ∉ n.dropped ++ [port]).trans (replying_of_dropped _ _ _ _ _ (by simp))
  exact ⟨_, _, Node.handle_step hfits hmail hwith, hfits.1,
    ⟨value, List.mem_append_right _ (by simp [Turn.replies, Effect.reply?])⟩,
    Node.handle_step (n := n') hfits hmail hwithout, rfl⟩

end Portal

namespace Nexus

open Portal

variable {β : Type}

/-- The nexus in the given state answers on a port as the last thing it does for a message. -/
inductive Answers (env : NexusEnv) (state : NexusActorState) : NexusActorMessage → Receiver → Prop where
  | connected (identifier : String) (reply : Receiver) (hsink : env.sink = .flushed)
      (hcallback : ∀ callback, state.onClientConnected = some callback → env.stopped callback = false) :
      Answers env state (.connected identifier reply) reply
  | getAllPortals (reply : Receiver) : Answers env state (.getAllPortals reply) reply
  | queryNamedActor (name : String) (reply : Receiver) : Answers env state (.queryNamedActor name reply) reply

theorem Answers.turn {env : NexusEnv} {state : NexusActorState} {m : NexusActorMessage} {reply : Receiver}
    (h : Answers env state m reply) : ∃ state' effects value, ∀ alive,
      handle (β := β) { env with alive } state m = replying { env with alive } state' effects reply value := by
  cases h with
  | connected identifier reply hsink hcallback =>
    cases hclient : state.onClientConnected with
    | none =>
      refine ⟨{ state with portals := state.portals.insert env.portal (identifier, env.portal) },
        [.spawnLinked env.portal (.started (env.setup identifier))], .connected env.portal, ?_⟩
      intro alive
      simp only [handle, handleConnected, Portal.preStart, hsink, hclient]
      rfl
    | some callback =>
      refine ⟨{ state with portals := state.portals.insert env.portal (identifier, env.portal) },
        [.spawnLinked env.portal (.started (env.setup identifier)),
          .sendMessage callback { identifier, actorRef := env.portal }], .connected env.portal, ?_⟩
      intro alive
      simp only [handle, handleConnected, Portal.preStart, hsink, hclient, hcallback callback hclient]
      rfl
  | getAllPortals reply => exact ⟨_, _, _, fun _ => rfl⟩
  | queryNamedActor name reply => exact ⟨_, _, _, fun _ => rfl⟩

namespace World

/-- **The two runs of the nexus.** Without the receiver it fails, and its portals are terminated. -/
theorem step_abandoned {w : World β} {draws : Draws} {m : NexusActorMessage} {rest : List NexusActorMessage}
    {reply : Receiver} (hlife : w.life = .running) (hmail : w.mailbox = m :: rest)
    (hanswers : Answers (w.env draws) w.state m reply) (halive : reply ∉ w.dropped) :
    ∃ w₁ w₂, step (.handle draws) w = some w₁ ∧ w₁.life = .running ∧
      (∃ value, (reply, value) ∈ w₁.replies) ∧
      step (.handle draws) { w with dropped := w.dropped ++ [reply] } = some w₂ ∧
      w₂.life = .failed .reply ∧ ∀ p n, w₂.node p = some n → n.life ≠ .running := by
  obtain ⟨state', effects, value, hturn⟩ := hanswers.turn (β := β)
  have hwith : handle (w.env draws) w.state m = { state := state', effects := effects ++ [.reply reply value] } :=
    (hturn fun r => r ∉ w.dropped).trans (if_pos (by simpa using halive))
  let w' := { w with dropped := w.dropped ++ [reply] }
  have hwithout : handle (w'.env draws) w'.state m = { state := state', effects, error := some .reply } :=
    (hturn fun r => r ∉ w.dropped ++ [reply]).trans (if_neg (by simp))
  refine ⟨_, _, handle_step hlife hmail hwith, hlife,
    ⟨value, List.mem_append_right _ (by simp [NexusTurn.replies])⟩,
    handle_step (w := w') hlife hmail hwithout, rfl, ?_⟩
  intro p n hn
  exact not_running_of_fail hn

end World

/-- **An abandoned caller takes down whom it asked.** In every state of a portal, and of a nexus, and for
    every message that is answered on a reply port: if the receiver is alive, the actor answers and goes on;
    if it has been dropped, and all else is the same, the handler fails, and the portal with it, or the
    nexus with all its portals. -/
theorem abandoned_caller_fails :
    (∀ (n : Node β) (uuid : OpaqueActorId) (answer : Option (Option ActorId)) (sink : SinkResult)
      (m : PortalActorMessage β) (rest : List (PortalActorMessage β)) (port : PortId), n.Fits uuid answer →
      n.mailbox = m :: rest → Portal.Answers n.state m port → port ∉ n.dropped →
      ∃ n₁ n₂, Node.step (.handle uuid answer sink) n = some n₁ ∧ n₁.life = .running ∧
        (∃ value, (port, value) ∈ n₁.replies) ∧
        Node.step (.handle uuid answer sink) { n with dropped := n.dropped ++ [port] } = some n₂ ∧
        n₂.life = .failed .reply) ∧
    (∀ (w : World β) (draws : Draws) (m : NexusActorMessage) (rest : List NexusActorMessage) (reply : Receiver),
      w.life = .running → w.mailbox = m :: rest → Answers (w.env draws) w.state m reply → reply ∉ w.dropped →
      ∃ w₁ w₂, World.step (.handle draws) w = some w₁ ∧ w₁.life = .running ∧
        (∃ value, (reply, value) ∈ w₁.replies) ∧
        World.step (.handle draws) { w with dropped := w.dropped ++ [reply] } = some w₂ ∧
        w₂.life = .failed .reply ∧ ∀ p n, w₂.node p = some n → n.life ≠ .running) :=
  ⟨fun _ _ _ _ _ _ _ hfits hmail hanswers halive => Node.step_abandoned hfits hmail hanswers halive,
    fun _ _ _ _ _ hlife hmail hanswers halive => World.step_abandoned hlife hmail hanswers halive⟩

/-- Local code waits for a portal that is open. -/
def waiting : List (Label Nat) :=
  [.recv (some (.handshake (some (twoSides .right).introduction))), .handle ⟨8⟩ none .flushed,
   .request .waitForHandshake]

def nextTurn : Draws :=
  { localId := ⟨1⟩, contribution := Vector.replicate 16 3, pick := 0, sink := .flushed }

/-- Whoever waited for a portal, or for the list of the portals, has given up before the answer. -/
theorem impatient_caller_fails :
    (Transition.exec Node.step (waiting ++ [.handle ⟨9⟩ none .flushed]) (Node.started (twoSides .left))).map
      (fun n => decide (n.life = .running ∧ n.replies = [(0, .opened)])) = some true ∧
    (Transition.exec Node.step (waiting ++ [.dropPort 0, .handle ⟨9⟩ none .flushed])
      (Node.started (twoSides .left))).map (fun n => decide (n.life = .failed .reply ∧ n.replies = [])) = some true ∧
    (Transition.exec World.step [.request .getAllPortals, .handle nextTurn] (World.initial (β := Nat) none 0)).map
      (fun w => decide (w.life = .running ∧ w.replies = [(⟨none, 0⟩, .allPortals [])])) = some true ∧
    (Transition.exec World.step [.request .getAllPortals, .dropReceiver ⟨none, 0⟩, .handle nextTurn]
      (World.initial (β := Nat) none 0)).map (fun w => decide (w.life = .failed .reply ∧ w.replies = [])) = some true := by
  decide +kernel

theorem abandoned_caller_fails_waiting :
    (∃ n n₂ : Node Nat, Transition.exec Node.step waiting (Node.started (twoSides .left)) = some n ∧
      Node.step (.handle ⟨9⟩ none .flushed) { n with dropped := n.dropped ++ [0] } = some n₂ ∧
      n₂.life = .failed .reply) ∧
    ∃ w w₂ : World Nat, Transition.exec World.step [.request .getAllPortals] (World.initial none 0) = some w ∧
      World.step (.handle nextTurn) { w with dropped := w.dropped ++ [⟨none, 0⟩] } = some w₂ ∧
      w₂.life = .failed .reply := by
  have hnode : (Transition.exec Node.step waiting (Node.started (twoSides .left))).map (fun n =>
      (decide (n.Fits ⟨9⟩ none ∧ n.mailbox = [.waitForHandshake 0] ∧ 0 ∉ n.dropped), n.state.channelState)) =
      some (true, .opened ⟨0x06060606060606060606060606060606⟩) := by
    decide +kernel
  obtain ⟨n, hn, hfacts⟩ := Option.map_eq_some_iff.mp hnode
  injection hfacts with hfacts hopen
  obtain ⟨hfits, hmail, halive⟩ := of_decide_eq_true hfacts
  obtain ⟨n₁, n₂, -, -, -, hstep, hfailed⟩ := abandoned_caller_fails.1 n ⟨9⟩ none .flushed _ [] 0 hfits hmail
    (.waitForHandshake _ 0 hopen) halive
  obtain ⟨w₁, w₂, -, -, -, hstep', hfailed', -⟩ := abandoned_caller_fails.2
    { (World.initial (β := Nat) none 0).post (.getAllPortals ⟨none, 0⟩) with nextReceiver := 1 } nextTurn
    (.getAllPortals ⟨none, 0⟩) [] ⟨none, 0⟩ rfl rfl (.getAllPortals _) (by decide)
  exact ⟨⟨n, n₂, hn, hstep, hfailed⟩, _, w₂, rfl, hstep', hfailed'⟩

end Nexus
end Wormhole
