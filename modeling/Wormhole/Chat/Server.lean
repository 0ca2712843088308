import Wormhole.Chat.AliasGen
import Wormhole.Lib.HashMap
import Wormhole.Lib.Queues
import Wormhole.Portal.Types

/-!
# `Chat.Server` — the chat server and its hubs

`chat_app/server/src/chat_server.rs` and `hub.rs`. There is one server, and a hub for each portal. A client that
connects to a hub is registered with the server under the portal, and gets an alias and a proxy; what it posts on
the proxy goes to the server under the portal again, and from there to all clients. Nobody is ever taken out of
the server's map.

Assumed of ractor: mailboxes are FIFO. The server and the hubs are `FnActor`s, which get their messages in the
order in which they were sent (`Util.FunctionActor`), and never end. A reference to a client is a proxy that its
portal has made for it. In which order the map of the clients is gone through is not known.
-/

namespace Wormhole
namespace Chat

open Portal (ActorId PortId)

/-! ## The server -/

abbrev UserAlias := String
abbrev ChatMessage := String

inductive ChatServerMessage where
  | postMessage (message : ChatMessage) (reply : PortId)
  deriving DecidableEq, Repr

inductive ChatClientMessage where
  | userConnected (userAlias : UserAlias)
  | messageReceived (userAlias : UserAlias) (message : ChatMessage)
  | disconnect
  deriving DecidableEq, Repr

/-- `chat_server::Msg`. -/
inductive Msg where
  | connect (portal client : ActorId) (rpc : PortId)
  /-- `Msg::Public` -/
  | publicMessage (sender : ActorId) (msg : ChatServerMessage)
  deriving DecidableEq, Repr

/-- The clients, under the ids of their portals. -/
structure ChatServerState where
  aliasGenerator : AliasGenerator
  clients : HashMap ActorId (ActorId × UserAlias)

/-- What the server does. -/
inductive Effect where
  | send (client : ActorId) (msg : ChatClientMessage)
  | tell (rpc : PortId) (userAlias : UserAlias)
  | acknowledge (reply : PortId)
  deriving DecidableEq, Repr

/-- The entries of a map, in the order in which its keys are gone through. -/
def inOrder (clients : HashMap ActorId (ActorId × UserAlias)) (order : List ActorId) :
    List (ActorId × ActorId × UserAlias) :=
  order.filterMap fun id => (clients.lookup id).map fun entry => (id, entry)

/-- The body of the loop of `start_chatserver_actor`; `none` is a panic of the alias generator. -/
def handle (order : List ActorId) (state : ChatServerState) : Msg → Option (ChatServerState × List Effect)
  | .publicMessage sender (.postMessage message reply) =>
    match state.clients.lookup sender with
    -- no client has this portal: the post is dropped, and its reply port
    | none => some (state, [])
    | some (_, userAlias) =>
      let sends := (inOrder state.clients order).map fun e => Effect.send e.2.1 (.messageReceived userAlias message)
      some (state, sends ++ [.acknowledge reply])
  | .connect portal client rpc =>
    match state.aliasGenerator.generateCapitalized with
    | none => none
    | some (userAlias, aliasGenerator) =>
      let clients := state.clients.insert portal (client, userAlias)
      -- the id of a portal is compared with that of a client
      let others := (inOrder clients order).filter fun e => e.1 ≠ client
      some ({ aliasGenerator, clients },
        .tell rpc userAlias :: others.map fun e => .send e.2.1 (.userConnected userAlias))

/-! ## The system -/

/-- What a hub has answered a client: the alias, and a proxy to post on. -/
structure Answer where
  client : ActorId
  reply : PortId
  userAlias : UserAlias
  proxy : ActorId
  deriving DecidableEq, Repr

/-- The server, the hubs and the proxies. The last fields record what was sent, answered and handled. -/
structure System where
  server : ChatServerState
  mailbox : List Msg
  /-- the portals that have a hub, and the mailboxes of the hubs -/
  hubs : List ActorId
  connecting : Queues ActorId (ActorId × PortId)
  /-- the hubs that await an alias for a client, on the first port, to answer on the second -/
  asking : Queues ActorId (ActorId × PortId × PortId)
  /-- the proxies with their portals, and their mailboxes -/
  proxies : List (ActorId × ActorId)
  posts : Queues ActorId ChatServerMessage
  nextActor : ActorId
  nextPort : PortId
  inbox : List (ActorId × ChatClientMessage)
  told : List (PortId × UserAlias)
  acknowledged : List PortId
  connected : List Answer
  handled : List Msg

def System.started (g : AliasGenerator) : System :=
  { server := { aliasGenerator := g, clients := ∅ }
    mailbox := [], hubs := [], connecting := [], asking := [], proxies := [], posts := []
    nextActor := 0, nextPort := 0, inbox := [], told := [], acknowledged := [], connected := [], handled := [] }

inductive Label where
  /-- a portal connects: `spawn_hub` -/
  | spawnHub
  /-- a client connects to a hub -/
  | connect (portal : ActorId)
  /-- the hub takes the next client, and asks the server -/
  | ask (portal : ActorId)
  /-- the server takes the next message -/
  | serve (order : List ActorId)
  /-- the hub gets the alias, makes a proxy, and answers -/
  | answer (portal : ActorId)
  /-- a client posts on a proxy, and the proxy sends it on -/
  | post (proxy : ActorId) (message : ChatMessage)
  | forward (proxy : ActorId)
  deriving DecidableEq, Repr

def Effect.sent? : Effect → Option (ActorId × ChatClientMessage)
  | .send client msg => some (client, msg)
  | _ => none

def Effect.told? : Effect → Option (PortId × UserAlias)
  | .tell rpc userAlias => some (rpc, userAlias)
  | _ => none

def Effect.acknowledged? : Effect → Option PortId
  | .acknowledge reply => some reply
  | _ => none

namespace System

/-- The portal that a proxy was made with. -/
def portalOf (s : System) (proxy : ActorId) : Option ActorId := (s.proxies.find? (·.1 = proxy)).map Prod.snd

/-- The server has handled a message. -/
def served (s : System) (m : Msg) (rest : List Msg) (server : ChatServerState) (effects : List Effect) : System :=
  { s with
    server, mailbox := rest
    inbox := s.inbox ++ effects.filterMap Effect.sent?
    told := s.told ++ effects.filterMap Effect.told?
    acknowledged := s.acknowledged ++ effects.filterMap Effect.acknowledged?
    handled := s.handled ++ [m] }

def step : Label → System → Option System
  | .spawnHub, s => some { s with hubs := s.hubs ++ [s.nextActor], nextActor := s.nextActor + 1 }
  | .connect portal, s =>
    if portal ∈ s.hubs then
      some { s with
        connecting := s.connecting ++ [(portal, s.nextActor, s.nextPort)]
        nextActor := s.nextActor + 1
        nextPort := s.nextPort + 1 }
    else none
  | .ask portal, s =>
    match s.asking.dequeue portal, s.connecting.dequeue portal with
    | none, some ((client, reply), rest) =>
      some { s with
        connecting := rest
        mailbox := s.mailbox ++ [.connect portal client s.nextPort]
        asking := s.asking ++ [(portal, client, s.nextPort, reply)]
        nextPort := s.nextPort + 1 }
    | _, _ => none
  | .serve order, s =>
    match s.mailbox with
    | [] => none
    | m :: rest =>
      match handle order s.server m with
      | none => none
      | some (server, effects) => if order.Perm server.clients.keys then some (s.served m rest server effects) else none
  | .answer portal, s =>
    match s.asking.dequeue portal with
    | none => none
    | some ((client, rpc, reply), rest) =>
      match s.told.find? (·.1 = rpc) with
      | none => none
      | some (_, userAlias) =>
        some { s with
          asking := rest
          proxies := s.proxies ++ [(s.nextActor, portal)]
          connected := s.connected ++ [{ client, reply, userAlias, proxy := s.nextActor }]
          nextActor := s.nextActor + 1 }
  | .post proxy message, s =>
    if (s.portalOf proxy).isSome then
      some { s with
        posts := s.posts ++ [(proxy, .postMessage message s.nextPort)]
        nextPort := s.nextPort + 1 }
    else none
  | .forward proxy, s =>
    match s.posts.dequeue proxy, s.portalOf proxy with
    | some (msg, rest), some portal =>
      some { s with posts := rest, mailbox := s.mailbox ++ [.publicMessage portal msg] }
    | _, _ => none

/-- **What a step does.** -/
inductive Moves (s : System) : Label → System → Prop where
  | spawnHub : Moves s .spawnHub { s with hubs := s.hubs ++ [s.nextActor], nextActor := s.nextActor + 1 }
  | connect (portal : ActorId) (hhub : portal ∈ s.hubs) :
      Moves s (.connect portal)
        { s with
          connecting := s.connecting ++ [(portal, s.nextActor, s.nextPort)]
          nextActor := s.nextActor + 1
          nextPort := s.nextPort + 1 }
  | ask (portal client : ActorId) (reply : PortId) (rest : Queues ActorId (ActorId × PortId))
      (hconnecting : s.connecting.dequeue portal = some ((client, reply), rest)) :
      Moves s (.ask portal)
        { s with
          connecting := rest
          mailbox := s.mailbox ++ [.connect portal client s.nextPort]
          asking := s.asking ++ [(portal, client, s.nextPort, reply)]
          nextPort := s.nextPort + 1 }
  | serve (order : List ActorId) (m : Msg) (rest : List Msg) (server : ChatServerState) (effects : List Effect)
      (hmail : s.mailbox = m :: rest) (hhandle : handle order s.server m = some (server, effects))
      (horder : order.Perm server.clients.keys) : Moves s (.serve order) (s.served m rest server effects)
  | answer (portal client : ActorId) (rpc reply : PortId) (userAlias : UserAlias)
      (rest : Queues ActorId (ActorId × PortId × PortId))
      (hasking : s.asking.dequeue portal = some ((client, rpc, reply), rest)) (htold : (rpc, userAlias) ∈ s.told) :
      Moves s (.answer portal)
        { s with
          asking := rest
          proxies := s.proxies ++ [(s.nextActor, portal)]
          connected := s.connected ++ [{ client, reply, userAlias, proxy := s.nextActor }]
          nextActor := s.nextActor + 1 }
  | post (proxy portal : ActorId) (message : ChatMessage) (hportal : s.portalOf proxy = some portal) :
      Moves s (.post proxy message)
        { s with
          posts := s.posts ++ [(proxy, .postMessage message s.nextPort)]
          nextPort := s.nextPort + 1 }
  | forward (proxy portal : ActorId) (msg : ChatServerMessage) (rest : Queues ActorId ChatServerMessage)
      (hposts : s.posts.dequeue proxy = some (msg, rest)) (hportal : s.portalOf proxy = some portal) :
      Moves s (.forward proxy) { s with posts := rest, mailbox := s.mailbox ++ [.publicMessage portal msg] }

theorem moves_of_step {l : Label} {s t : System} (h : step l s = some t) : Moves s l t := by
  cases l with
  | spawnHub =>
    cases h
    exact .spawnHub
  | connect portal =>
    simp only [step] at h
    split at h
    · cases h
      exact .connect portal ‹_›
    · cases h
  | ask portal =>
    simp only [step] at h
    split at h
    · cases h
      exact .ask portal _ _ _ ‹_›
    · cases h
  | serve order =>
    simp only [step] at h
    split at h
    · cases h
    · split at h
      · cases h
      · split at h
        · cases h
          exact .serve order _ _ _ _ ‹_› ‹_› ‹_›
        · cases h
  | answer portal =>
    simp only [step] at h
    split at h
    · cases h
    · split at h
      · cases h
      · rename_i hasking _ _ userAlias htold
        cases h
        have hmem := List.mem_of_find?_eq_some htold
        have hrpc := List.find?_some htold
        refine .answer portal _ _ _ _ _ hasking ?_
        simp only [decide_eq_true_eq] at hrpc
        rwa [hrpc] at hmem
  | post proxy message =>
    simp only [step] at h
    split at h
    · rename_i hsome
      cases h
      obtain ⟨portal, hportal⟩ := Option.isSome_iff_exists.mp hsome
      exact .post proxy portal message hportal
    · cases h
  | forward proxy =>
    simp only [step] at h
    split at h
    · cases h
      exact .forward proxy _ _ _ ‹_› ‹_›
    · cases h

end System

end Chat
end Wormhole
