import Mathlib.Data.List.TakeWhile
import Wormhole.Conduit.ReceiveLoop

/-!
# `Conduit.WebSocket` — three adapters for a WebSocket

`websocket/client/tokio_tungstenite.rs` and `websocket/server/tokio_tungstenite.rs` map the items of a
tungstenite stream; `websocket/client/ewebsock.rs` has a handler of events that writes to a channel. Each is
read by `receive_loop`. What is compared is what has reached the portal when the socket has seen some events.

Assumed of the libraries: tungstenite yields an item for each event, and ewebsock calls the handler for each;
ewebsock keeps the handler, and with it the sending end of the channel, also after `Closed` and `Error`.
-/

namespace Wormhole
namespace Conduit
namespace WebSocket

open LittleEndian

/-! ## The loop, over a stream that may still be open -/

/-- What a stream yields. -/
abbrev Item : Type := Except ConduitError ConduitMessage

/-- `receive_loop`, as far as it has got with the items that a stream has yielded. If the stream has not
    ended, the loop waits for the next one. -/
def receiveSoFar (alive : Nat → Bool) (ended : Bool) : Nat → List Item → List PortalActorMessage
  | casts, [] => if ended then castClose alive casts else []
  | casts, .ok (.handshake text) :: rest =>
    if alive casts then .handshake text :: receiveSoFar alive ended (casts + 1) rest else castClose alive casts
  | casts, .ok (.content data) :: rest =>
    if alive casts then .content data :: receiveSoFar alive ended (casts + 1) rest else castClose alive casts
  | casts, .ok (.close _) :: _ => castClose alive casts
  | casts, .error _ :: _ => castClose alive casts

/-- A stream of items, as a transport. -/
def items : ConduitSource Item where
  next
    | [] => none
    | .ok m :: rest => some (.ok m, rest)
    | .error e :: rest => some (.error (.err e), rest)
  shrinks {s m rest} h := by
    cases s with
    | nil => cases h
    | cons item s =>
      cases item with
      | ok m =>
        cases h
        exact Nat.lt_succ_self _
      | error e => cases h

/-- **At the end of the stream this is what `receive_loop` passes on.** -/
theorem receiveSoFar_ended (alive : Nat → Bool) (casts : Nat) (s : List Item) :
    receiveSoFar alive true casts s = receiveLoop items alive casts s := by
  induction s generalizing casts with
  | nil =>
    rw [receiveLoop]
    rfl
  | cons item s ih =>
    rw [receiveLoop]
    cases item with
    | error e => rfl
    | ok m =>
      cases m with
      | handshake text => exact congrArg (fun later => if alive casts then _ :: later else _) (ih (casts + 1))
      | content data => exact congrArg (fun later => if alive casts then _ :: later else _) (ih (casts + 1))
      | close reason => rfl

/-! ## The tungstenite adapters -/

/-- `tungstenite::protocol::CloseFrame`: the code as it is printed, and the reason. -/
structure CloseFrame where
  code : String
  reason : String
  deriving DecidableEq, Repr

/-- `tungstenite::protocol::Message`. -/
inductive Message where
  | text (text : String)
  | binary (data : Bytes)
  | ping (data : Bytes)
  | pong (data : Bytes)
  | close (frame : Option CloseFrame)
  | frame (data : Bytes)
  deriving DecidableEq, Repr

namespace Client

/-- What `map_ws_to_conduit` of the client makes of an element. -/
def mapElement : Except ConduitError Message → Option Item
  | .ok (.text text) => some (.ok (.handshake text))
  | .ok (.binary data) => some (.ok (.content data))
  | .ok (.close (some reason)) =>
    some (.ok (.close (some ("Close code: " ++ reason.code ++ ", reason: " ++ reason.reason))))
  | .ok (.close none) => some (.ok (.close none))
  | .ok _ => none
  | .error e => some (.error e)

def mapWsToConduit (source : List (Except ConduitError Message)) : List Item := source.filterMap mapElement

end Client

namespace Server

/-- What `map_ws_to_conduit` of the server makes of an element. -/
def mapElement : Except ConduitError Message → Option Item
  | .ok (.text text) => some (.ok (.handshake text))
  | .ok (.binary data) => some (.ok (.content data))
  | .ok (.close _) => some (.ok (.close none))
  | .ok _ => none
  | .error e => some (.error e)

def mapWsToConduit (source : List (Except ConduitError Message)) : List Item := source.filterMap mapElement

end Server

/-! ## The ewebsock adapter -/

/-- `ewebsock::WsMessage`. -/
inductive WsMessage where
  | text (text : String)
  | binary (data : Bytes)
  | unknown (text : String)
  | ping (data : Bytes)
  | pong (data : Bytes)
  deriving DecidableEq, Repr

/-- `ewebsock::WsEvent`. -/
inductive WsEvent where
  | opened
  | message (message : WsMessage)
  | error (error : String)
  | closed
  deriving DecidableEq, Repr

namespace Ewebsock

/-- The handler of `connect_to_server`: what it sends on the channel. It always goes on. -/
def handler : WsEvent → List ConduitMessage
  -- `opened_tx` is fired
  | .opened => []
  | .message (.text text) => [.handshake text]
  | .message (.binary data) => [.content data]
  | .message _ => []
  -- both are only logged
  | .error _ => []
  | .closed => []

/-- `adapt_tokio_receiver_to_Conduit`, of what the handler has sent. -/
def adaptTokioReceiverToConduit (rx : List ConduitMessage) : List Item := rx.map .ok

end Ewebsock

/-! ## A session -/

/-- What a socket sees. -/
inductive SocketEvent where
  | text (text : String)
  | binary (data : Bytes)
  | ping (data : Bytes)
  | pong (data : Bytes)
  | close (frame : Option CloseFrame)
  | error (error : ConduitError)
  deriving DecidableEq, Repr

namespace SocketEvent

/-- How tungstenite reports an event. -/
def element : SocketEvent → Except ConduitError Message
  | .text t => .ok (.text t)
  | .binary data => .ok (.binary data)
  | .ping data => .ok (.ping data)
  | .pong data => .ok (.pong data)
  | .close frame => .ok (.close frame)
  | .error e => .error e

/-- How ewebsock reports an event; `describe` is the text of an error. -/
def wsEvent (describe : ConduitError → String) : SocketEvent → WsEvent
  | .text t => .message (.text t)
  | .binary data => .message (.binary data)
  | .ping data => .message (.ping data)
  | .pong data => .message (.pong data)
  | .close _ => .closed
  | .error e => .error (describe e)

/-- The session is over. -/
def isEnd : SocketEvent → Bool
  | .close _ => true
  | .error _ => true
  | _ => false

/-- What an event means to the portal. -/
def passed? : SocketEvent → Option PortalActorMessage
  | .text t => some (.handshake t)
  | .binary data => some (.content data)
  | _ => none

end SocketEvent

/-- The text and binary messages before the first close or error, in order. -/
def messagesBefore (events : List SocketEvent) : List PortalActorMessage :=
  (events.takeWhile (!·.isEnd)).filterMap SocketEvent.passed?

/-- **What the portal should get** of a sequence of events: these, and one `Close`. -/
def sessionMessages (events : List SocketEvent) : List PortalActorMessage := messagesBefore events ++ [.close]

/-- The session is over: a close or an error has come, or the stream of tungstenite has `ended`. -/
def isOver (ended : Bool) (events : List SocketEvent) : Bool := ended || events.any SocketEvent.isEnd

/-- What a portal that runs has got from each adapter. The stream of `ewebsock` never ends. -/
def clientMessages (ended : Bool) (events : List SocketEvent) : List PortalActorMessage :=
  receiveSoFar (fun _ => true) ended 0 (Client.mapWsToConduit (events.map SocketEvent.element))

def serverMessages (ended : Bool) (events : List SocketEvent) : List PortalActorMessage :=
  receiveSoFar (fun _ => true) ended 0 (Server.mapWsToConduit (events.map SocketEvent.element))

def ewebsockMessages (describe : ConduitError → String) (events : List SocketEvent) : List PortalActorMessage :=
  receiveSoFar (fun _ => true) false 0
    (Ewebsock.adaptTokioReceiverToConduit
      ((.opened :: events.map (SocketEvent.wsEvent describe)).flatMap Ewebsock.handler))

/-! ## The tungstenite adapters -/

/-- An adapter that keeps the texts, the binary messages and the ends of a session passes on its messages, and its
    end once it is over. -/
theorem receiveSoFar_filterMap {mapElement : Except ConduitError Message → Option Item} {ended : Bool}
    (htext : ∀ text, mapElement (SocketEvent.text text).element = some (.ok (.handshake text)))
    (hbinary : ∀ data, mapElement (SocketEvent.binary data).element = some (.ok (.content data)))
    (hping : ∀ data, mapElement (SocketEvent.ping data).element = none)
    (hpong : ∀ data, mapElement (SocketEvent.pong data).element = none)
    (hclose : ∀ frame, ∃ reason, mapElement (SocketEvent.close frame).element = some (.ok (.close reason)))
    (herror : ∀ e, mapElement (SocketEvent.error e).element = some (.error e)) (casts : Nat) (events : List SocketEvent) :
    receiveSoFar (fun _ => true) ended casts ((events.map SocketEvent.element).filterMap mapElement) =
      messagesBefore events ++ if isOver ended events then [.close] else [] := by
  induction events generalizing casts with
  | nil => cases ended <;> rfl
  | cons event events ih =>
    cases event with
    | text text =>
      rw [List.map_cons, List.filterMap_cons_some (htext text)]
      exact congrArg (PortalActorMessage.handshake text :: ·) (ih (casts + 1))
    | binary data =>
      rw [List.map_cons, List.filterMap_cons_some (hbinary data)]
      exact congrArg (PortalActorMessage.content data :: ·) (ih (casts + 1))
    | ping data =>
      rw [List.map_cons, List.filterMap_cons_none (hping data)]
      exact ih casts
    | pong data =>
      rw [List.map_cons, List.filterMap_cons_none (hpong data)]
      exact ih casts
    | close frame =>
      obtain ⟨reason, hreason⟩ := hclose frame
      rw [List.map_cons, List.filterMap_cons_some hreason]
      -- the loop breaks here, whatever follows
      cases ended <;> rfl
    | error e =>
      rw [List.map_cons, List.filterMap_cons_some (herror e)]
      cases ended <;> rfl

theorem clientMessages_eq (ended : Bool) (events : List SocketEvent) :
    clientMessages ended events = messagesBefore events ++ if isOver ended events then [.close] else [] := by
  apply receiveSoFar_filterMap
  case hclose =>
    intro frame
    cases frame <;> exact ⟨_, rfl⟩
  all_goals exact fun _ => rfl

theorem serverMessages_eq (ended : Bool) (events : List SocketEvent) :
    serverMessages ended events = messagesBefore events ++ if isOver ended events then [.close] else [] := by
  apply receiveSoFar_filterMap
  case hclose => exact fun _ => ⟨_, rfl⟩
  all_goals exact fun _ => rfl

/-! ## The ewebsock adapter -/

/-- It passes on every text and binary message, also after the end, and nothing else. -/
theorem ewebsockMessages_eq (describe : ConduitError → String) (events : List SocketEvent) :
    ewebsockMessages describe events = events.filterMap SocketEvent.passed? := by
  have hfrom (casts : Nat) : receiveSoFar (fun _ => true) false casts
      (Ewebsock.adaptTokioReceiverToConduit ((events.map (SocketEvent.wsEvent describe)).flatMap Ewebsock.handler)) =
        events.filterMap SocketEvent.passed? := by
    induction events generalizing casts with
    | nil => rfl
    | cons event events ih =>
      cases event with
      | text text => exact congrArg (PortalActorMessage.handshake text :: ·) (ih (casts + 1))
      | binary data => exact congrArg (PortalActorMessage.content data :: ·) (ih (casts + 1))
      | _ => exact ih casts
  exact hfrom 0

/-- **The end of a session is never passed on.** -/
theorem close_notMem_ewebsockMessages (describe : ConduitError → String) (events : List SocketEvent) :
    .close ∉ ewebsockMessages describe events := by
  rw [ewebsockMessages_eq, List.mem_filterMap]
  rintro ⟨event, -, h⟩
  cases event <;> cases h

/-- Over a session that is over, the adapters of tungstenite do what they should. -/
theorem clientMessages_of_isOver {ended : Bool} {events : List SocketEvent} (hover : isOver ended events = true) :
    clientMessages ended events = sessionMessages events ∧ serverMessages ended events = sessionMessages events := by
  rw [clientMessages_eq, serverMessages_eq, hover]
  exact ⟨rfl, rfl⟩

/-- What `receive_loop` itself makes of their streams, when they have ended. -/
theorem receiveLoop_tungstenite (events : List SocketEvent) :
    receiveLoop items (fun _ => true) 0 (Client.mapWsToConduit (events.map SocketEvent.element)) = sessionMessages events ∧
      receiveLoop items (fun _ => true) 0 (Server.mapWsToConduit (events.map SocketEvent.element)) =
        sessionMessages events := by
  rw [← receiveSoFar_ended, ← receiveSoFar_ended]
  exact clientMessages_of_isOver (Bool.true_or _)

/-- The three adapters agree on what the portal gets, and it is what it should get. -/
def Agree (describe : ConduitError → String) (ended : Bool) (events : List SocketEvent) : Prop :=
  clientMessages ended events = sessionMessages events ∧ serverMessages ended events = sessionMessages events ∧
    ewebsockMessages describe events = sessionMessages events

/-- **The adapters never agree**: whatever the socket sees, `ewebsock` passes no `Close` on. -/
theorem adapters_never_agree (describe : ConduitError → String) (ended : Bool) (events : List SocketEvent) :
    ¬Agree describe ended events := by
  rintro ⟨-, -, hewebsock⟩
  have hclose := close_notMem_ewebsockMessages describe events
  rw [hewebsock] at hclose
  exact hclose (List.mem_append_right _ (List.mem_singleton_self _))

/-- A portal whose peer has closed the socket hears of it from two adapters of three. -/
theorem end_not_reported : clientMessages false [.text "hello", .close none] = [.handshake "hello", .close] ∧
    serverMessages false [.text "hello", .close none] = [.handshake "hello", .close] ∧
    ewebsockMessages (fun _ => "") [.text "hello", .close none] = [.handshake "hello"] ∧
    ¬Agree (fun _ => "") false [.text "hello", .close none] := by
  refine ⟨by decide, by decide, by decide, ?_⟩
  rintro ⟨-, -, hewebsock⟩
  exact absurd hewebsock (by decide)

/-- As long as a session goes on, the portal gets the same from all of them. -/
theorem messages_eq_of_open (describe : ConduitError → String) {events : List SocketEvent}
    (hopen : isOver false events = false) :
    clientMessages false events = ewebsockMessages describe events ∧
      serverMessages false events = ewebsockMessages describe events := by
  have hall : events.takeWhile (!·.isEnd) = events := List.takeWhile_eq_self_iff.mpr fun event hevent => by
    rw [Bool.not_eq_true', Bool.eq_false_iff]
    exact List.any_eq_false.mp hopen event hevent
  rw [clientMessages_eq, serverMessages_eq, hopen, ewebsockMessages_eq, messagesBefore, hall]
  exact ⟨List.append_nil _, List.append_nil _⟩

end WebSocket
end Conduit
end Wormhole
