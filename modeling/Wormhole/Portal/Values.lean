import Wormhole.Context.Carried
import Wormhole.Portal.References

/-!
# `Portal.Values` — a value on its way through a pair

A message of a pair has its references beside it. What local code sends is a value of some type, with the
references in it: the task of the message runs its `immaterialize`, and the rematerializer of its receiver reads
what that has written. If local code on both sides sends values, values are all that ever is on the way, and each
comes out as it was, with the references of the other side in their places.
-/

namespace Wormhole
namespace Portal

open Context (Layout Encodings Ty Ref ProxiedRpcReplyPort answered)

variable {β : Type}

/-! ## What local code keeps to -/

/-- Local code keeps to `Good` in what it sends, and in what it answers. -/
def Label.Keeps (Good : β → List Bool → Prop) : Label β → Prop
  | .sendTo _ body refs => Good body (kinds refs)
  | .trigger _ body refs => Good body (kinds refs)
  | _ => True

def PairLabel.Keeps (Good : β → List Bool → Prop) : PairLabel β → Prop
  | .receive _ => True
  | .move _ label => label.Keeps Good

instance decidableLabelKeeps (Good : β → List Bool → Prop) [hgood : ∀ body ks, Decidable (Good body ks)] (l : Label β) :
    Decidable (l.Keeps Good) :=
  match l with
  | .sendTo _ body refs => hgood body (kinds refs)
  | .trigger _ body refs => hgood body (kinds refs)
  | .recv _ | .handle .. | .rebuildRef | .rebuildDone | .request _ | .instantiate _ | .register _ | .spawnActor
  | .openPort | .dropPort _ | .exit _ | .notify _ | .relay _ | .forward _ | .taskPublish _ | .taskPublished _
  | .taskFail _ | .taskPost _ | .forwardReply _ | .answer _ => instDecidableTrue

instance decidablePairLabelKeeps (Good : β → List Bool → Prop) [∀ body ks, Decidable (Good body ks)]
    (l : PairLabel β) : Decidable (l.Keeps Good) :=
  match l with
  | .receive _ => instDecidableTrue
  | .move _ label => decidableLabelKeeps Good label

namespace Pair

/-- After the steps `H`, whatever was sent to a proxy or answered on a port is good. -/
structure Keeping (Good : β → List Bool → Prop) (H : PairLabel β → Pair β → Prop) (p : Pair β) : Prop where
  sent : ∀ s l n msg, Took H s l n → l.sends n = some msg → Good msg.body (kinds msg.refs)
  answered : ∀ s port body refs, (port, .rpc body refs) ∈ (p.node s).replies → Good body (kinds refs)

section

variable {Good : β → List Bool → Prop} {setup : Side → Setup} {H : PairLabel β → Pair β → Prop} {p q : Pair β}
  {l : PairLabel β} {s : Side}

/-- What is forwarded was answered. -/
theorem good_of_sends {label : Label β} {n : Node β} {msg : Msg β} (hkeeps : label.Keeps Good)
    (hanswered : ∀ port body refs, (port, .rpc body refs) ∈ n.replies → Good body (kinds refs))
    (hsends : label.sends n = some msg) : Good msg.body (kinds msg.refs) := by
  cases label with
  | sendTo proxy body refs =>
    obtain rfl := Option.some.inj hsends
    exact hkeeps
  | forwardReply port =>
    simp only [Label.sends] at hsends
    split at hsends
    · rename_i proxy rest body refs hdequeue hreply
      split at hsends
      · cases hsends
      · obtain rfl := Option.some.inj hsends
        exact hanswered port body refs (Node.mem_of_rpcReply hreply)
    · cases hsends
  | _ => cases hsends

/-- What was delivered was sent, with references of the same kinds. -/
theorem Keeping.delivered (h : p.Keeping Good H) (hreferring : p.Referring setup H) {d : ActorId × Msg β}
    (hd : d ∈ (p.node s).delivered) : Good d.2.body (kinds d.2.refs) := by
  obtain ⟨s, rfl⟩ : ∃ t, s = t.other := ⟨s.other, s.other_other.symm⟩
  obtain ⟨msg, l, n, target, data, htook, hsends, -, -, -, -, hbody, hserialized, hrebuilt⟩ := hreferring.arrived hd
  rw [← hbody, ← Node.isPort_of_rebuilt hrebuilt, Node.isPort_of_serialized hserialized]
  exact h.sent s l n msg htook hsends

/-- **Every step.** -/
theorem Keeping.step (h : p.Keeping Good H) (hreferring : p.Referring setup H) (hkeeps : l.Keeps Good)
    (hstep : Pair.step l p = some q) : q.Keeping Good (fun l' u => H l' u ∨ l' = l ∧ u = p) := by
  obtain ⟨t, label, hl, hnode, hother, -⟩ := step_cases hstep
  have hlabel : label.Keeps Good := by
    obtain ⟨rfl, frame, rfl⟩ | rfl := hl
    · exact trivial
    · exact hkeeps
  refine ⟨fun s l' n msg htook hsends => ?_, fun s port body refs hreply => ?_⟩
  · obtain ⟨u, hold | ⟨rfl, rfl⟩, rfl⟩ := htook
    · exact h.sent s l' _ msg ⟨u, hold, rfl⟩ hsends
    · exact good_of_sends hkeeps (h.answered s) hsends
  · obtain rfl | rfl := t.eq_or_other s
    · obtain hold | ⟨rfl, -, -⟩ | ⟨actor, msg, -, hd, rfl, rfl⟩ := Node.answered_of_step hnode hreply
      · exact h.answered s port body refs hold
      · exact hlabel
      · exact h.delivered hreferring hd
    · rw [hother] at hreply
      exact h.answered _ port body refs hreply

theorem Keeping.started (setup : Side → Setup) : (Pair.started setup).Keeping Good (fun _ _ => False) where
  sent := by
    rintro s l n msg ⟨u, hnone, -⟩
    exact hnone.elim
  answered := by
    rintro s port body refs ⟨⟩

/-- **Every run** in which local code keeps to `Good`. -/
theorem Keeping.of_run {ls : List (PairLabel β)}
    (hrun : Transition.Run Pair.step (fun l _ => l.Keeps Good) ls (Pair.started setup) p) :
    p.Keeping Good (Transition.Occurs Pair.step ls (Pair.started setup)) := by
  have hpres : ∀ H l u v, Referring setup H u ∧ Keeping Good H u → l.Keeps Good → Pair.step l u = some v →
      Referring setup (fun l' u' => H l' u' ∨ l' = l ∧ u' = u) v ∧
        Keeping Good (fun l' u' => H l' u' ∨ l' = l ∧ u' = u) v := by
    intro H l u v ⟨hreferring, hkeeping⟩ hkeeps hstep
    exact ⟨hreferring.step hstep, hkeeping.step hreferring hkeeps hstep⟩
  exact (hrun.history (R := fun H p => Referring setup H p ∧ Keeping Good H p) hpres
    ⟨Referring.started setup, Keeping.started setup⟩).2

end

end Pair

/-! ## Values -/

/-- A reply port of a side, and its timeout. -/
abbrev HeldPort : Type := Option Duration × PortId

/-- The references of a side. -/
def LocalRef.toRef : LocalRef → Ref ActorId HeldPort
  | .actorRef actor => .actorRef actor
  | .replyPort timeout port => .replyPort (timeout, port)

/-- Those of a frame. -/
def RemoteRef.toRef : RemoteRef → Ref RemoteActorId ProxiedRpcReplyPort
  | .actorRef id => .actorRef id
  | .replyPort timeoutMs id => .replyPort ⟨timeoutMs.map (BitVec.ofNat 128), id⟩

/-- A type, and a value of it without its references. -/
abbrev Shape (l : Layout) : Type := (t : Ty) × t.Val l Unit Unit

/-- A value of a side. -/
abbrev Held (l : Layout) (t : Ty) : Type := t.Val l ActorId HeldPort

/-- The message is this value. -/
structure IsValue (l : Layout) (t : Ty) (v : Held l t) (msg : Msg (Shape l)) : Prop where
  body : msg.body = ⟨t, t.shape l v⟩
  refs : t.refs l v = msg.refs.map LocalRef.toRef

def kindOf : Bool → Ref Unit Unit
  | false => .actorRef ()
  | true => .replyPort ()

/-- The references are of the kinds that the shape has places for. -/
def Typed (l : Layout) (body : Shape l) (ks : List Bool) : Prop := ks.map kindOf = body.1.kinds l body.2

instance (l : Layout) (body : Shape l) (ks : List Bool) : Decidable (Typed l body ks) :=
  inferInstanceAs (Decidable (_ = _))

theorem kind_toRef (refs : List LocalRef) : (refs.map LocalRef.toRef).map Ref.kind = (kinds refs).map kindOf := by
  induction refs with
  | nil => rfl
  | cons ref refs ih =>
    rw [List.map_cons, List.map_cons, ih]
    cases ref <;> rfl

theorem kind_toRef_wire (remotes : List RemoteRef) :
    (remotes.map RemoteRef.toRef).map Ref.kind = (remotes.map RemoteRef.isPort).map kindOf := by
  induction remotes with
  | nil => rfl
  | cons remote remotes ih =>
    rw [List.map_cons, List.map_cons, ih]
    cases remote <;> rfl

/-- **The messages of local code that keeps to this are the values.** -/
theorem typed_iff {l : Layout} {msg : Msg (Shape l)} :
    Typed l msg.body (kinds msg.refs) ↔ ∃ t v, IsValue l t v msg := by
  constructor
  · intro htyped
    obtain ⟨v, hshape, hrefs⟩ := msg.body.1.fill l ((kind_toRef msg.refs).trans htyped)
    exact ⟨msg.body.1, v, by rw [hshape], hrefs⟩
  · rintro ⟨t, v, hbody, hrefs⟩
    show (kinds msg.refs).map kindOf = msg.body.1.kinds l msg.body.2
    rw [hbody, ← kind_toRef, ← hrefs]
    exact t.refs_kind l v

/-- `v` was sent, `w` travelled, and `v'` arrived: a task that writes `v` and gets the references of `w` for those
    of `v` comes to the bytes of `w`, and a rematerializer that reads these bytes and gets the references of `v'`
    for those of `w` comes to `v'`. -/
structure Travels (l : Layout) (enc : Encodings) (t : Ty) (v : Held l t) (w : t.Wired l) (v' : Held l t) : Prop where
  wired : t.shape l w = t.shape l v
  arrives : t.shape l v' = t.shape l v
  writes : t.Compiles → (t.wire l enc w).length ≤ l.isizeMax →
    ∃ events, (t.immaterialize l enc v).Ran events (.ok (t.wire l enc w)) ∧
      events.operations = t.refs l v ∧ answered events = t.refs l w
  reads : t.Compiles → (t.wire l enc w).length < l.usizeSize →
    ∃ events, (t.rematerialize l enc ActorId HeldPort (t.wire l enc w)).Ran events (.ok v') ∧
      events.operations = t.refs l w ∧ answered events = t.refs l v'

namespace Pair

/-- **What arrives is the value that was sent.** Take any run of two portals in which local code of both sides sends
    and answers values. Every message that one side has delivered is a value `v'`; it was sent at the other as a
    value `v` of the same type, and the portal there has sent a frame with a value `w` for it. They have the same
    shape, the bytes for `w` are what `v` is written to and what `v'` is read from, with the references in the same
    order, and each reference of `v'` is one to what that of `v` was one to. -/
theorem values_arrive (l : Layout) (enc : Encodings) (setup : Side → Setup) (ls : List (PairLabel (Shape l)))
    (p : Pair (Shape l))
    (hrun : Transition.Run Pair.step (fun label _ => label.Keeps (Typed l)) ls (Pair.started setup) p) (s : Side) :
    ∀ d ∈ (p.node s.other).delivered, ∃ (t : Ty) (v v' : Held l t) (w : t.Wired l) (msg : Msg (Shape l))
      (target : RemoteActorId) (data : Payload (Shape l)),
      (∃ label u, Transition.Occurs Pair.step ls (Pair.started setup) (.move s label) u ∧
        label.sends (u.node s) = some msg) ∧
      .content (some (.sendMessage target data)) ∈ (p.node s).sent ∧
      (msg.tag = d.2.tag ∧ data.tag = d.2.tag) ∧
      IsValue l t v msg ∧ (data.body = some ⟨t, t.shape l w⟩ ∧ data.refs.map RemoteRef.toRef = t.refs l w) ∧
      IsValue l t v' d.2 ∧
      Travels l enc t v w v' ∧ List.Forall₂ (p.Corresponds s) msg.refs d.2.refs := by
  intro d hd
  have hreferring := Referring.of_run hrun
  have hkeeping := Keeping.of_run hrun
  obtain ⟨msg, label, n, target, data, ⟨u, hoccurs, rfl⟩, hsends, hframe, htag', hdata, htag, hbody, hserialized,
    hrebuilt⟩ := hreferring.arrived hd
  obtain ⟨t, v, hv⟩ := typed_iff.mp (hkeeping.sent s label _ msg ⟨u, hoccurs, rfl⟩ hsends)
  -- the references on the wire and those that arrive are of the kinds of `v`
  have hkinds : (kinds msg.refs).map kindOf = t.kinds l (t.shape l v) := by
    rw [← kind_toRef, ← hv.refs, t.refs_kind]
  have hwired : (data.refs.map RemoteRef.toRef).map Ref.kind = t.kinds l (t.shape l v) := by
    rw [kind_toRef_wire, Node.isPort_of_serialized hserialized, hkinds]
  have harrived : (d.2.refs.map LocalRef.toRef).map Ref.kind = t.kinds l (t.shape l v) := by
    rw [kind_toRef, ← Node.isPort_of_rebuilt hrebuilt, Node.isPort_of_serialized hserialized, hkinds]
  obtain ⟨w, hw, hwrefs⟩ := t.fill l hwired
  obtain ⟨v', hv', hrefs'⟩ := t.fill l harrived
  refine ⟨t, v, v', w, msg, target, data, ⟨label, u, hoccurs, hsends⟩, hframe, ⟨htag, htag'.trans htag⟩, hv,
    ⟨?_, hwrefs.symm⟩, ⟨?_, hrefs'⟩, ?_, hreferring.corresponds_all hserialized hrebuilt⟩
  · rw [hdata, hv.body, hw]
  · rw [← hbody, hv.body, hv']
  · exact {
      wired := hw
      arrives := hv'
      writes := fun hcompiles hle => Context.written hcompiles hle hw
      reads := fun hcompiles hlt => Context.readable hcompiles hlt (hv'.trans hw.symm) }

/-- `HubMessage::Connect`, and what the hub answers: an alias, and its server. -/
def connecting : Shape .sixtyFour := ⟨Context.hubMessage, .inl ((), (), ())⟩

def welcome : Shape .sixtyFour := ⟨.tuple (.cons (.plain .string) (.cons .actorRef .nil)), ("Red Owl", (), ())⟩

/-- A client on the left joins the hub on the right. -/
def joining : List (PairLabel (Shape .sixtyFour)) :=
  [.receive .left, .move .left (.handle ⟨7⟩ none .flushed), .receive .right, .move .right (.handle ⟨7⟩ none .flushed),
   .move .right (.request (.publishActor 0 true)), .move .right (.handle ⟨8⟩ none .flushed), .move .left .openPort,
   .move .left (.instantiate remoteEight), .move .left (.register 2), .move .left (.handle ⟨7⟩ none .flushed),
   .move .left (.sendTo 2 connecting [.actorRef 1, .replyPort none 0]), .move .left (.relay 2),
   .move .left (.forward 2), .move .left (.handle ⟨7⟩ none .flushed),
   .move .left (.taskPublish ⟨2, 0⟩), .move .left (.handle ⟨9⟩ none .flushed), .move .left (.taskPublished ⟨2, 0⟩),
   .move .left (.taskPublish ⟨2, 0⟩), .move .left (.handle ⟨10⟩ none .flushed), .move .left (.taskPublished ⟨2, 0⟩),
   .move .left (.taskPost ⟨2, 0⟩), .move .left (.handle ⟨7⟩ none .flushed),
   .receive .right, .move .right (.handle ⟨7⟩ none .flushed), .move .right .rebuildRef, .move .right .rebuildRef,
   .move .right .rebuildDone, .move .right (.handle ⟨7⟩ none .flushed), .move .right (.handle ⟨7⟩ none .flushed),
   .move .right (.trigger 1 welcome [.actorRef 1]), .move .right (.forwardReply 1), .move .right (.relay 3),
   .move .right (.forward 3), .move .right (.handle ⟨7⟩ none .flushed), .move .right (.taskPublish ⟨3, 0⟩),
   .move .right (.handle ⟨9⟩ none .flushed), .move .right (.taskPublished ⟨3, 0⟩), .move .right (.taskPost ⟨3, 0⟩),
   .move .right (.handle ⟨7⟩ none .flushed),
   .receive .left, .move .left (.handle ⟨7⟩ none .flushed), .move .left .rebuildRef, .move .left .rebuildDone,
   .move .left (.handle ⟨7⟩ none .flushed), .move .left (.answer 3)]

theorem values_arrive_joining : ∃ p,
    Transition.exec Pair.step joining (Pair.started twoSides) = some p ∧
    (p.node .right).delivered.map (fun d => (d.1, d.2.refs)) = [(0, [.actorRef 2, .replyPort (some (120 * 10 ^ 9)) 1])] ∧
    (p.node .left).delivered.map (fun d => (d.1, d.2.refs)) = [(3, [.actorRef 4])] ∧
    ∀ d ∈ (p.node .left).delivered, ∃ t v w v', IsValue .sixtyFour t v' d.2 ∧ Travels .sixtyFour .standard t v w v' := by
  have heval : (Transition.exec (Transition.guarded Pair.step fun label _ => label.Keeps (Typed .sixtyFour)) joining
      (Pair.started twoSides)).map (fun p => ((p.node .right).delivered.map (fun d => (d.1, d.2.refs)),
        (p.node .left).delivered.map (fun d => (d.1, d.2.refs)))) =
      some ([(0, [.actorRef 2, .replyPort (some (120 * 10 ^ 9)) 1])], [(3, [.actorRef 4])]) := by
    decide +kernel
  obtain ⟨p, hp, hfacts⟩ := Option.map_eq_some_iff.mp heval
  obtain ⟨hright, hleft⟩ := Prod.mk.inj hfacts
  have hrun := Transition.run_of_exec_guarded hp
  refine ⟨p, hrun.exec, hright, hleft, fun d hd => ?_⟩
  obtain ⟨t, v, v', w, -, -, -, -, -, -, -, -, hv', htravels, -⟩ :=
    values_arrive .sixtyFour .standard twoSides joining p hrun .right d hd
  exact ⟨t, v, w, v', hv', htravels⟩

end Pair

end Portal
end Wormhole
