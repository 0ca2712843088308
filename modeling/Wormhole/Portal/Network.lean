import Mathlib.Logic.Relation
import Wormhole.Portal.Hop

/-!
# `Portal.Network` — reply ports that go from pair to pair

Any number of pairs. Local code of one side can put a reply port that it holds there into a message of another
pair, and passes on to it what is answered on the port that it became (`move`, `pass`). A port goes on by such
a move or through a pair (`Link`), and the value that is sent on the last port of its way is the one that
arrives on the first.
-/

namespace Wormhole
namespace Portal

open Relation

variable {β : Type}

/-! ## What local code holds -/

/-- The reply ports that local code gives away or answers on. -/
def Label.localPorts : Label β → List PortId
  | .sendTo _ _ refs => Node.portsOf refs
  | .trigger port _ refs => port :: Node.portsOf refs
  | _ => []

namespace Node

section

variable {n n' : Node β} {l : Label β} {port : PortId}

/-- Local code keeps what it does not give away. -/
theorem held_of_step (hstep : step l n = some n') (hport : port ∈ n.held) (hlocal : port ∉ l.localPorts) :
    port ∈ n'.held := by
  cases hpump : l.isPump with
  | false =>
    cases l with
    | sendTo proxy body refs =>
      obtain ⟨-, rfl⟩ := sendTo_inv hstep
      exact List.mem_filter.mpr ⟨hport, decide_eq_true hlocal⟩
    | trigger port' body refs =>
      obtain ⟨-, rfl⟩ := trigger_inv hstep
      have hnot := List.not_mem_of_not_mem_cons hlocal
      have hne := List.ne_of_not_mem_cons hlocal
      exact List.mem_append_left _ (List.mem_filter.mpr ⟨hport, decide_eq_true ⟨hne, hnot⟩⟩)
    | _ => exact (quiet_of_step hpump hstep).held (by simp) (by simp) hport
  | true =>
    cases l with
    | recv frame =>
      obtain ⟨-, rfl⟩ := recv_inv hstep
      obtain _ | _ | _ | _ := frame <;> exact hport
    | handle uuid nexus sink =>
      obtain ⟨-, m, rest, -, rfl⟩ := handle_inv hstep
      cases (Portal.handle (n.env uuid nexus sink) n.state m).outcome <;> exact hport
    | rebuildDone =>
      obtain ⟨r, -, -, rfl⟩ := rebuildDone_inv hstep
      obtain ⟨error, heq⟩ | ⟨body, -, -, heq⟩ := n.deliver_cases r
      · rw [heq]
        exact hport
      · rw [heq]
        exact List.mem_append_left _ hport
    | _ => cases hpump

/-- A port that local code holds, or that was answered, gets to no `RpcProxyActor`. -/
theorem not_served_of_step (h : n.Linear) (hstep : step l n = some n') (hnot : port ∉ n.rpcProxies.map Prod.snd)
    (hplace : port ∈ n.held ∨ port ∈ n.replies.map Prod.fst) : port ∉ n'.rpcProxies.map Prod.snd := by
  have hone := h.once port
  obtain hsame | ⟨tag, t, rest, timeout, port', todo, -, hdequeue, hasked, htodo, rfl⟩ := rpcProxies_of_step hstep
  · rwa [hsame]
  · show port ∉ (n.rpcProxies ++ [(n.nextActor, port')]).map Prod.snd
    rw [List.map_append, List.mem_append]
    rintro (hold | hnew)
    · exact hnot hold
    · -- it was with a task
      obtain rfl : port = port' := List.mem_singleton.mp hnew
      have htask := Queues.count_of_dequeue hdequeue (fun t : Tag × Immaterialization β => t.2.ports) port
      have hports : t.ports = port :: portsOf todo := by rw [Immaterialization.ports, hasked, htodo]; rfl
      dsimp only at htask
      rw [hports, List.count_cons_self] at htask
      unfold uses answers at hone
      rw [if_neg hnot] at hone
      obtain hheld | hreply := hplace
      · have hpos := List.count_pos_iff.mpr hheld
        omega
      · have hpos := List.count_pos_iff.mpr hreply
        omega

/-- A port that local code holds has not been answered. -/
theorem Linear.not_answered (h : n.Linear) (hheld : port ∈ n.held) : port ∉ n.replies.map Prod.fst := by
  intro hreply
  have hone := h.once port
  have hpos := List.count_pos_iff.mpr hheld
  have hpos' := List.count_pos_iff.mpr hreply
  unfold uses answers at hone
  split at hone
  · rename_i hmem
    have hserved := List.count_pos_iff.mpr hmem
    omega
  · omega

/-- There is one value on a port. -/
theorem Linear.value_unique (h : n.Linear) {value value' : ReplyValue β} (hvalue : (port, value) ∈ n.replies)
    (hvalue' : (port, value') ∈ n.replies) : value = value' := by
  have hone : (n.replies.flatMap fun reply => [reply.1]).count port ≤ 1 := by
    rw [← List.map_eq_flatMap]
    exact h.answered_once port
  exact congrArg Prod.snd (Queues.eq_of_count_le_one hone hvalue hvalue' (List.mem_singleton_self _)
    (List.mem_singleton_self _))

end

end Node

/-! ## Both sides of a pair -/

namespace Pair

/-- The step is one of local code that sends to published actors, and not to those behind reply ports. -/
def Honest (p : Pair β) : PairLabel β → Prop
  | .receive _ => True
  | .move s label => (p.node s.other).Honest (p.node s) label

instance (p : Pair β) (l : PairLabel β) : Decidable (p.Honest l) := by
  cases l <;> unfold Honest <;> infer_instance

/-- What holds of a pair that forwards reply ports. -/
structure Relaying (setup : Side → Setup) (p : Pair β) : Prop where
  side : ∀ s, (p.node s).Relaying
  flows : p.Flows setup
  carrying : ∀ s, (p.node s).Carrying (p.node s.other)

variable {setup : Side → Setup} {p q : Pair β} {l : PairLabel β} {s : Side}

theorem Relaying.started (setup : Side → Setup) : (Pair.started (β := β) setup).Relaying setup where
  side s := Node.Relaying.started (setup s)
  flows := flows_started
  carrying s := Node.Carrying.started (setup s) (setup s.other)

/-- **Every step.** -/
theorem Relaying.step (h : p.Relaying setup) (hhonest : p.Honest l) (hstep : Pair.step l p = some q) :
    q.Relaying setup := by
  obtain ⟨t, label, hl, hnode, hother, -, hrecv⟩ := step_cases hstep
  have hside := h.side t
  have huses := uses_of_step hside.linear hside.populated hside.reached hnode
  have hlabel : (p.node t.other).Honest (p.node t) label := by
    obtain ⟨-, frame, rfl⟩ | rfl := hl
    · rintro _ ⟨⟩
    · exact hhonest
  have hframe : ∀ frame, label = .recv (some frame) → frame ∈ (p.node t.other).sent := by
    rintro frame rfl
    obtain ⟨frame', heq, hframe, -⟩ | ⟨-, hne⟩ := hrecv
    · cases heq
      exact List.mem_of_getElem? hframe
    · exact absurd rfl (hne frame)
  have hback := h.carrying t.other
  rw [Side.other_other] at hback
  refine ⟨fun s => ?_, h.flows.step hstep, fun s => ?_⟩
  · obtain rfl | rfl := t.eq_or_other s
    · exact hside.step hnode
    · rw [hother]
      exact h.side _
  · obtain rfl | rfl := t.eq_or_other s
    · rw [hother]
      exact (h.carrying s).send hside.populated hnode
    · rw [Side.other_other, hother]
      exact hback.receive hnode hside.linear hside.populated huses hlabel hframe

/-- **What is answered on a port was sent on the port it went on as.** -/
theorem Relaying.answered_back (h : p.Relaying setup) {x : PortId} {body : β} {refs : List LocalRef}
    (hgiven : x ∈ (p.node s).givenPorts) (hreply : (x, .rpc body refs) ∈ (p.node s).replies) :
    ∃ y refs', (p.node s).Carried (p.node s.other) x y ∧ (y, .rpc body refs') ∈ (p.node s.other).replies ∧
      kinds refs' = kinds refs := by
  have hback := h.carrying s.other
  rw [Side.other_other] at hback
  have hside := h.side s
  exact (h.carrying s).answered_back hback.arriving hside.linear hside.populated hside.spent hside.serializer
    (h.side s.other).serializer hgiven hreply

theorem Relaying.carried_unique (h : p.Relaying setup) {x y y' : PortId}
    (hy : (p.node s).Carried (p.node s.other) x y) (hy' : (p.node s).Carried (p.node s.other) x y') : y = y' :=
  hy.unique (h.side s).spent ((h.flows.piped s).nodup_posted.sublist (h.flows.delivered_sublist s)) hy'

end Pair

/-! ## Networks -/

/-- A reply port of a side of a pair. -/
structure Place (ι : Type) where
  pair : ι
  side : Side
  port : PortId
  deriving DecidableEq

structure Network (ι β : Type) where
  pair : ι → Pair β
  /-- the ports that local code has put into messages of other pairs, and what they became there -/
  moved : List (Place ι × Place ι)

inductive NetworkLabel (ι β : Type) where
  /-- a pair takes a step -/
  | step (pair : ι) (label : PairLabel β)
  /-- local code takes a port to another pair -/
  | move (place : Place ι) (pair : ι) (side : Side)
  /-- it passes on a value, with these references for those in it -/
  | pass (place : Place ι) (refs : List LocalRef)

namespace Network

variable {ι : Type}

/-- All pairs have started. -/
def started (setup : ι → Side → Setup) : Network ι β := { pair := fun i => Pair.started (setup i), moved := [] }

def node (N : Network ι β) (a : Place ι) : Node β := (N.pair a.pair).node a.side

def set [DecidableEq ι] (N : Network ι β) (i : ι) (p : Pair β) : Network ι β :=
  { N with pair := fun j => if j = i then p else N.pair j }

/-- None of the ports has been taken to another pair. -/
def Free (N : Network ι β) (i : ι) (s : Side) (ports : List PortId) : Prop :=
  ∀ port ∈ ports, (⟨i, s, port⟩ : Place ι) ∉ N.moved.map Prod.fst

instance [DecidableEq ι] (N : Network ι β) (i : ι) (s : Side) (ports : List PortId) : Decidable (N.Free i s ports) :=
  inferInstanceAs (Decidable (∀ _ ∈ _, _))

/-- Local code uses the ports that it still has. -/
def Allows (N : Network ι β) (i : ι) : PairLabel β → Prop
  | .receive _ => True
  | .move s label => N.Free i s label.localPorts

instance [DecidableEq ι] (N : Network ι β) (i : ι) (label : PairLabel β) : Decidable (N.Allows i label) := by
  cases label <;> unfold Allows <;> infer_instance

def step [DecidableEq ι] (l : NetworkLabel ι β) (N : Network ι β) : Option (Network ι β) :=
  match l with
  | .step i label => if N.Allows i label then (Pair.step label (N.pair i)).map (N.set i) else none
  | .move a i s =>
    if a.port ∈ (N.node a).held ∧ a ∉ N.moved.map Prod.fst then
      (Pair.step (.move s .openPort) (N.pair i)).map fun p =>
        { N.set i p with moved := N.moved ++ [(a, ⟨i, s, ((N.pair i).node s).nextPort⟩)] }
    else none
  | .pass a refs =>
    match N.moved.lookup a with
    | some b =>
      match (N.node b).rpcReply b.port with
      | some (body, refs') =>
        if kinds refs' = kinds refs ∧ N.Free a.pair a.side (Node.portsOf refs) then
          (Pair.step (.move a.side (.trigger a.port body refs)) (N.pair a.pair)).map (N.set a.pair)
        else none
      | none => none
    | none => none

/-- Local code sends to published actors, and not to those behind reply ports. -/
def Honest (l : NetworkLabel ι β) (N : Network ι β) : Prop :=
  match l with
  | .step i label => (N.pair i).Honest label
  | _ => True

instance (l : NetworkLabel ι β) (N : Network ι β) : Decidable (Honest l N) := by
  cases l <;> unfold Honest <;> infer_instance

/-- The value was sent on the port. -/
def Answered (N : Network ι β) (a : Place ι) (body : β) (refs : List LocalRef) : Prop :=
  (a.port, .rpc body refs) ∈ (N.node a).replies

/-- The port was in a message that its portal was given. -/
def Sent (N : Network ι β) (a : Place ι) : Prop := a.port ∈ (N.node a).givenPorts

/-- A port goes on as another: through a pair, or to another pair. -/
inductive Link (N : Network ι β) : Place ι → Place ι → Prop where
  | carried {i : ι} {s : Side} {x y : PortId} (h : ((N.pair i).node s).Carried ((N.pair i).node s.other) x y) :
      Link N ⟨i, s, x⟩ ⟨i, s.other, y⟩
  | moved {a b : Place ι} (h : (a, b) ∈ N.moved) : Link N a b

/-- A port goes on to a place. -/
def Route (N : Network ι β) : Place ι → Place ι → Prop := TransGen N.Link

/-- A port on which local code answers. -/
def Final (N : Network ι β) (a : Place ι) : Prop :=
  a.port ∉ (N.node a).rpcProxies.map Prod.snd ∧ a ∉ N.moved.map Prod.fst

/-- The value of one port was passed on to the other. -/
def Passed (N : Network ι β) (a b : Place ι) : Prop :=
  ∃ body refs refs', N.Answered a body refs ∧ N.Answered b body refs' ∧ kinds refs' = kinds refs

/-- What holds of a network of pairs. -/
structure Relaying (setup : ι → Side → Setup) (N : Network ι β) : Prop where
  pair : ∀ i, (N.pair i).Relaying (setup i)
  distinct : (N.moved.map Prod.fst).Nodup
  moved : ∀ e ∈ N.moved, e.1.port ∉ (N.node e.1).rpcProxies.map Prod.snd ∧
    (e.1.port ∈ (N.node e.1).held ∨ N.Passed e.1 e.2)
  origin : ∀ a body refs, N.Answered a body refs → ∃ z refs', ReflTransGen N.Link a z ∧ N.Final z ∧
    N.Answered z body refs' ∧ kinds refs' = kinds refs

section

variable {setup : ι → Side → Setup} {N M : Network ι β} {l : NetworkLabel ι β} {a b : Place ι}

/-! ## Steps -/

/-- Side `t` of pair `i` has taken a step. -/
structure Turned (N M : Network ι β) (i : ι) (t : Side) (label : Label β) : Prop where
  node : Node.step label ((N.pair i).node t) = some ((M.pair i).node t)
  other : (M.pair i).node t.other = (N.pair i).node t.other
  elsewhere : ∀ j, j ≠ i → M.pair j = N.pair j

/-- Why it has: it did what it does in its pair, or a port was moved to it, or it got a value for one that had
    been moved away. -/
inductive Because (N M : Network ι β) (i : ι) (t : Side) : Label β → Prop where
  | own {label : Label β} (hfree : N.Free i t label.localPorts) (hmoved : M.moved = N.moved) : Because N M i t label
  | move {a : Place ι} (hheld : a.port ∈ (N.node a).held) (hnew : a ∉ N.moved.map Prod.fst)
      (hmoved : M.moved = N.moved ++ [(a, ⟨i, t, ((N.pair i).node t).nextPort⟩)]) : Because N M i t .openPort
  | pass {port : PortId} {b : Place ι} {body : β} {refs refs' : List LocalRef} (hpair : (⟨i, t, port⟩, b) ∈ N.moved)
      (hb : N.Answered b body refs') (hkinds : kinds refs' = kinds refs) (hfree : N.Free i t (Node.portsOf refs))
      (hmoved : M.moved = N.moved) : Because N M i t (.trigger port body refs)

theorem mem_of_lookup_moved [DecidableEq ι] {moved : List (Place ι × Place ι)} (h : moved.lookup a = some b) : (a, b) ∈ moved := by
  induction moved with
  | nil => cases h
  | cons e moved ih =>
    rw [List.lookup_cons] at h
    split at h
    · rename_i heq
      cases h
      rw [eq_of_beq heq]
      exact List.mem_cons_self
    · exact List.mem_cons_of_mem _ (ih h)

theorem turned_of_pair {i : ι} {label : PairLabel β} (h : Pair.step label (N.pair i) = some (M.pair i))
    (helsewhere : ∀ j, j ≠ i → M.pair j = N.pair j) : ∃ t nodeLabel,
      (label = .receive t ∧ (∃ frame, nodeLabel = .recv frame) ∨ label = .move t nodeLabel) ∧
        N.Turned M i t nodeLabel := by
  obtain ⟨t, nodeLabel, hlabel, hnode, hother, -⟩ := Pair.step_cases h
  exact ⟨t, nodeLabel, hlabel, hnode, hother, helsewhere⟩

/-- Local code moves on its own. -/
theorem turned_of_move {i : ι} {s : Side} {nodeLabel : Label β}
    (h : Pair.step (.move s nodeLabel) (N.pair i) = some (M.pair i)) (helsewhere : ∀ j, j ≠ i → M.pair j = N.pair j) :
    N.Turned M i s nodeLabel := by
  obtain ⟨t, nodeLabel', ⟨hlabel, -⟩ | hlabel, hturned⟩ := turned_of_pair h helsewhere
  · cases hlabel
  · cases hlabel
    exact hturned

/-- **What a step does**: one side of one pair moves. -/
theorem step_cases [DecidableEq ι] (h : step l N = some M) : ∃ i label t nodeLabel, Pair.step label (N.pair i) = some (M.pair i) ∧
    (Honest l N → (N.pair i).Honest label) ∧ N.Turned M i t nodeLabel ∧ N.Because M i t nodeLabel := by
  have hself (i : ι) (p : Pair β) (moved : List (Place ι × Place ι)) :
      ({ N.set i p with moved } : Network ι β).pair i = p := if_pos rfl
  have helse (i : ι) (p : Pair β) (moved : List (Place ι × Place ι)) :
      ∀ j, j ≠ i → ({ N.set i p with moved } : Network ι β).pair j = N.pair j := fun _ hne => if_neg hne
  cases l with
  | step i label =>
    simp only [step] at h
    split at h
    · rename_i hallows
      obtain ⟨p, hp, rfl⟩ := Option.map_eq_some_iff.mp h
      have hpair : Pair.step label (N.pair i) = some ((N.set i p).pair i) := hp.trans (congrArg some (hself i p _).symm)
      obtain ⟨t, nodeLabel, hlabel, hturned⟩ := turned_of_pair hpair (helse i p _)
      refine ⟨i, label, t, nodeLabel, hpair, id, hturned, .own ?_ rfl⟩
      obtain ⟨rfl, frame, rfl⟩ | rfl := hlabel
      · exact List.forall_mem_nil _
      · exact hallows
    · cases h
  | move a i s =>
    simp only [step] at h
    split at h
    · rename_i hguard
      obtain ⟨p, hp, rfl⟩ := Option.map_eq_some_iff.mp h
      have hpair := hp.trans (congrArg some (hself i p
        (N.moved ++ [(a, ⟨i, s, ((N.pair i).node s).nextPort⟩)])).symm)
      exact ⟨i, _, s, _, hpair, fun _ => by rintro _ ⟨⟩, turned_of_move hpair (helse i p _), .move hguard.1 hguard.2 rfl⟩
    · cases h
  | pass a refs =>
    simp only [step] at h
    split at h
    · rename_i b hmoved
      split at h
      · rename_i body refs' hreply
        split at h
        · rename_i hguard
          obtain ⟨p, hp, rfl⟩ := Option.map_eq_some_iff.mp h
          have hpair := hp.trans (congrArg some (hself a.pair p N.moved).symm)
          exact ⟨a.pair, _, a.side, _, hpair, fun _ => by rintro _ ⟨⟩, turned_of_move hpair (helse a.pair p _),
            .pass (mem_of_lookup_moved hmoved) (Node.mem_of_rpcReply hreply) hguard.1 hguard.2 rfl⟩
        · cases h
      · cases h
    · cases h

/-- A side has taken this step, or none. -/
theorem Turned.side {i : ι} {t : Side} {label : Label β} (h : N.Turned M i t label) (j : ι) (s : Side) :
    (j = i ∧ s = t) ∨ (M.pair j).node s = (N.pair j).node s := by
  by_cases hj : j = i
  · subst hj
    obtain rfl | rfl := t.eq_or_other s
    · exact .inl ⟨rfl, rfl⟩
    · exact .inr h.other
  · exact .inr (by rw [h.elsewhere j hj])

/-- What no step of a side loses, no step of the network loses. -/
theorem Turned.subset {i : ι} {t : Side} {label : Label β} (h : N.Turned M i t label) {α : Type} {f : Node β → List α}
    (hf : f ((N.pair i).node t) ⊆ f ((M.pair i).node t)) (j : ι) (s : Side) :
    f ((N.pair j).node s) ⊆ f ((M.pair j).node s) := by
  obtain ⟨rfl, rfl⟩ | heq := h.side j s
  · exact hf
  · rw [heq]
    exact List.Subset.refl _

theorem Because.moved_subset {i : ι} {t : Side} {label : Label β} (h : N.Because M i t label) : N.moved ⊆ M.moved := by
  cases h with
  | own _ hmoved => exact hmoved ▸ List.Subset.refl _
  | move _ _ hmoved => exact hmoved ▸ List.subset_append_left _ _
  | pass _ _ _ _ hmoved => exact hmoved ▸ List.Subset.refl _

section

variable {i : ι} {t : Side} {label : Label β} (hturned : N.Turned M i t label) (hbecause : N.Because M i t label)

include hturned

theorem Answered.step {body : β} {refs : List LocalRef} (h : N.Answered a body refs) : M.Answered a body refs :=
  hturned.subset (f := Node.replies) (Node.replies_subset_of_step hturned.node) a.pair a.side h

theorem Passed.step (h : N.Passed a b) : M.Passed a b := by
  obtain ⟨body, refs, refs', ha, hb, hkinds⟩ := h
  exact ⟨body, refs, refs', ha.step hturned, hb.step hturned, hkinds⟩

include hbecause

theorem Link.step (h : N.Link a b) : M.Link a b := by
  cases h with
  | carried h =>
    exact .carried (h.mono
      (hturned.subset (f := Node.handled) (Node.handled_subset_of_step hturned.node) _ _)
      (hturned.subset (f := Node.delivered) (Node.delivered_subset_of_step hturned.node) _ _))
  | moved h => exact .moved (hbecause.moved_subset h)

end

/-! ## What a network keeps -/

/-- What is answered on a port of a message was sent on the port it goes on as. -/
theorem answered_back (hpair : ∀ i, (N.pair i).Relaying (setup i)) {body : β} {refs : List LocalRef}
    (hsent : N.Sent a) (ha : N.Answered a body refs) : ∃ y refs',
      N.Link a ⟨a.pair, a.side.other, y⟩ ∧ N.Answered ⟨a.pair, a.side.other, y⟩ body refs' ∧ kinds refs' = kinds refs := by
  obtain ⟨y, refs', hcarried, hy, hkinds⟩ := (hpair a.pair).answered_back hsent ha
  exact ⟨y, refs', .carried hcarried, hy, hkinds⟩

namespace Relaying

theorem side (h : N.Relaying setup) (a : Place ι) : (N.node a).Relaying := (h.pair a.pair).side a.side

/-- A port at which local code answers stays one. -/
theorem final_step (h : N.Relaying setup) {i : ι} {t : Side} {label : Label β} (hturned : N.Turned M i t label)
    (hbecause : N.Because M i t label) {z : Place ι} {body : β} {refs : List LocalRef} (hz : N.Final z)
    (hanswered : N.Answered z body refs) : M.Final z := by
  have hlinear := (h.side z).linear
  have hmem : z.port ∈ (N.node z).replies.map Prod.fst := List.mem_map_of_mem (f := Prod.fst) hanswered
  refine ⟨?_, ?_⟩
  · obtain ⟨hpair, hside⟩ | heq := hturned.side z.pair z.side
    · have hstep : Node.step label (N.node z) = some (M.node z) := by
        rw [node, node, hpair, hside]
        exact hturned.node
      exact Node.not_served_of_step hlinear hstep hz.1 (.inr hmem)
    · have heq : M.node z = N.node z := heq
      rw [heq]
      exact hz.1
  · cases hbecause with
    | own _ hmoved => exact hmoved ▸ hz.2
    | pass _ _ _ _ hmoved => exact hmoved ▸ hz.2
    | @move a hheld _ hmoved =>
      rw [hmoved, List.map_append, List.mem_append]
      rintro (hold | hnew)
      · exact hz.2 hold
      · obtain rfl : z = a := List.mem_singleton.mp hnew
        exact hlinear.not_answered hheld hmem

theorem held_step {i : ι} {t : Side} {label : Label β} (hturned : N.Turned M i t label) (ha : a.port ∈ (N.node a).held)
    (hlocal : a.pair = i → a.side = t → a.port ∉ label.localPorts) : a.port ∈ (M.node a).held := by
  obtain ⟨hpair, hside⟩ | heq := hturned.side a.pair a.side
  · have hstep : Node.step label (N.node a) = some (M.node a) := by
      rw [node, node, hpair, hside]
      exact hturned.node
    exact Node.held_of_step hstep ha (hlocal hpair hside)
  · have heq : M.node a = N.node a := heq
    rwa [heq]

/-- A port that was moved is still there, or has got the value of the port it became. -/
theorem moved_step (h : N.Relaying setup) {i : ι} {t : Side} {label : Label β} (hturned : N.Turned M i t label)
    (hbecause : N.Because M i t label) {e : Place ι × Place ι} (he : e ∈ N.moved) :
    e.1.port ∈ (M.node e.1).held ∨ M.Passed e.1 e.2 := by
  obtain ⟨a, b⟩ := e
  have hmem : a ∈ N.moved.map Prod.fst := List.mem_map_of_mem he
  obtain ⟨-, hheld | hpassed⟩ := h.moved _ he
  · cases hbecause with
    | own hfree _ =>
      refine .inl (held_step hturned hheld ?_)
      rintro rfl rfl hlocal
      exact hfree _ hlocal hmem
    | move => exact .inl (held_step hturned hheld fun _ _ => List.not_mem_nil)
    | @pass port b' body refs refs' hpair hb hkinds hfree hmoved =>
      by_cases heq : a = ⟨i, t, port⟩
      · -- it gets the value
        subst heq
        obtain rfl : b = b' := congrArg Prod.snd (List.inj_on_of_nodup_map h.distinct he hpair rfl)
        refine .inr ⟨body, refs, refs', ?_, hb.step hturned, hkinds⟩
        obtain ⟨-, heq⟩ := Node.trigger_inv hturned.node
        show (port, .rpc body refs) ∈ ((M.pair i).node t).replies
        rw [heq]
        exact List.mem_append_right _ (List.mem_singleton_self _)
      · refine .inl (held_step hturned hheld ?_)
        rintro rfl rfl hlocal
        obtain hport | hrefs := List.mem_cons.mp hlocal
        · exact heq (by rw [← hport])
        · exact hfree _ hrefs hmem
  · exact .inr (hpassed.step hturned)

/-- A port that was moved gets to no `RpcProxyActor`. -/
theorem not_served_step (h : N.Relaying setup) {i : ι} {t : Side} {label : Label β} (hturned : N.Turned M i t label)
    {e : Place ι × Place ι} (he : e ∈ N.moved) : e.1.port ∉ (M.node e.1).rpcProxies.map Prod.snd := by
  obtain ⟨hnot, hplace⟩ := h.moved e he
  obtain ⟨hpair, hside⟩ | heq := hturned.side e.1.pair e.1.side
  · have hstep : Node.step label (N.node e.1) = some (M.node e.1) := by
      rw [node, node, hpair, hside]
      exact hturned.node
    refine Node.not_served_of_step (h.side e.1).linear hstep hnot (hplace.imp_right ?_)
    rintro ⟨body, refs, refs', hanswered, -⟩
    exact List.mem_map_of_mem (f := Prod.fst) hanswered
  · have heq : M.node e.1 = N.node e.1 := heq
    rwa [heq]

/-- **Where an answer comes from.** -/
theorem origin_step (h : N.Relaying setup) (hpair : ∀ i, (M.pair i).Relaying (setup i)) {i : ι} {t : Side}
    {label : Label β} (hturned : N.Turned M i t label) (hbecause : N.Because M i t label) {body : β}
    {refs : List LocalRef} (ha : M.Answered a body refs) : ∃ z refs', ReflTransGen M.Link a z ∧ M.Final z ∧
      M.Answered z body refs' ∧ kinds refs' = kinds refs := by
  have hold {a : Place ι} {refs : List LocalRef} (ha : N.Answered a body refs) : ∃ z refs', ReflTransGen M.Link a z ∧
      M.Final z ∧ M.Answered z body refs' ∧ kinds refs' = kinds refs := by
    obtain ⟨z, refs', hroute, hfinal, hanswered, hkinds⟩ := h.origin a body refs ha
    have hgrows : N.Link ≤ M.Link := fun _ _ hlink => Link.step hturned hbecause hlink
    exact ⟨z, refs', ReflTransGen.mono hgrows _ _ hroute,
      h.final_step hturned hbecause hfinal hanswered, hanswered.step hturned, hkinds⟩
  obtain ⟨hpair', hside'⟩ | heq := hturned.side a.pair a.side
  · have hnode : N.node a = (N.pair i).node t := by rw [node, hpair', hside']
    have hnode' : M.node a = (M.pair i).node t := by rw [node, hpair', hside']
    have hreply : (a.port, .rpc body refs) ∈ ((M.pair i).node t).replies := hnode' ▸ ha
    obtain hbefore | ⟨rfl, hheld, hproxies⟩ | ⟨actor, msg, hserved, -⟩ := Node.answered_of_step hturned.node hreply
    · exact hold (hnode ▸ hbefore : (a.port, .rpc body refs) ∈ (N.node a).replies)
    · cases hbecause with
      | own hfree hmoved =>
        -- local code has answered on it
        refine ⟨a, refs, .refl, ⟨?_, ?_⟩, ha, rfl⟩
        · intro hserved
          rw [hnode', hproxies] at hserved
          obtain ⟨e, he, hport⟩ := List.mem_map.mp hserved
          exact ((h.pair i).side t).linear.uses_of_served he |>.1 (hport ▸ hheld)
        · rw [hmoved]
          have ha : a = ⟨i, t, a.port⟩ := by rw [← hpair', ← hside']
          rw [ha]
          exact hfree a.port List.mem_cons_self
      | @pass _ b _ _ refs' hmem hb hkinds hfree hmoved =>
        obtain ⟨z, refs'', hroute, hfinal, hz, hkinds'⟩ := hold hb
        have ha : a = ⟨i, t, a.port⟩ := by rw [← hpair', ← hside']
        rw [ha]
        exact ⟨z, refs'', .head (.moved (hmoved ▸ hmem)) hroute, hfinal, hz, hkinds'.trans hkinds⟩
    · -- an `RpcProxyActor` has answered on it
      have hsent : M.Sent a := by
        obtain ⟨e, he, hport⟩ : ∃ e ∈ ((N.pair i).node t).rpcProxies, e.2 = a.port := ⟨_, hserved, rfl⟩
        have hgiven := ((h.pair i).side t).served e he
        rw [Sent, hnode', ← hport]
        exact Node.givenPorts_subset_of_step hturned.node hgiven
      obtain ⟨y, refs', hlink, hy, hkinds⟩ := answered_back hpair hsent ha
      have hy' : N.Answered ⟨a.pair, a.side.other, y⟩ body refs' := by
        obtain ⟨-, hside⟩ | heq := hturned.side a.pair a.side.other
        · exact absurd (hside.trans hside'.symm) a.side.other_ne
        · show (y, .rpc body refs') ∈ ((N.pair a.pair).node a.side.other).replies
          rw [← heq]
          exact hy
      obtain ⟨z, refs'', hroute, hfinal, hz, hkinds'⟩ := hold hy'
      exact ⟨z, refs'', .head hlink hroute, hfinal, hz, hkinds'.trans hkinds⟩
  · have heq : M.node a = N.node a := heq
    rw [Answered, heq] at ha
    exact hold ha

theorem started (setup : ι → Side → Setup) : (Network.started (β := β) setup).Relaying setup where
  pair i := Pair.Relaying.started (setup i)
  distinct := List.nodup_nil
  moved := by rintro _ ⟨⟩
  origin := by rintro _ _ _ ⟨⟩

/-- **Every step.** -/
theorem step [DecidableEq ι] (h : N.Relaying setup) (hhonest : Honest l N) (hstep : Network.step l N = some M) :
    M.Relaying setup := by
  obtain ⟨i, label, t, nodeLabel, hpair, hlabel, hturned, hbecause⟩ := step_cases hstep
  have hpairs : ∀ j, (M.pair j).Relaying (setup j) := by
    intro j
    by_cases hj : j = i
    · subst hj
      exact (h.pair j).step (hlabel hhonest) hpair
    · rw [hturned.elsewhere j hj]
      exact h.pair j
  have hold {e : Place ι × Place ι} (he : e ∈ N.moved) := And.intro (h.not_served_step hturned he)
    (h.moved_step hturned hbecause he)
  refine ⟨hpairs, ?_, fun e he => ?_, fun a body refs ha => h.origin_step hpairs hturned hbecause ha⟩
  · cases hbecause with
    | own _ hmoved => exact hmoved ▸ h.distinct
    | pass _ _ _ _ hmoved => exact hmoved ▸ h.distinct
    | move _ hnew hmoved =>
      rw [hmoved, List.map_append, List.nodup_append]
      refine ⟨h.distinct, List.nodup_singleton _, ?_⟩
      rintro a ha b hb rfl
      obtain rfl := List.mem_singleton.mp hb
      exact hnew ha
  · cases hbecause with
    | own _ hmoved => exact hold (hmoved ▸ he)
    | pass _ _ _ _ hmoved => exact hold (hmoved ▸ he)
    | @move a hheld _ hmoved =>
      rw [hmoved] at he
      obtain he | hnew := List.mem_append.mp he
      · exact hold he
      · obtain rfl := List.mem_singleton.mp hnew
        have hheld' : a.port ∈ (M.node a).held := held_step hturned hheld fun _ _ => List.not_mem_nil
        refine ⟨fun hserved => ?_, .inl hheld'⟩
        obtain ⟨e, he, hport⟩ := List.mem_map.mp hserved
        have hlinear : (M.node a).Linear := ((hpairs a.pair).side a.side).linear
        exact (hlinear.uses_of_served he).1 (hport ▸ hheld')

theorem of_run [DecidableEq ι] {ls : List (NetworkLabel ι β)}
    (hrun : Transition.Run Network.step Honest ls (Network.started setup) N) : N.Relaying setup :=
  hrun.invariant (P := Relaying setup) (fun _ _ _ h hhonest hstep => h.step hhonest hstep) (started setup)

/-! ## The way of a port -/

/-- A port that was sent is not one that was taken to another pair. -/
theorem not_moved (h : N.Relaying setup) (hsent : N.Sent a) : ∀ b, (a, b) ∉ N.moved := by
  intro b hmem
  have hspent := (h.side a).spent
  obtain ⟨hnot, hheld | ⟨body, refs, _, hanswered, -⟩⟩ := h.moved _ hmem
  · exact hspent.not_held hsent hheld
  · exact hnot (hspent.served hsent (List.mem_map_of_mem (f := Prod.fst) hanswered))

/-- **A port goes on as one port.** -/
theorem link_unique (h : N.Relaying setup) {c : Place ι} (hb : N.Link a b) (hc : N.Link a c) : b = c := by
  cases hb with
  | @carried i s x y hy =>
    cases hc with
    | carried hy' => rw [(h.pair i).carried_unique hy hy']
    | moved hc => exact absurd hc (h.not_moved (a := ⟨i, s, x⟩) hy.given c)
  | moved hb =>
    cases hc with
    | @carried i s x y hy => exact absurd hb (h.not_moved (a := ⟨i, s, x⟩) hy.given b)
    | moved hc => exact congrArg Prod.snd (List.inj_on_of_nodup_map h.distinct hb hc rfl)

/-- Local code answers on the last port. -/
theorem last_of_final (h : N.Relaying setup) {body : β} {refs : List LocalRef} (hfinal : N.Final a)
    (ha : N.Answered a body refs) : ¬N.Link a b := by
  intro hlink
  cases hlink with
  | @carried i s x y hy =>
    exact hfinal.1 (((h.pair i).side s).spent.served hy.given (List.mem_map_of_mem (f := Prod.fst) ha))
  | moved hb => exact hfinal.2 (List.mem_map_of_mem hb)

/-- What a port got, the port it goes on as has got. -/
theorem answered_of_link (h : N.Relaying setup) {body : β} {refs : List LocalRef} (hlink : N.Link a b)
    (ha : N.Answered a body refs) : ∃ refs', N.Answered b body refs' ∧ kinds refs' = kinds refs := by
  cases hlink with
  | @carried i s x y hy =>
    obtain ⟨y', refs', hy', hanswered, hkinds⟩ := (h.pair i).answered_back hy.given ha
    rw [(h.pair i).carried_unique hy hy']
    exact ⟨refs', hanswered, hkinds⟩
  | moved hb =>
    have hlinear := (h.side a).linear
    obtain ⟨-, hheld | ⟨body', refs', refs'', ha', hb', hkinds⟩⟩ := h.moved _ hb
    · exact absurd (List.mem_map_of_mem (f := Prod.fst) ha) (hlinear.not_answered hheld)
    · obtain ⟨rfl, rfl⟩ := ReplyValue.rpc.inj (hlinear.value_unique ha ha')
      exact ⟨refs'', hb', hkinds⟩

theorem answered_of_route (h : N.Relaying setup) {body : β} {refs : List LocalRef} (hroute : N.Route a b)
    (ha : N.Answered a body refs) : ∃ refs', N.Answered b body refs' ∧ kinds refs' = kinds refs := by
  induction hroute with
  | single hlink => exact h.answered_of_link hlink ha
  | tail _ hlink ih =>
    obtain ⟨refs', hanswered, hkinds⟩ := ih
    obtain ⟨refs'', hanswered', hkinds'⟩ := h.answered_of_link hlink hanswered
    exact ⟨refs'', hanswered', hkinds'.trans hkinds⟩

/-- All ways from a port lead to the last port. -/
theorem leads (h : N.Relaying setup) {z : Place ι} (hz : ReflTransGen N.Link a z) (hlast : ∀ b, ¬N.Link z b)
    (hb : ReflTransGen N.Link a b) : ReflTransGen N.Link b z := by
  have hunique : Relator.RightUnique N.Link := fun _ _ _ => h.link_unique
  obtain hleads | hback := ReflTransGen.total_of_right_unique hunique hb hz
  · exact hleads
  · obtain rfl | ⟨c, hlink, -⟩ := ReflTransGen.cases_head hback
    · exact .refl
    · exact absurd hlink (hlast c)

end Relaying

end

/-- **Transparency of remote calls.** On a side, whatever the peer sends, each port is answered at most once. In
    every run of a network of honest sides, if a port that was sent in a message is answered, then the port goes
    on, hop by hop, to one last port, on which local code has answered with this value; and the same value was
    sent on every port on the way. -/
theorem rpc_transparent [DecidableEq ι] :
    (∀ (setup : Setup) (ls : List (Label β)) (n : Node β),
      Transition.Run Node.step Transition.Any ls (Node.started setup) n →
      ∀ port, (n.replies.map Prod.fst).count port ≤ 1) ∧
    ∀ (setup : ι → Side → Setup) (ls : List (NetworkLabel ι β)) (N : Network ι β),
      Transition.Run Network.step Honest ls (Network.started setup) N →
      ∀ (a : Place ι) (body : β) (refs : List LocalRef), N.Sent a → N.Answered a body refs →
        (∃ z refs', N.Route a z ∧ N.Final z ∧ N.Answered z body refs' ∧ kinds refs' = kinds refs ∧
          (∀ b, ¬N.Link z b) ∧ ∀ b, N.Route a b → ReflTransGen N.Link b z) ∧
        ∀ b, N.Route a b → ∃ refs', N.Answered b body refs' ∧ kinds refs' = kinds refs := by
  refine ⟨fun setup ls n hrun => (Node.Linear.of_run hrun).answered_once, fun setup ls N hrun a body refs hsent ha => ?_⟩
  have h := Relaying.of_run hrun
  obtain ⟨z, refs', hz, hfinal, hanswered, hkinds⟩ := h.origin a body refs ha
  have hlast : ∀ b, ¬N.Link z b := fun b => h.last_of_final hfinal hanswered
  refine ⟨⟨z, refs', ?_, hfinal, hanswered, hkinds, hlast, fun b hroute => h.leads hz hlast hroute.to_reflTransGen⟩,
    fun b hroute => h.answered_of_route hroute ha⟩
  obtain rfl | hroute := reflTransGen_iff_eq_or_transGen.mp hz
  · -- it was sent, so it is not the last
    exact absurd ((h.side z).spent.served hsent (List.mem_map_of_mem (f := Prod.fst) ha)) hfinal.1
  · exact hroute

/-- The left side of a pair sends its port 0 to the actor that the right side has published as 8, and the right
    side rebuilds it. -/
def call : List (PairLabel Nat) :=
  [.receive .left, .move .left (.handle ⟨7⟩ none .flushed),
   .receive .right, .move .right (.handle ⟨7⟩ none .flushed),
   .move .right (.request (.publishActor 0 true)), .move .right (.handle ⟨8⟩ none .flushed),
   .move .left (.instantiate remoteEight), .move .left (.register 2), .move .left (.handle ⟨7⟩ none .flushed),
   .move .left (.sendTo 2 10 [.replyPort none 0]), .move .left (.relay 2), .move .left (.forward 2),
   .move .left (.handle ⟨7⟩ none .flushed), .move .left (.taskPublish ⟨2, 0⟩),
   .move .left (.handle ⟨9⟩ none .flushed), .move .left (.taskPublished ⟨2, 0⟩), .move .left (.taskPost ⟨2, 0⟩),
   .move .left (.handle ⟨7⟩ none .flushed), .receive .right, .move .right (.handle ⟨7⟩ none .flushed),
   .move .right .rebuildRef, .move .right .rebuildDone, .move .right (.handle ⟨7⟩ none .flushed)]

/-- What was sent on the rebuilt port goes back. -/
def comeBack : List (PairLabel Nat) :=
  [.move .right (.forwardReply 1), .move .right (.relay 2), .move .right (.forward 2),
   .move .right (.handle ⟨7⟩ none .flushed), .move .right (.taskPost ⟨2, 0⟩),
   .move .right (.handle ⟨7⟩ none .flushed), .receive .left, .move .left (.handle ⟨7⟩ none .flushed),
   .move .left .rebuildDone, .move .left (.answer 3)]

/-- A port goes through two pairs, and 42 comes back. -/
def twoHops : List (NetworkLabel Bool Nat) :=
  [.step false (.move .left .openPort)] ++ call.map (.step false) ++ [.move ⟨false, .right, 1⟩ true .left] ++
  call.map (.step true) ++ [.step true (.move .right (.trigger 1 42 []))] ++ comeBack.map (.step true) ++
  [.pass ⟨false, .right, 1⟩ []] ++ comeBack.map (.step false)

theorem rpc_transparent_twoHops : ∃ N,
    Transition.exec (Transition.guarded Network.step Honest) twoHops (Network.started fun _ => twoSides) = some N ∧
    ∃ z refs, N.Route ⟨false, .left, 0⟩ z ∧ N.Answered z 42 refs := by
  have heval : (Transition.exec (Transition.guarded Network.step Honest) twoHops
      (Network.started fun _ => twoSides)).map (fun N =>
        decide (0 ∈ (N.node ⟨false, .left, 0⟩).givenPorts ∧
          (0, .rpc 42 []) ∈ (N.node ⟨false, .left, 0⟩).replies)) = some true := by
    decide +kernel
  obtain ⟨N, hN, hfacts⟩ := Option.map_eq_some_iff.mp heval
  obtain ⟨hsent, hanswered⟩ := of_decide_eq_true hfacts
  obtain ⟨⟨z, refs, hroute, -, hz, -⟩, -⟩ :=
    rpc_transparent.2 _ twoHops N (Transition.run_of_exec_guarded hN) ⟨false, .left, 0⟩ 42 [] hsent hanswered
  exact ⟨N, hN, z, refs, hroute, hz⟩

end Network

end Portal
end Wormhole
