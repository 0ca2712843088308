import Wormhole.Lib.Log
import Wormhole.Nexus.Steps
import Wormhole.Portal.Registry

/-!
# `Nexus.Names` — two levels of names

The names that a portal resolves for its peer are those published on it, and below them those published on
the nexus. A portal keeps names for ids and ids for actors, reuses the id of an actor it knows, and asks the
nexus anew for every request that it cannot answer itself. All of this comes to the same as two logs of
publications, of which the last entry counts.
-/

namespace Wormhole

open Portal

namespace Portal

variable {β : Type}

/-! ## The names of a portal -/

/-- The actor that a portal resolves a name to, by itself. -/
def PortalActorState.resolve (state : PortalActorState) (name : String) : Option ActorId :=
  (state.namedActors.lookup name).bind fun id => state.publishedActors.lookup id

/-- What the handling of a message publishes under a name. -/
def PortalActorMessage.names : PortalActorMessage β → List (String × ActorId)
  | .publishNamedActor name actor _ => [(name, actor)]
  | _ => []

/-- The answer that a store gives in which the name has this value. -/
def PortalActorState.Answers (state : PortalActorState) : Resolution → Option ActorId → Prop
  | .ok r, some actor => state.Denotes r actor
  | .err error, none => error = .actorNotFound
  | _, _ => False

section

variable {env : HandleEnv} {state : PortalActorState} {m : PortalActorMessage β} {name : String}

theorem PortalActorState.Consistent.resolve_eq_none (h : state.Consistent) :
    state.resolve name = none ↔ state.namedActors.lookup name = none := by
  unfold resolve
  cases hname : state.namedActors.lookup name with
  | none => exact iff_of_true rfl rfl
  | some id =>
    obtain ⟨actor, hactor⟩ := h.named name id hname
    refine iff_of_false ?_ nofun
    rw [Option.bind_some, hactor]
    nofun

/-- **A turn keeps the names in step with the publications.** -/
theorem represents_handle {log : List (String × ActorId)} (h : Log.Represents state.resolve log)
    (hconsistent : state.Consistent) (huuid : state.publishedActors.lookup env.uuid = none) :
    Log.Represents (handle env state m).state.resolve (log ++ m.names) := by
  -- the names that are not published anew stay
  have hkeep {name : String} (hname : (handle env state m).state.namedActors.lookup name =
      state.namedActors.lookup name) : (handle env state m).state.resolve name = state.resolve name := by
    unfold PortalActorState.resolve
    rw [hname]
    cases hid : state.namedActors.lookup name with
    | none => rfl
    | some id =>
      obtain ⟨actor, hactor⟩ := hconsistent.named name id hid
      rw [Option.bind_some, Option.bind_some, hactor, lookup_published env state huuid m hactor]
  obtain ⟨hm, heq⟩ | ⟨name, actor, reply, id, rfl, heq, hid⟩ := handle_names env state m
  · have hnone : m.names = [] := by
      cases m with
      | publishNamedActor name actor reply => exact absurd rfl (hm name actor reply)
      | _ => rfl
    rw [hnone, List.append_nil]
    intro name
    rw [hkeep (by rw [heq]), h name]
  · refine h.write fun name' => ?_
    split
    · rename_i hname
      rw [hname, PortalActorState.resolve, heq, AList.lookup_insert, Option.bind_some, hid]
    · rename_i hname
      exact hkeep (by rw [heq, AList.lookup_insert_ne hname])

theorem subject_request (hconsistent : state.Consistent) (nexus : Option (Option ActorId))
    (id : CrossPortalMessageId) : (PortalActorMessage.content (β := β) (some (.requestActorByName id name))).subject
      state nexus = (state.resolve name).or nexus.join := by
  cases hname : state.namedActors.lookup name with
  | none =>
    rw [hconsistent.resolve_eq_none.mpr hname, Option.none_or]
    simp only [PortalActorMessage.subject, hname]
  | some opaqueId =>
    obtain ⟨actor, hactor⟩ := hconsistent.named name opaqueId hname
    have hresolve : state.resolve name = some actor := by rw [PortalActorState.resolve, hname, Option.bind_some, hactor]
    rw [hresolve, Option.some_or]
    simp only [PortalActorMessage.subject, hname, hactor]

/-- **The answer to a request** is about the actor that the portal resolves the name to, or else about the one
    that the nexus has answered. -/
theorem handle_request {channel : ConduitID} (id : CrossPortalMessageId) (hconsistent : state.Consistent)
    (huuid : state.publishedActors.lookup env.uuid = none) (hopen : state.channelState = .opened channel)
    (hsink : env.sink ≠ .refused) (hanswer : state.resolve name = none → env.nexus ≠ none) :
    ∃ result, (handle (β := β) env state (.content (some (.requestActorByName id name)))).frames =
        [.responseActorByName id result] ∧
      (handle (β := β) env state (.content (some (.requestActorByName id name)))).state.Answers result
        ((state.resolve name).or env.nexus.join) := by
  have hframes (state' : PortalActorState) (effects : List (Effect β)) (result : Resolution)
      (heffects : effects.filterMap Effect.frame? = []) :
      (sending env state' effects (.responseActorByName id result)).frames = [.responseActorByName id result] := by
    rw [frames_sending, heffects, if_neg hsink, List.nil_append]
  have hone : ∃ result, (handle (β := β) env state (.content (some (.requestActorByName id name)))).frames =
      [.responseActorByName id result] ∧
      ∀ error, result = .err error → error = .actorNotFound ∧ (state.resolve name).or env.nexus.join = none := by
    simp only [handle, handleContent, hopen, handleCrossPortalMessage]
    fun_cases handleRequestActorByName (β := β) env state channel id name with
    | case1 opaqueId hname => exact ⟨_, hframes _ _ _ rfl, by rintro _ ⟨⟩⟩
    | case2 hname hnexus => exact absurd hnexus (hanswer (hconsistent.resolve_eq_none.mpr hname))
    | case3 hname hnexus =>
      refine ⟨_, hframes _ _ _ rfl, ?_⟩
      rintro error ⟨⟩
      rw [hconsistent.resolve_eq_none.mpr hname, hnexus]
      exact ⟨rfl, rfl⟩
    | case4 hname actor hnexus publication =>
      exact ⟨_, hframes _ _ _ (frames_publishActor env state.publishedActors actor), by rintro _ ⟨⟩⟩
  obtain ⟨result, hresult, herror⟩ := hone
  refine ⟨result, hresult, ?_⟩
  cases result with
  | ok r =>
    have hminted : r ∈ (handle (β := β) env state (.content (some (.requestActorByName id name)))).minted := by
      rw [Turn.minted, hresult]
      exact List.mem_append_left _ (List.mem_singleton_self r)
    obtain ⟨actor, hsubject, hdenotes⟩ := handle_denotes hconsistent huuid hminted
    rw [subject_request hconsistent] at hsubject
    rw [hsubject]
    exact hdenotes
  | err error =>
    obtain ⟨rfl, hnone⟩ := herror error rfl
    rw [hnone]
    rfl

end
end Portal

namespace Nexus

variable {β : Type}

namespace World

/-! ## What a step does to one portal -/

/-- A portal stays as it is, moves, or is terminated from outside. -/
inductive Moves (l : WorldLabel β) (w : World β) (p : ActorId) (n : Node β) : Node β → Prop where
  | same (hl : ∀ label, l ≠ .portal p label) : Moves l w p n n
  | step {n' : Node β} (label : Label β) (hl : l = .portal p label)
      (hstep : Node.step label (w.enter n) = some n') : Moves l w p n n'
  | halted (hl : ∀ label, l ≠ .portal p label) (v : World β) : Moves l w p n ((v.enter n).halt .terminated)

section

variable {l : WorldLabel β} {w w' : World β} {p : ActorId} {n n' : Node β}

theorem moves_fail (hl : ∀ label, l ≠ .portal p label) (v : World β) (error : NexusError) (hnode : v.node p = some n) :
    ∃ n', (v.fail error).node p = some n' ∧ Moves l w p n n' := by
  have heq : (v.fail error).node p = some (if n.life = .running then (v.enter n).halt .terminated else n) := by
    show (v.node p).map _ = _
    rw [hnode]
    rfl
  refine ⟨_, heq, ?_⟩
  split
  · exact .halted hl v
  · exact .same hl

theorem takeTurn_node (htracked : w.Tracked) (draws : Draws) (m : NexusActorMessage) (rest : List NexusActorMessage)
    (hnode : w.node p = some n) : (w.takeTurn rest (handle (w.env draws) w.state m)).node p = some n := by
  have hne : p ≠ w.nextActor := Nat.ne_of_lt (htracked.fresh p n hnode)
  show ((handle (w.env draws) w.state m).spawned.lookup p).or (w.node p) = _
  obtain ⟨hspawned, -⟩ | ⟨_, _, -, hspawned, -⟩ := handle_portals (β := β) (w.env draws) w.state m
  · rw [hspawned]
    exact hnode
  · rw [hspawned, env_portal, List.lookup_cons, beq_false_of_ne hne]
    exact hnode

/-- **What a step does to a portal** that there is. -/
theorem moves_of_step (htracked : w.Tracked) (hstep : World.step l w = some w') (hnode : w.node p = some n) :
    ∃ n', w'.node p = some n' ∧ Moves l w p n n' := by
  cases l with
  | request r =>
    obtain ⟨-, rfl⟩ := request_inv hstep
    exact ⟨n, hnode, .same (by simp)⟩
  | dropReceiver receiver =>
    obtain ⟨-, rfl⟩ := dropReceiver_inv hstep
    exact ⟨n, hnode, .same (by simp)⟩
  | handle draws =>
    obtain ⟨-, m, rest, -, rfl⟩ := handle_inv hstep
    have hturn := takeTurn_node htracked draws m rest hnode
    cases (handle (β := β) (w.env draws) w.state m).error with
    | none => exact ⟨n, hturn, .same (by simp)⟩
    | some error => exact moves_fail (by simp) _ error hturn
  | supervise =>
    obtain ⟨-, event, rest, -, rfl⟩ := supervise_inv hstep
    exact ⟨n, hnode, .same (by simp)⟩
  | ask portal =>
    obtain ⟨m, name, -, -, rfl⟩ := ask_inv hstep
    exact ⟨n, hnode, .same (by simp)⟩
  | portal portal label =>
    -- the step is one of this portal or of another one
    obtain ⟨m, m', asking, hm, hmove, rfl⟩ := portal_leaves hstep
    by_cases hp : p = portal
    · subst hp
      rw [hnode] at hm
      cases hm
      exact ⟨m', leave_node_self, .step label rfl hmove⟩
    · refine ⟨n, by rw [leave_node_ne hp]; exact hnode, .same ?_⟩
      rintro label' ⟨⟩
      exact hp rfl
  | terminate portal =>
    obtain ⟨m, hm, -, rfl⟩ := terminate_inv hstep
    by_cases hp : p = portal
    · subst hp
      rw [hnode] at hm
      cases hm
      exact ⟨_, leave_node_self, .halted (by simp) w⟩
    · exact ⟨n, by rw [leave_node_ne hp]; exact hnode, .same (by simp)⟩
  | spawnActor => cases hstep; exact ⟨n, hnode, .same (by simp)⟩
  | exit actor =>
    obtain ⟨-, rfl⟩ := exit_inv hstep
    exact ⟨n, hnode, .same (by simp)⟩

/-- A portal that there was not is one that has just started. -/
theorem started_of_step (hstep : World.step l w = some w') (hnone : w.node p = none) (hnode : w'.node p = some n') :
    ∃ setup, n'.state = (Node.started (β := β) setup).state := by
  have hsame (h : w'.node p = w.node p) : ∃ setup, n'.state = (Node.started (β := β) setup).state := by
    rw [h, hnone] at hnode
    cases hnode
  cases l with
  | request r =>
    obtain ⟨-, rfl⟩ := request_inv hstep
    exact hsame rfl
  | dropReceiver receiver =>
    obtain ⟨-, rfl⟩ := dropReceiver_inv hstep
    exact hsame rfl
  | handle draws =>
    obtain ⟨-, m, rest, -, rfl⟩ := handle_inv hstep
    -- only a turn of the nexus makes portals, and those have just started
    have hturn {n : Node β} (h : (w.takeTurn rest (handle (w.env draws) w.state m)).node p = some n) :
        ∃ setup, n = .started setup := by
      have h : ((handle (w.env draws) w.state m).spawned.lookup p).or (w.node p) = some n := h
      rw [hnone, Option.or_none] at h
      obtain ⟨hspawned, -⟩ | ⟨identifier, _, -, hspawned, -⟩ :=
        handle_portals (β := β) (w.env draws) w.state m
      · rw [hspawned] at h
        cases h
      · rw [hspawned, List.lookup_cons] at h
        split at h
        · cases h; exact ⟨_, rfl⟩
        · cases h
    cases herror : (handle (β := β) (w.env draws) w.state m).error with
    | none =>
      rw [herror] at hnode
      obtain ⟨setup, rfl⟩ := hturn hnode
      exact ⟨setup, rfl⟩
    | some error =>
      rw [herror] at hnode
      obtain ⟨n, hn, rfl⟩ := Option.map_eq_some_iff.mp hnode
      obtain ⟨setup, rfl⟩ := hturn hn
      refine ⟨setup, ?_⟩
      split <;> rfl
  | supervise =>
    obtain ⟨-, event, rest, -, rfl⟩ := supervise_inv hstep
    exact hsame rfl
  | ask portal =>
    obtain ⟨m, name, -, -, rfl⟩ := ask_inv hstep
    exact hsame rfl
  | portal portal label =>
    obtain ⟨m, m', asking, hm, -, rfl⟩ := portal_leaves hstep
    by_cases hp : p = portal
    · subst hp
      rw [hnone] at hm
      cases hm
    · exact hsame (leave_node_ne hp)
  | terminate portal =>
    obtain ⟨m, hm, -, rfl⟩ := terminate_inv hstep
    by_cases hp : p = portal
    · subst hp
      rw [hnone] at hm
      cases hm
    · exact hsame (leave_node_ne hp)
  | spawnActor => cases hstep; exact hsame rfl
  | exit actor =>
    obtain ⟨-, rfl⟩ := exit_inv hstep
    exact hsame rfl

end

/-! ## The two logs -/

/-- What a step publishes on the nexus. -/
def published (l : WorldLabel β) (w : World β) : List (String × ActorId) :=
  match l, w.mailbox with
  | .handle _, .publishNamedActor name actor :: _ => [(name, actor)]
  | _, _ => []

/-- What a step publishes on a portal. -/
def publishedOn (p : ActorId) (l : WorldLabel β) (w : World β) : List (String × ActorId) :=
  match l, w.node p with
  | .portal q (.handle _ _ _), some n => if q = p then n.mailbox.head?.toList.flatMap PortalActorMessage.names else []
  | _, _ => []

section

variable {l : WorldLabel β} {w w' : World β} {p : ActorId} {n n' : Node β} {log : List (String × ActorId)}

/-- **The table of the nexus** has the last publication under each name. -/
theorem represents_of_step (h : Log.Represents (w.state.namedActors.lookup ·) log)
    (hstep : World.step l w = some w') : Log.Represents (w'.state.namedActors.lookup ·) (log ++ published l w) := by
  have hsame (hnone : published l w = []) (heq : w'.state.namedActors = w.state.namedActors) :
      Log.Represents (w'.state.namedActors.lookup ·) (log ++ published l w) := by
    rw [hnone, List.append_nil, heq]
    exact h
  cases l with
  | request r =>
    obtain ⟨-, rfl⟩ := request_inv hstep
    exact hsame rfl rfl
  | dropReceiver receiver =>
    obtain ⟨-, rfl⟩ := dropReceiver_inv hstep
    exact hsame rfl rfl
  | handle draws =>
    obtain ⟨-, m, rest, hmail, rfl⟩ := handle_inv hstep
    have hstate : ((w.takeTurn rest (handle (w.env draws) w.state m)).endTurn
        (handle (β := β) (w.env draws) w.state m).error).state = (handle (β := β) (w.env draws) w.state m).state := by
      cases (handle (β := β) (w.env draws) w.state m).error <;> rfl
    cases m with
    | publishNamedActor name actor =>
      have hlog : published (.handle draws) w = [(name, actor)] := by
        simp only [published, hmail]
      rw [hlog, hstate]
      show Log.Represents ((handlePublishNamedActor (β := β) w.state name actor).state.namedActors.lookup ·) _
      unfold handlePublishNamedActor
      split
      · rename_i hknown
        exact h.rewrite hknown
      · exact h.write fun name' => HashMap.lookup_insert_eq ..
    | _ =>
      refine hsame (by simp only [published, hmail]) ?_
      rw [hstate]
      exact handle_namedActors (by simp)
  | supervise =>
    obtain ⟨-, event, rest, -, rfl⟩ := supervise_inv hstep
    exact hsame rfl rfl
  | ask portal =>
    obtain ⟨m, name, -, -, rfl⟩ := ask_inv hstep
    exact hsame rfl rfl
  | portal portal label =>
    obtain ⟨m, m', asking, -, -, rfl⟩ := portal_leaves hstep
    exact hsame rfl rfl
  | terminate portal =>
    obtain ⟨m, -, -, rfl⟩ := terminate_inv hstep
    exact hsame rfl rfl
  | spawnActor => cases hstep; exact hsame rfl rfl
  | exit actor =>
    obtain ⟨-, rfl⟩ := exit_inv hstep
    exact hsame rfl rfl

/-- The registry of a portal is consistent, and its names are those of the log. -/
structure Named (p : ActorId) (log : List (String × ActorId)) (w : World β) : Prop where
  unborn : w.node p = none → log = []
  consistent : ∀ n, w.node p = some n → n.state.Consistent
  represents : ∀ n, w.node p = some n → Log.Represents n.state.resolve log

theorem Named.step (h : Named p log w) (htracked : w.Tracked) (hstep : World.step l w = some w') :
    Named p (log ++ publishedOn p l w) w' := by
  cases hnode : w.node p with
  | none =>
    have hlog : log ++ publishedOn p l w = [] := by
      have hnone : publishedOn p l w = [] := by
        simp only [publishedOn, hnode]
      rw [h.unborn hnode, hnone, List.append_nil]
    rw [hlog]
    refine ⟨fun _ => rfl, fun n hn => ?_, fun n hn => ?_⟩
    · obtain ⟨setup, hstate⟩ := started_of_step hstep hnode hn
      rw [hstate]
      exact (Node.Sound.started setup).consistent
    · obtain ⟨setup, hstate⟩ := started_of_step hstep hnode hn
      rw [hstate]
      exact .nil
  | some n =>
    have hconsistent := h.consistent n hnode
    have hrepresents := h.represents n hnode
    obtain ⟨n', hnode', hmoves⟩ := moves_of_step htracked hstep hnode
    suffices hgoal : n'.state.Consistent ∧ Log.Represents n'.state.resolve (log ++ publishedOn p l w) by
      refine ⟨fun hnone => ?_, fun m hm => ?_, fun m hm => ?_⟩
      · rw [hnode'] at hnone
        cases hnone
      · rw [hnode'] at hm
        cases hm
        exact hgoal.1
      · rw [hnode'] at hm
        cases hm
        exact hgoal.2
    have hquiet (hl : publishedOn p l w = []) (hstate : n'.state = n.state) :
        n'.state.Consistent ∧ Log.Represents n'.state.resolve (log ++ publishedOn p l w) := by
      rw [hl, List.append_nil, hstate]
      exact ⟨hconsistent, hrepresents⟩
    have hother (hl : ∀ label, l ≠ .portal p label) : publishedOn p l w = [] := by
      unfold publishedOn
      split
      · rename_i q _ _ _ _ _
        refine if_neg ?_
        rintro rfl
        exact hl _ rfl
      · rfl
    cases hmoves with
    | same hl => exact hquiet (hother hl) rfl
    | halted hl v => exact hquiet (hother hl) rfl
    | step label hl hmove =>
      subst hl
      -- only a turn of the portal writes to its registry
      by_cases hhandle : ∃ uuid answer sink, label = .handle uuid answer sink
      · obtain ⟨uuid, answer, sink, rfl⟩ := hhandle
        obtain ⟨⟨-, -, huuid, -⟩, m, rest, hmail, hturned⟩ := Node.turned_of_handle hmove
        have hlog : publishedOn p (.portal p (.handle uuid answer sink)) w = m.names := by
          have hhead : n.mailbox.head? = some m := congrArg List.head? hmail
          simp only [publishedOn, hnode, if_true, hhead, Option.toList_some, List.flatMap_singleton]
        rw [hlog, hturned.state]
        exact ⟨handle_consistent hconsistent huuid, represents_handle hrepresents hconsistent huuid⟩
      · refine hquiet ?_ ?_
        · unfold publishedOn
          split
          · rename_i heq _
            cases heq
            exact absurd ⟨_, _, _, rfl⟩ hhandle
          · rfl
        · obtain hidle | ⟨uuid, answer, sink, -, -, heq, -⟩ := Node.idle_or_turned hmove
          · exact hidle.state
          · exact absurd ⟨uuid, answer, sink, heq⟩ hhandle

/-- Every reachable world has the names of its two logs. -/
theorem Named.of_run {callback : Option ActorId} {actors : Nat} {ls : List (WorldLabel β)}
    (hrun : Transition.Run World.step Transition.Any ls (World.initial callback actors) w) :
    w.Tracked ∧ Named p (Transition.trace World.step (publishedOn p) ls (World.initial callback actors)) w ∧
      Log.Represents (w.state.namedActors.lookup ·)
        (Transition.trace World.step published ls (World.initial callback actors)) := by
  have hnames := hrun.carry (fun _ _ _ h _ hstep => Tracked.step h hstep) (Tracked.initial callback actors)
  refine ⟨Tracked.of_run hrun, ?_, ?_⟩
  · apply hnames.tracing _ (R := Named p) (fun log l s t h hgood hstep => h.step hgood.1 hstep) []
    exact ⟨fun _ => rfl, nofun, nofun⟩
  · apply hrun.tracing _ (R := fun log w => Log.Represents (w.state.namedActors.lookup ·) log)
      (fun log l s t h _ hstep => represents_of_step h hstep) []
    exact .nil

end

/-! ## Questions to the nexus -/

/-- The portal asks the nexus for a name. -/
structure Wants (w : World β) (p : ActorId) (name : String) (n : Node β) : Prop where
  node : w.node p = some n
  asks : asks n = some name
  rebuilding : n.rebuilding = none

/-- What a step does to the questions, to the answers, and to the portals that wait for one. -/
structure Consults (l : WorldLabel β) (w w' : World β) : Prop where
  next : w.nextReceiver ≤ w'.nextReceiver
  posted : ∀ name rc, .queryNamedActor name rc ∈ w'.mailbox → .queryNamedActor name rc ∈ w.mailbox ∨
    rc.number = w.nextReceiver ∧ w'.nextReceiver = w.nextReceiver + 1 ∧ ∀ p, l = .ask p → ∃ n, w.Wants p name n
  answered : ∀ rc result, (rc, .namedActor result) ∈ w'.replies → (rc, .namedActor result) ∈ w.replies ∨
    ∃ draws name rest, l = .handle draws ∧ w.mailbox = .queryNamedActor name rc :: rest ∧
      result = w.state.namedActors.lookup name
  waits : ∀ p rc, w'.asking.lookup p = some rc →
    (w.asking.lookup p = some rc ∧ ∀ n, w.node p = some n → w'.node p = some n ∨
      ∃ label n', l = .portal p label ∧ (∀ uuid answer sink, label ≠ .handle uuid answer sink) ∧
        Node.step label (w.enter n) = some n' ∧ w'.node p = some n') ∨
    l = .ask p ∧ rc.number = w.nextReceiver ∧ w'.nextReceiver = w.nextReceiver + 1 ∧ w'.node p = w.node p

section

variable {l : WorldLabel β} {w w' : World β} {p : ActorId} {n n' : Node β} {draws : Draws} {m : NexusActorMessage}

theorem mem_replying {env : NexusEnv} {state : NexusActorState} {effects : List (NexusEffect β)} {reply rc : Receiver}
    {value value' : NexusReply} (h : (rc, value') ∈ (replying env state effects reply value).replies) :
    (rc, value') ∈ NexusTurn.replies { state, effects } ∨ (rc, value') = (reply, value) := by
  unfold replying at h
  split at h
  · unfold NexusTurn.replies at h
    rw [List.filterMap_append] at h
    exact (List.mem_append.mp h).imp_right fun hnew => List.mem_singleton.mp hnew
  · exact .inl h

/-- The nexus answers a question with what its table says. -/
theorem namedActor_of_handle {env : NexusEnv} {state : NexusActorState} {rc : Receiver} {result : Option ActorId}
    (h : (rc, .namedActor result) ∈ (handle (β := β) env state m).replies) :
    ∃ name, m = .queryNamedActor name rc ∧ result = state.namedActors.lookup name := by
  cases m with
  | connected identifier reply =>
    have h : (rc, .namedActor result) ∈ (handleConnected (β := β) env state identifier reply).replies := h
    revert h
    fun_cases handleConnected (β := β) env state identifier reply with
    | case1 => nofun
    | case2 =>
      intro h
      obtain h | h := mem_replying h <;> cases h
    | case3 => nofun
    | case4 =>
      intro h
      obtain h | h := mem_replying h <;> cases h
  | getAllPortals reply =>
    obtain h | h := mem_replying h <;> cases h
  | publishNamedActor name actor =>
    have h : (rc, .namedActor result) ∈ (handlePublishNamedActor (β := β) state name actor).replies := h
    unfold handlePublishNamedActor at h
    split at h <;> cases h
  | queryNamedActor name reply =>
    obtain h | h := mem_replying h
    · cases h
    · cases h
      exact ⟨name, rfl, rfl⟩

theorem ask_wants (hstep : World.step (.ask p) w = some w') : w.asking.lookup p = none ∧ ∃ n name, w.Wants p name n ∧
    w' = { w.post (.queryNamedActor name ⟨some p, w.nextReceiver⟩) with
        asking := w.asking.insert p ⟨some p, w.nextReceiver⟩
        nextReceiver := w.nextReceiver + 1 } := by
  obtain ⟨n, name, ⟨hnode, hname⟩, ⟨hidle, hasking⟩, heq⟩ := ask_inv hstep
  exact ⟨hasking, n, name, ⟨hnode, hname, hidle⟩, heq⟩

theorem mem_mailbox_post {w : World β} {m m' : NexusActorMessage} (h : m' ∈ (w.post m).mailbox) :
    m' ∈ w.mailbox ∨ m' = m := by
  obtain hold | hnew := List.mem_append.mp h
  · exact .inl hold
  · split at hnew
    · exact .inr (List.mem_singleton.mp hnew)
    · cases hnew

theorem consults_of_step (htracked : w.Tracked) (hstep : World.step l w = some w') : Consults l w w' := by
  -- what neither asks nor answers
  have hsame (hnext : w'.nextReceiver = w.nextReceiver)
      (hmail : w'.mailbox ⊆ w.mailbox) (hreplies : w'.replies = w.replies) (hasking : w'.asking = w.asking)
      (hnode : w'.node = w.node) : Consults l w w' := by
    refine ⟨Nat.le_of_eq hnext.symm, fun _ _ h => .inl (hmail h), fun _ _ h => .inl (hreplies ▸ h), ?_⟩
    intro p rc h
    rw [hasking] at h
    exact .inl ⟨h, fun n hn => .inl (by rw [hnode, hn])⟩
  cases l with
  | request r =>
    obtain ⟨-, rfl⟩ := request_inv hstep
    refine ⟨Nat.le_succ _, fun name rc h => ?_, fun _ _ h => .inl h, fun p rc h => .inl ⟨h, fun n hn => .inl hn⟩⟩
    refine (mem_mailbox_post h).imp_right fun heq => ?_
    cases r <;> cases heq
    exact ⟨rfl, rfl, by rintro _ ⟨⟩⟩
  | dropReceiver receiver =>
    obtain ⟨-, rfl⟩ := dropReceiver_inv hstep
    exact hsame rfl (List.Subset.refl _) rfl rfl rfl
  | handle draws =>
    obtain ⟨-, m, rest, hmail, rfl⟩ := handle_inv hstep
    have hreplies (rc : Receiver) (result : Option ActorId)
        (h : (rc, .namedActor result) ∈ w.replies ++ (handle (β := β) (w.env draws) w.state m).replies) :
        (rc, .namedActor result) ∈ w.replies ∨ ∃ draws' name rest', WorldLabel.handle (β := β) draws = .handle draws' ∧
          w.mailbox = .queryNamedActor name rc :: rest' ∧ result = w.state.namedActors.lookup name := by
      refine (List.mem_append.mp h).imp_right fun hnew => ?_
      obtain ⟨name, rfl, hresult⟩ := namedActor_of_handle hnew
      exact ⟨draws, name, rest, rfl, hmail, hresult⟩
    cases (handle (β := β) (w.env draws) w.state m).error with
    | none =>
      refine ⟨Nat.le_refl _, fun name rc h => .inl ?_, hreplies, fun p rc h => .inl ⟨h, fun n hn => .inl ?_⟩⟩
      · rw [hmail]
        exact List.mem_cons_of_mem _ h
      · exact takeTurn_node htracked _ _ _ hn
    | some error => exact ⟨Nat.le_refl _, fun _ _ h => absurd h List.not_mem_nil, hreplies, by rintro _ _ ⟨⟩⟩
  | supervise =>
    obtain ⟨-, event, rest, -, rfl⟩ := supervise_inv hstep
    exact hsame rfl (List.Subset.refl _) rfl rfl rfl
  | ask portal =>
    obtain ⟨-, n, name, hwants, rfl⟩ := ask_wants hstep
    refine ⟨Nat.le_succ _, fun name' rc h => ?_, fun _ _ h => .inl h, fun p rc h => ?_⟩
    · refine (mem_mailbox_post h).imp_right fun heq => ?_
      cases heq
      exact ⟨rfl, rfl, fun p hp => by cases hp; exact ⟨n, hwants⟩⟩
    · have h : (w.asking.insert portal ⟨some portal, w.nextReceiver⟩).lookup p = some rc := h
      rw [HashMap.lookup_insert_eq] at h
      split at h
      · rename_i hp
        cases h
        exact .inr ⟨by rw [hp], rfl, rfl, rfl⟩
      · exact .inl ⟨h, fun n hn => .inl hn⟩
  | portal portal label =>
    obtain ⟨n, n', hnode, hmove, hcases⟩ := portal_inv hstep
    have hother (asking : HashMap ActorId Receiver) {p : ActorId} (hp : p ≠ portal) (m : Node β)
        (hm : w.node p = some m) :
        ({ w with asking }.leave portal n n').node p = some m := (leave_node_ne hp).trans hm
    obtain ⟨hlabel, rfl⟩ | ⟨uuid, answer, sink, rfl, -, rfl⟩ := hcases
    · refine ⟨Nat.le_refl _, fun _ _ h => .inl h, fun _ _ h => .inl h, fun p rc h => .inl ⟨h, fun m hm => ?_⟩⟩
      by_cases hp : p = portal
      · subst hp
        rw [hnode] at hm
        cases hm
        exact .inr ⟨label, n', rfl, hlabel, hmove, leave_node_self⟩
      · exact .inl (hother w.asking hp m hm)
    · refine ⟨Nat.le_refl _, fun _ _ h => .inl h, fun _ _ h => .inl h, fun p rc h => .inl ?_⟩
      have h : (w.asking.erase portal).lookup p = some rc := h
      rw [HashMap.lookup_erase_eq] at h
      split at h
      · cases h
      · rename_i hp
        exact ⟨h, fun m hm => .inl (hother _ hp m hm)⟩
  | terminate portal =>
    obtain ⟨n, hnode, -, rfl⟩ := terminate_inv hstep
    refine ⟨Nat.le_refl _, fun _ _ h => .inl h, fun _ _ h => .inl h, fun p rc h => .inl ?_⟩
    have h : (w.asking.erase portal).lookup p = some rc := h
    rw [HashMap.lookup_erase_eq] at h
    split at h
    · cases h
    · rename_i hp
      exact ⟨h, fun m hm => .inl ((leave_node_ne hp).trans hm)⟩
  | spawnActor => cases hstep; exact hsame rfl (List.Subset.refl _) rfl rfl rfl
  | exit actor =>
    obtain ⟨-, rfl⟩ := exit_inv hstep
    exact hsame rfl (List.Subset.refl _) rfl rfl rfl

/-- The receivers in questions, in answers and at portals have been drawn. -/
structure Drawn (w : World β) : Prop where
  mailbox : ∀ name rc, .queryNamedActor name rc ∈ w.mailbox → rc.number < w.nextReceiver
  replies : ∀ rc result, (rc, .namedActor result) ∈ w.replies → rc.number < w.nextReceiver
  asking : ∀ p rc, w.asking.lookup p = some rc → rc.number < w.nextReceiver

theorem Drawn.step (h : w.Drawn) (htracked : w.Tracked) (hstep : World.step l w = some w') : w'.Drawn := by
  have hconsults := consults_of_step htracked hstep
  constructor
  · intro name rc hm
    obtain hold | ⟨hnumber, hnext, -⟩ := hconsults.posted name rc hm
    · exact Nat.lt_of_lt_of_le (h.mailbox name rc hold) hconsults.next
    · rw [hnumber, hnext]
      exact Nat.lt_succ_self _
  · intro rc result hr
    obtain hold | ⟨draws, name, rest, -, hmail, -⟩ := hconsults.answered rc result hr
    · exact Nat.lt_of_lt_of_le (h.replies rc result hold) hconsults.next
    · refine Nat.lt_of_lt_of_le (h.mailbox name rc ?_) hconsults.next
      rw [hmail]
      exact List.mem_cons_self
  · intro p rc hr
    obtain ⟨hold, -⟩ | ⟨-, hnumber, hnext, -⟩ := hconsults.waits p rc hr
    · exact Nat.lt_of_lt_of_le (h.asking p rc hold) hconsults.next
    · rw [hnumber, hnext]
      exact Nat.lt_succ_self _

theorem asks_eq_some {n : Node β} {name : String} (h : asks n = some name) : ∃ channel id rest,
    n.state.channelState = .opened channel ∧ n.mailbox = .content (some (.requestActorByName id name)) :: rest ∧
      n.state.namedActors.lookup name = none := by
  unfold asks at h
  split at h
  · rename_i channel id name' rest hopen hmail
    split at h
    · rename_i hnone
      cases h
      exact ⟨channel, id, rest, hopen, hmail, hnone⟩
    · cases h
  · cases h

/-- A portal that asks the nexus goes on asking until it takes its next message. -/
theorem Wants.step {name : String} {label : Label β} (h : w.Wants p name n)
    (hlabel : ∀ uuid answer sink, label ≠ .handle uuid answer sink)
    (hmove : Node.step label (w.enter n) = some n') (hnode : w'.node p = some n') :
    w'.Wants p name n' ∧ n'.handled = n.handled := by
  obtain ⟨channel, id, rest, hopen, hmail, hnone⟩ := asks_eq_some h.asks
  have hgoal (hstate : n'.state = n.state) (hmail' : ∃ ms, n'.mailbox = n.mailbox ++ ms)
      (hrebuilding : n'.rebuilding = none) (hhandled : n'.handled = n.handled) :
      w'.Wants p name n' ∧ n'.handled = n.handled := by
    obtain ⟨ms, hms⟩ := hmail'
    refine ⟨⟨hnode, ?_, hrebuilding⟩, hhandled⟩
    simp only [World.asks, hstate, hopen, hms, hmail, List.cons_append, hnone, if_true]
  cases hpump : label.isPump with
  | false =>
    have hq := Node.quiet_of_step hpump hmove
    have hne : label ≠ .rebuildRef := by
      rintro rfl
      obtain ⟨r, ref, todo, hr, -⟩ := Node.rebuildRef_inv hmove
      have hr : n.rebuilding = some r := hr
      rw [h.rebuilding] at hr
      cases hr
    obtain ⟨ms, hms, -⟩ := hq.mailbox
    exact hgoal hq.state ⟨ms, hms⟩ ((hq.rebuilding hne).trans h.rebuilding) hq.handled
  | true =>
    cases label with
    | recv frame =>
      obtain ⟨-, rfl⟩ := Node.recv_inv hmove
      obtain _ | _ | _ | _ := frame <;> exact hgoal rfl ⟨_, rfl⟩ h.rebuilding rfl
    | handle uuid answer sink => exact absurd rfl (hlabel uuid answer sink)
    | rebuildDone =>
      obtain ⟨r, hr, -⟩ := Node.rebuildDone_inv hmove
      have hr : n.rebuilding = some r := hr
      rw [h.rebuilding] at hr
      cases hr
    | _ => cases hpump

/-- The nexus has answered the question that `rc` stands for, since the portal took its last message, with what
    its table said then. -/
def Answered (H : WorldLabel β → World β → Prop) (p : ActorId) (rc : Receiver) (name : String) (n : Node β)
    (result : Option ActorId) : Prop :=
  ∃ draws v rest nv, H (.handle draws) v ∧ v.mailbox = .queryNamedActor name rc :: rest ∧ v.node p = some nv ∧
    nv.handled = n.handled ∧ result = v.state.namedActors.lookup name

/-- **What a portal waits for.** -/
def Waiting (p : ActorId) (H : WorldLabel β → World β → Prop) (w : World β) : Prop :=
  ∀ rc, w.asking.lookup p = some rc → ∃ name n, w.Wants p name n ∧
    (∀ name', .queryNamedActor name' rc ∈ w.mailbox → name' = name) ∧
    ∀ result, (rc, .namedActor result) ∈ w.replies → Answered H p rc name n result

theorem Waiting.step {H : WorldLabel β → World β → Prop} (h : Waiting p H w) (htracked : w.Tracked) (hdrawn : w.Drawn)
    (hstep : World.step l w = some w') : Waiting p (fun l' u => H l' u ∨ l' = l ∧ u = w) w' := by
  have hconsults := consults_of_step htracked hstep
  intro rc hrc
  obtain ⟨hold, hnode⟩ | ⟨rfl, hnumber, hnext, hsame⟩ := hconsults.waits p rc hrc
  · obtain ⟨name, n, hwants, hquestions, hanswers⟩ := h rc hold
    have hlt := hdrawn.asking p rc hold
    have hwants' : ∃ n', w'.Wants p name n' ∧ n'.handled = n.handled := by
      obtain hn | ⟨label, n', -, hlabel, hmove, hn⟩ := hnode n hwants.node
      · exact ⟨n, ⟨hn, hwants.asks, hwants.rebuilding⟩, rfl⟩
      · exact ⟨n', hwants.step hlabel hmove hn⟩
    obtain ⟨n', hwants', hhandled⟩ := hwants'
    refine ⟨name, n', hwants', fun name' hm => ?_, fun result hr => ?_⟩
    · obtain hm | ⟨hnumber, -⟩ := hconsults.posted name' rc hm
      · exact hquestions name' hm
      · omega
    · obtain hr | ⟨draws, name', rest, rfl, hmail, hresult⟩ := hconsults.answered rc result hr
      · obtain ⟨draws, v, rest, nv, hH, hmail, hnv, heq, hresult⟩ := hanswers result hr
        exact ⟨draws, v, rest, nv, .inl hH, hmail, hnv, heq.trans hhandled.symm, hresult⟩
      · obtain rfl := hquestions name' (by rw [hmail]; exact List.mem_cons_self)
        exact ⟨draws, w, rest, n, .inr ⟨rfl, rfl⟩, hmail, hwants.node, hhandled.symm, hresult⟩
  · obtain ⟨-, n, name, hwants, heq⟩ := ask_wants hstep
    refine ⟨name, n, ⟨hsame.trans hwants.node, hwants.asks, hwants.rebuilding⟩, fun name' hm => ?_, fun result hr => ?_⟩
    · obtain hm | ⟨-, -, hwants'⟩ := hconsults.posted name' rc hm
      · have := hdrawn.mailbox name' rc hm
        omega
      · obtain ⟨n', hwants'⟩ := hwants' p rfl
        have hn := hwants'.node
        rw [hwants.node] at hn
        cases hn
        have hasks := hwants'.asks
        rw [hwants.asks] at hasks
        exact (Option.some.inj hasks).symm
    · obtain hr | ⟨draws, name', rest, hl, -⟩ := hconsults.answered rc result hr
      · have := hdrawn.replies rc result hr
        omega
      · cases hl

theorem Waiting.of_run {ls : List (WorldLabel β)} {x : World β} (htracked : x.Tracked) (hdrawn : x.Drawn)
    (hx : Waiting p (fun _ _ => False) x) (hrun : Transition.Run World.step Transition.Any ls x w) :
    Waiting p (Transition.Occurs World.step ls x) w := by
  have hcarried := hrun.carry (P := fun w => w.Tracked ∧ w.Drawn)
    (fun _ _ _ h _ hstep => ⟨h.1.step hstep, h.2.step h.1 hstep⟩) ⟨htracked, hdrawn⟩
  exact hcarried.history (R := Waiting p) (fun H l s t h hgood hstep => h.step hgood.1.1 hgood.1.2 hstep) hx

/-- The nexus has not answered the portal yet, if that has asked. -/
def Unanswered (w : World β) (p : ActorId) : Prop :=
  ∀ rc result, w.asking.lookup p = some rc → (rc, .namedActor result) ∉ w.replies

theorem Waiting.unanswered {H : WorldLabel β → World β → Prop} (h : Waiting p H w) (hnone : w.Unanswered p) :
    Waiting p (fun _ _ => False) w := by
  intro rc hrc
  obtain ⟨name, n, hwants, hquestions, -⟩ := h rc hrc
  exact ⟨name, n, hwants, hquestions, fun result hr => absurd hr (hnone rc result hrc)⟩

theorem Drawn.of_run {callback : Option ActorId} {actors : Nat} {ls : List (WorldLabel β)}
    (hrun : Transition.Run World.step Transition.Any ls (World.initial callback actors) w) : w.Drawn := by
  have hboth := hrun.invariant (P := fun w => w.Tracked ∧ w.Drawn)
    (fun _ _ _ h _ hstep => ⟨h.1.step hstep, h.2.step h.1 hstep⟩) ⟨Tracked.initial callback actors, nofun, nofun, nofun⟩
  exact hboth.2

/-- A portal that needs the nexus takes its message with an answer of the nexus. -/
theorem consulted_needed {answer : Option (Option ActorId)} {name : String} (hasks : asks n = some name)
    (hconsulted : w.consulted p n = some answer) : ∃ rc found, w.asking.lookup p = some rc ∧ answer = some found ∧
      (rc, .namedActor found) ∈ w.replies := by
  unfold consulted at hconsulted
  rw [hasks] at hconsulted
  obtain ⟨rc, hrc, hreply⟩ := Option.bind_eq_some_iff.mp hconsulted
  obtain ⟨reply, hmem, heq⟩ := List.exists_of_findSome?_eq_some hreply
  split at heq
  · split at heq
    · rename_i hsame
      cases heq
      cases hsame
      exact ⟨rc, _, hrc, rfl, hmem⟩
    · cases heq
  · cases heq

/-- The answer is the one to this very question. -/
theorem answered_of_consulted {H : WorldLabel β → World β → Prop} {answer : Option (Option ActorId)} {name : String}
    (h : Waiting p H w) (hnode : w.node p = some n) (hasks : asks n = some name)
    (hconsulted : w.consulted p n = some answer) :
    ∃ rc found, w.asking.lookup p = some rc ∧ answer = some found ∧ Answered H p rc name n found := by
  obtain ⟨rc, found, hrc, hanswer, hmem⟩ := consulted_needed hasks hconsulted
  obtain ⟨name', n', hwants, -, hanswers⟩ := h rc hrc
  have hn := hwants.node
  rw [hnode] at hn
  cases hn
  have hname := hwants.asks
  rw [hasks] at hname
  cases hname
  exact ⟨rc, found, hrc, hanswer, hanswers found hmem⟩

end

/-! ## Requests -/

/-- In the step `l` from `w` to `w'` the portal `p`, which moves from `n` to `n'`, answers a request for `name`. -/
structure Resolves (p : ActorId) (name : String) (result : Resolution) (l : WorldLabel β) (w w' : World β)
    (n n' : Node β) : Prop where
  label : ∃ uuid answer sink, l = .portal p (.handle uuid answer sink)
  before : w.node p = some n
  after : w'.node p = some n'
  answers : ∃ id rest, n.mailbox = .content (some (.requestActorByName id name)) :: rest ∧
    n'.sent = n.sent ++ [.content (some (.responseActorByName id result))]

section

variable {l : WorldLabel β} {w w' x : World β} {p : ActorId} {n n' : Node β} {name : String} {result : Resolution}
  {ls : List (WorldLabel β)}

/-- A turn that writes an answer is one of an open portal whose sink takes it. -/
theorem written_answer {env : HandleEnv} {state : PortalActorState} {id : CrossPortalMessageId}
    {sent : List (ConduitMessage β)} (h : sent ++ ((Portal.handle env state
        (.content (some (.requestActorByName id name)))).frames.map fun msg => ConduitMessage.content (some msg)) =
      sent ++ [.content (some (.responseActorByName id result))]) :
    (∃ channel, state.channelState = .opened channel) ∧ env.sink ≠ .refused ∧
      (Portal.handle (β := β) env state (.content (some (.requestActorByName id name)))).frames =
        [.responseActorByName id result] := by
  have hframes : (Portal.handle (β := β) env state (.content (some (.requestActorByName id name)))).frames =
      [.responseActorByName id result] := by
    obtain ⟨msg, hone, heq⟩ := List.map_eq_singleton_iff.mp (List.append_cancel_left h)
    cases heq
    exact hone
  have hopen : ∃ channel, state.channelState = .opened channel := by
    have hmem := mem_frames (hframes ▸ List.mem_singleton_self _)
    cases handle_causes hmem with
    | named channel _ _ _ hopen => exact ⟨channel, hopen⟩
    | fetched channel _ _ _ _ hopen => exact ⟨channel, hopen⟩
    | notFound channel _ _ hopen => exact ⟨channel, hopen⟩
  refine ⟨hopen, fun hsink => ?_, hframes⟩
  obtain ⟨channel, hopen⟩ := hopen
  have hnone : (Portal.handle (β := β) env state (.content (some (.requestActorByName id name)))).frames = [] := by
    simp only [Portal.handle, handleContent, hopen, handleCrossPortalMessage]
    fun_cases handleRequestActorByName (β := β) env state channel id name <;> first | rfl | simp +zetaDelta [hsink]
  rw [hnone] at hframes
  cases hframes

/-- **The answer to one request**: what the portal resolves the name to, or else what the nexus has answered
    since it was asked. -/
theorem Resolves.answered (h : Resolves p name result l w w' n n') (hstep : World.step l w = some w')
    (hconsistent : n.state.Consistent) {H : WorldLabel β → World β → Prop} (hwaiting : Waiting p H w) :
    (∃ actor, n.state.resolve name = some actor ∧ n'.state.Answers result (some actor)) ∨
    (n.state.resolve name = none ∧ ∃ rc found, w.asking.lookup p = some rc ∧ Answered H p rc name n found ∧
      n'.state.Answers result found) := by
  obtain ⟨uuid, answer, sink, rfl⟩ := h.label
  obtain ⟨id, rest, hmail, hsent⟩ := h.answers
  obtain ⟨m, m', hm, hmove, hcases⟩ := portal_inv hstep
  rw [h.before] at hm
  cases hm
  obtain ⟨hne, -⟩ | ⟨_, _, _, heq, hconsulted, rfl⟩ := hcases
  · exact absurd rfl (hne uuid answer sink)
  cases heq
  have hafter := h.after
  rw [leave_node_self] at hafter
  cases hafter
  obtain ⟨⟨-, -, huuid, -⟩, msg, rest', hmail', hturned⟩ := Node.turned_of_handle hmove
  have hmail' : n.mailbox = msg :: rest' := hmail'
  rw [hmail] at hmail'
  cases hmail'
  obtain ⟨hopen, hsink, hframes⟩ := written_answer (hturned.sent.symm.trans hsent)
  -- a portal that cannot answer by itself has asked the nexus
  have hasked (hnone : n.state.resolve name = none) :
      ∃ rc found, w.asking.lookup p = some rc ∧ answer = some found ∧ Answered H p rc name n found := by
    obtain ⟨channel, hopen⟩ := hopen
    have hopen : n.state.channelState = .opened channel := hopen
    have hasks : asks n = some name := by
      simp only [World.asks, hopen, hmail, hconsistent.resolve_eq_none.mp hnone, if_true]
    exact answered_of_consulted hwaiting h.before hasks hconsulted
  obtain ⟨channel, hopen⟩ := hopen
  have hconsistent' : (w.enter n).state.Consistent := hconsistent
  have hneeds : (w.enter n).state.resolve name = none → ((w.enter n).env uuid answer sink).nexus ≠ none := by
    intro hnone heq
    obtain ⟨rc, found, -, rfl, -⟩ := hasked hnone
    cases heq
  obtain ⟨result', hresult, hanswers⟩ := handle_request (β := β) id hconsistent' huuid hopen hsink hneeds
  obtain rfl : result' = result := by
    have := hresult.symm.trans hframes
    cases this
    rfl
  rw [← hturned.state] at hanswers
  have hanswers : n'.state.Answers result' ((n.state.resolve name).or answer.join) := hanswers
  cases hresolve : n.state.resolve name with
  | some actor =>
    rw [hresolve] at hanswers
    exact .inl ⟨actor, rfl, hanswers⟩
  | none =>
    obtain ⟨rc, found, hrc, rfl, hanswered⟩ := hasked hresolve
    rw [hresolve] at hanswers
    exact .inr ⟨rfl, rc, found, hrc, hanswered, hanswers⟩

/-- An open portal answers a request unless its sink refuses the answer. -/
theorem resolves_of_step {uuid : OpaqueActorId} {answer : Option (Option ActorId)} {sink : SinkResult}
    {channel : ConduitID} {id : CrossPortalMessageId} {rest : List (PortalActorMessage β)}
    (hconsistent : n.state.Consistent) (hnode : w.node p = some n) (hopen : n.state.channelState = .opened channel)
    (hmail : n.mailbox = .content (some (.requestActorByName id name)) :: rest) (hsink : sink ≠ .refused)
    (hstep : World.step (.portal p (.handle uuid answer sink)) w = some w') :
    ∃ result n', Resolves p name result (.portal p (.handle uuid answer sink)) w w' n n' := by
  obtain ⟨m, n', hm, hmove, hcases⟩ := portal_inv hstep
  rw [hnode] at hm
  cases hm
  obtain ⟨hne, -⟩ | ⟨_, _, _, heq, hconsulted, rfl⟩ := hcases
  · exact absurd rfl (hne uuid answer sink)
  cases heq
  obtain ⟨⟨-, -, huuid, -⟩, msg, rest', hmail', hturned⟩ := Node.turned_of_handle hmove
  have hmail' : n.mailbox = msg :: rest' := hmail'
  rw [hmail] at hmail'
  cases hmail'
  have hneeds : (w.enter n).state.resolve name = none → ((w.enter n).env uuid answer sink).nexus ≠ none := by
    intro hnone heq
    have hasks : asks n = some name := by
      simp only [World.asks, hopen, hmail, hconsistent.resolve_eq_none.mp hnone, if_true]
    obtain ⟨rc, found, -, rfl, -⟩ := consulted_needed hasks hconsulted
    cases heq
  have hconsistent' : (w.enter n).state.Consistent := hconsistent
  obtain ⟨result, hresult, -⟩ := handle_request (β := β) id hconsistent' huuid hopen hsink hneeds
  refine ⟨result, n', ⟨uuid, answer, sink, rfl⟩, hnode, leave_node_self, id, rest, hmail, ?_⟩
  rw [hturned.sent, hresult]
  rfl

/-! ## Whole runs -/

/-- What every step of a portal keeps, every run of the world keeps. -/
theorem state_of_run {Q : PortalActorState → Prop} (hkeep : ∀ (l : Label β) n n', Node.step l n = some n' →
      Q n.state → Q n'.state) (hrun : Transition.Run World.step Transition.Any ls w w') (htracked : w.Tracked)
    (hnode : w.node p = some n) (hQ : Q n.state) (hnode' : w'.node p = some n') : Q n'.state := by
  have hall : w'.Tracked ∧ ∃ n, w'.node p = some n ∧ Q n.state := by
    refine hrun.invariant (P := fun w => w.Tracked ∧ ∃ n, w.node p = some n ∧ Q n.state) ?_ ⟨htracked, n, hnode, hQ⟩
    rintro l s t ⟨htracked, m, hm, hQ⟩ _ hstep
    obtain ⟨m', hm', hmoves⟩ := moves_of_step htracked hstep hm
    refine ⟨htracked.step hstep, m', hm', ?_⟩
    cases hmoves with
    | same => exact hQ
    | step label _ hmove => exact hkeep label _ _ hmove hQ
    | halted => exact hQ
  obtain ⟨-, m, hm, hQ⟩ := hall
  rw [hnode'] at hm
  cases hm
  exact hQ

/-- An answer stays right. -/
theorem answers_of_step {found : Option ActorId} {label : Label β} (hmove : Node.step label n = some n')
    (h : n.state.Answers result found) : n'.state.Answers result found := by
  cases result with
  | ok r =>
    cases found with
    | some actor => exact Node.denotes_of_step hmove h
    | none => exact h
  | err error => cases found <;> exact h

/-- A value has one answer. -/
theorem answers_unique {state : PortalActorState} {result' : Resolution} {found : Option ActorId}
    (hconsistent : state.Consistent) (h : state.Answers result found) (h' : state.Answers result' found) :
    result = result' := by
  cases found with
  | none =>
    cases result with
    | ok r => cases h
    | err error =>
      cases result' with
      | ok r => cases h'
      | err error' => rw [show error = .actorNotFound from h, show error' = .actorNotFound from h']
  | some actor =>
    cases result with
    | err error => cases h
    | ok r =>
      cases result' with
      | err error => cases h'
      | ok r' =>
        obtain ⟨key, side, id⟩ := r
        obtain ⟨key', side', id'⟩ := r'
        have h : state.Denotes ⟨key, side, id⟩ actor := h
        have h' : state.Denotes ⟨key', side', id'⟩ actor := h'
        obtain rfl : side = side' := h.side.trans h'.side.symm
        obtain rfl : key = key' := PortalConduitState.opened.inj (h.channel.symm.trans h'.channel)
        obtain rfl : id = id' := hconsistent.distinct id id' actor h.lookup h'.lookup
        rfl

/-- What the nexus has answered, if nobody has published anything else there since. -/
theorem found_of_answered {callback : Option ActorId} {actors : Nat} {ms : List (WorldLabel β)} {rc : Receiver}
    {found : Option ActorId} (hrun : Transition.Run World.step Transition.Any ls (World.initial callback actors) x)
    (h : Answered (Transition.Occurs World.step ms x) p rc name n found) :
    ∃ before draws after v nv rest, ms = before ++ .handle draws :: after ∧
      Transition.Run World.step Transition.Any before x v ∧ v.mailbox = .queryNamedActor name rc :: rest ∧
      v.node p = some nv ∧ nv.handled = n.handled ∧
      found = Log.latest (Transition.trace World.step published (ls ++ before) (World.initial callback actors)) name := by
  obtain ⟨draws, v, rest, nv, ⟨before, after, hms, hbefore⟩, hmail, hnv, hhandled, rfl⟩ := h
  have hlog := (Named.of_run (p := p) (hrun.append hbefore)).2.2
  exact ⟨before, draws, after, v, nv, rest, hms, hbefore, hmail, hnv, hhandled, hlog name⟩

/-- While nobody publishes anything under the name, a request is answered from the two logs as they were. -/
theorem answers_meanwhile {callback : Option ActorId} {actors : Nat} {ms : List (WorldLabel β)}
    (hrun : Transition.Run World.step Transition.Any ls (World.initial callback actors) x)
    (hx : Waiting p (fun _ _ => False) x) (hms : Transition.Run World.step Transition.Any ms x w)
    (hstep : World.step l w = some w') (h : Resolves p name result l w w' n n')
    (hportal : ∀ e ∈ Transition.trace World.step (publishedOn p) ms x, e.1 ≠ name)
    (hnexus : ∀ e ∈ Transition.trace World.step published ms x, e.1 ≠ name) :
    n'.state.Answers result
      ((Log.latest (Transition.trace World.step (publishedOn p) ls (World.initial callback actors)) name).or
        (Log.latest (Transition.trace World.step published ls (World.initial callback actors)) name)) := by
  obtain ⟨-, hnamed, -⟩ := Named.of_run (p := p) (hrun.append hms)
  have hwaiting := Waiting.of_run (Tracked.of_run hrun) (Drawn.of_run hrun) hx hms
  have hnames := hnamed.represents n h.before name
  rw [hrun.trace_append, Log.latest_append_of_forall_ne hportal] at hnames
  rw [← hnames]
  obtain ⟨actor, hresolve, hanswers⟩ | ⟨hnone, rc, found, -, hanswered, hanswers⟩ :=
    h.answered hstep (hnamed.consistent n h.before) hwaiting
  · rw [hresolve]
    exact hanswers
  · obtain ⟨before, draws, after, v, nv, rest, rfl, hbefore, -, -, -, rfl⟩ := found_of_answered hrun hanswered
    have hquiet : ∀ e ∈ Transition.trace World.step published before x, e.1 ≠ name := by
      intro e he
      refine hnexus e ?_
      rw [hbefore.trace_append]
      exact List.mem_append_left _ he
    rw [hrun.trace_append, Log.latest_append_of_forall_ne hquiet] at hanswers
    rw [hnone]
    exact hanswers

end

/-- **Name resolution refines a two-level store.** In every run of a nexus and its portals: an open portal
    answers a request for a name; the answer is the actor that was published last under this name on the
    portal; if there is none, it is the one that was published last under it on the nexus when that answered
    the question of the portal, since the portal took its last message; and if there is none either, it is
    that there is no such actor. And if nobody publishes anything under the name, from the time on at which
    the nexus answers for a first request until a later one is answered, then both get the same answer. -/
theorem names_refine (callback : Option ActorId) (actors : Nat) (ls : List (WorldLabel β)) (w : World β)
    (hrun : Transition.Run World.step Transition.Any ls (World.initial callback actors) w) (p : ActorId)
    (name : String) :
    (∀ n channel id rest uuid answer sink w', w.node p = some n → n.state.channelState = .opened channel →
      n.mailbox = .content (some (.requestActorByName id name)) :: rest → sink ≠ .refused →
      World.step (.portal p (.handle uuid answer sink)) w = some w' →
      ∃ result n', Resolves p name result (.portal p (.handle uuid answer sink)) w w' n n') ∧
    (∀ result l w' n n', World.step l w = some w' → Resolves p name result l w w' n n' →
      (∃ actor, Log.latest (Transition.trace World.step (publishedOn p) ls (World.initial callback actors)) name =
          some actor ∧ n'.state.Answers result (some actor)) ∨
      (Log.latest (Transition.trace World.step (publishedOn p) ls (World.initial callback actors)) name = none ∧
        ∃ before draws after v nv rc rest, ls = before ++ .handle draws :: after ∧
          Transition.Run World.step Transition.Any before (World.initial callback actors) v ∧
          v.mailbox = .queryNamedActor name rc :: rest ∧ w.asking.lookup p = some rc ∧
          v.node p = some nv ∧ nv.handled = n.handled ∧
          n'.state.Answers result
            (Log.latest (Transition.trace World.step published before (World.initial callback actors)) name))) ∧
    (w.Unanswered p → ∀ ms₁ w₁ l₁ w₁' n₁ n₁' result₁ ms₂ w₂ l₂ w₂' n₂ n₂' result₂,
      Transition.Run World.step Transition.Any ms₁ w w₁ → World.step l₁ w₁ = some w₁' →
      Resolves p name result₁ l₁ w₁ w₁' n₁ n₁' →
      Transition.Run World.step Transition.Any ms₂ w₁' w₂ → World.step l₂ w₂ = some w₂' →
      Resolves p name result₂ l₂ w₂ w₂' n₂ n₂' →
      (∀ e ∈ Transition.trace World.step (publishedOn p) (ms₁ ++ l₁ :: ms₂) w, e.1 ≠ name) →
      (∀ e ∈ Transition.trace World.step published (ms₁ ++ l₁ :: ms₂) w, e.1 ≠ name) → result₁ = result₂) := by
  obtain ⟨htracked, hnamed, hlog⟩ := Named.of_run (p := p) hrun
  have hdrawn := Drawn.of_run hrun
  have hwaiting : Waiting p (Transition.Occurs World.step ls (World.initial callback actors)) w :=
    Waiting.of_run (Tracked.initial callback actors) ⟨nofun, nofun, nofun⟩ nofun hrun
  refine ⟨?_, ?_, ?_⟩
  · intro n channel id rest uuid answer sink w' hnode hopen hmail hsink hstep
    exact resolves_of_step (hnamed.consistent n hnode) hnode hopen hmail hsink hstep
  · intro result l w' n n' hstep h
    have hnames := hnamed.represents n h.before name
    rw [← hnames]
    obtain ⟨actor, hresolve, hanswers⟩ | ⟨hnone, rc, found, hrc, hanswered, hanswers⟩ :=
      h.answered hstep (hnamed.consistent n h.before) hwaiting
    · exact .inl ⟨actor, hresolve, hanswers⟩
    · obtain ⟨before, draws, after, v, nv, rest, hls, hbefore, hmail, hnv, hhandled, rfl⟩ :=
        found_of_answered (.nil _) hanswered
      exact .inr ⟨hnone, before, draws, after, v, nv, rc, rest, hls, hbefore, hmail, hrc, hnv, hhandled, hanswers⟩
  · intro hunanswered ms₁ w₁ l₁ w₁' n₁ n₁' result₁ ms₂ w₂ l₂ w₂' n₂ n₂' result₂ hms₁ hstep₁ h₁ hms₂ hstep₂ h₂
      hportal hnexus
    have hx := hwaiting.unanswered hunanswered
    have hms := hms₁.append (.cons trivial hstep₁ hms₂)
    have hfirst := answers_meanwhile hrun hx hms₁ hstep₁ h₁
      (fun e he => hportal e (by rw [hms₁.trace_append]; exact List.mem_append_left _ he))
      fun e he => hnexus e (by rw [hms₁.trace_append]; exact List.mem_append_left _ he)
    have hsecond := answers_meanwhile hrun hx hms hstep₂ h₂ hportal hnexus
    generalize (Log.latest (Transition.trace World.step (publishedOn p) ls (World.initial callback actors)) name).or
      (Log.latest (Transition.trace World.step published ls (World.initial callback actors)) name) = found
      at hfirst hsecond
    -- the first answer is still right when the second one is given
    have hrun₁ := (hrun.append hms₁).append (.cons trivial hstep₁ (.nil _))
    have hlast := hms₂.append (.cons trivial hstep₂ (.nil _))
    have hkept := state_of_run (Q := fun state => state.Answers result₁ found)
      (fun _ _ _ hmove h => answers_of_step hmove h) hlast (Tracked.of_run hrun₁) h₁.after hfirst h₂.after
    have hrun₂ := hrun₁.append hlast
    exact answers_unique ((Named.of_run (p := p) hrun₂).2.1.consistent n₂' h₂.after) hkept hsecond

/-- An actor is published on the nexus when a portal is open already. -/
def printing : List (WorldLabel Nat) :=
  [.request (.connect "client"),
   .handle { localId := ⟨1⟩, contribution := Vector.replicate 16 3, pick := 0, sink := .flushed },
   .portal 1 (.recv (some (.handshake (some { channelIdContribution := Vector.replicate 16 5, version := "0.1",
                                              infoText := "", thisSideId := ⟨2⟩ })))),
   .portal 1 (.handle ⟨7⟩ none .flushed),
   .request (.publishNamedActor "printer" 0),
   .handle { localId := ⟨3⟩, contribution := Vector.replicate 16 3, pick := 0, sink := .flushed }]

/-- The peer asks for it, and the portal asks the nexus. -/
def lookUp (id : CrossPortalMessageId) : List (WorldLabel Nat) :=
  [.portal 1 (.recv (some (.content (some (.requestActorByName id "printer"))))), .ask 1,
   .handle { localId := ⟨4⟩, contribution := Vector.replicate 16 3, pick := 0, sink := .flushed }]

def resolution (uuid : OpaqueActorId) : WorldLabel Nat :=
  .portal 1 (.handle uuid (some (some 0)) .flushed)

theorem names_refine_printer : ∃ w₁ w₁' w₂ w₂' n₁ n₁' n₂ n₂' result,
    Transition.exec step (printing ++ lookUp 3) (World.initial none 1) = some w₁ ∧
    step (resolution ⟨8⟩) w₁ = some w₁' ∧ Resolves 1 "printer" result (resolution ⟨8⟩) w₁ w₁' n₁ n₁' ∧
    Transition.exec step (lookUp 4) w₁' = some w₂ ∧
    step (resolution ⟨9⟩) w₂ = some w₂' ∧ Resolves 1 "printer" result (resolution ⟨9⟩) w₂ w₂' n₂ n₂' := by
  have heval : (Transition.exec step printing (World.initial none 1)).bind (fun w =>
      (Transition.exec step (lookUp 3) w).bind fun w₁ => (w₁.node 1).bind fun n₁ =>
      (step (resolution ⟨8⟩) w₁).bind fun w₁' =>
      (Transition.exec step (lookUp 4) w₁').bind fun w₂ => (w₂.node 1).bind fun n₂ =>
      (step (resolution ⟨9⟩) w₂).map fun _ =>
        (decide (w.asking.lookup 1 = none ∧
          n₁.mailbox = [.content (some (.requestActorByName 3 "printer"))] ∧
          n₂.mailbox = [.content (some (.requestActorByName 4 "printer"))] ∧
          Transition.trace step (publishedOn 1) (lookUp 3 ++ resolution ⟨8⟩ :: lookUp 4) w = [] ∧
          Transition.trace step published (lookUp 3 ++ resolution ⟨8⟩ :: lookUp 4) w = []),
          n₁.state.channelState, n₂.state.channelState)) =
      some (true, .opened ⟨0x06060606060606060606060606060606⟩, .opened ⟨0x06060606060606060606060606060606⟩) := by
    decide +kernel
  obtain ⟨w, hw, heval⟩ := Option.bind_eq_some_iff.mp heval
  obtain ⟨w₁, hw₁, heval⟩ := Option.bind_eq_some_iff.mp heval
  obtain ⟨n₁, hn₁, heval⟩ := Option.bind_eq_some_iff.mp heval
  obtain ⟨w₁', hw₁', heval⟩ := Option.bind_eq_some_iff.mp heval
  obtain ⟨w₂, hw₂, heval⟩ := Option.bind_eq_some_iff.mp heval
  obtain ⟨n₂, hn₂, heval⟩ := Option.bind_eq_some_iff.mp heval
  obtain ⟨w₂', hw₂', heval⟩ := Option.map_eq_some_iff.mp heval
  simp only [Prod.mk.injEq] at heval
  obtain ⟨hfacts, hopen₁, hopen₂⟩ := heval
  obtain ⟨hasking, hmail₁, hmail₂, hportal, hnexus⟩ := of_decide_eq_true hfacts
  have hrun := Transition.run_of_exec hw
  have hrun₁ := Transition.run_of_exec hw₁
  have hrun₂ := Transition.run_of_exec hw₂
  obtain ⟨result₁, n₁', h₁⟩ := (names_refine none 1 _ w₁ (hrun.append hrun₁) 1 "printer").1 n₁ _ 3 [] ⟨8⟩ _ .flushed
    w₁' hn₁ hopen₁ hmail₁ nofun hw₁'
  obtain ⟨result₂, n₂', h₂⟩ := (names_refine none 1 _ w₂ ((hrun.append hrun₁).append (.cons trivial hw₁' hrun₂)) 1
    "printer").1 n₂ _ 4 [] ⟨9⟩ _ .flushed w₂' hn₂ hopen₂ hmail₂ nofun hw₂'
  obtain rfl := (names_refine none 1 _ w hrun 1 "printer").2.2 (fun rc result hrc => by rw [hasking] at hrc; cases hrc)
    _ w₁ _ w₁' n₁ n₁' result₁ _ w₂ _ w₂' n₂ n₂' result₂ hrun₁ hw₁' h₁ hrun₂ hw₂' h₂
    (by rw [hportal]; nofun) (by rw [hnexus]; nofun)
  exact ⟨w₁, w₁', w₂, w₂', n₁, n₁', n₂, n₂', result₁, (hrun.append hrun₁).exec, hw₁', h₁, hw₂, hw₂', h₂⟩

end World
end Nexus
end Wormhole
