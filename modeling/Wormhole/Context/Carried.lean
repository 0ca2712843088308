import Wormhole.Context.Format
import Wormhole.Lib.Varint

/-!
# `Context.Carried` — a value arrives as it was, with other references

The implementations with a context against those of what travels, in three contracts, each of which composes as the
implementations do. `Writes`: with the answers of a travelling value, the program writes what the codec writes.
`Reads`: whatever the answers are, the program asks what it would ask if it got what it asks for, and comes to the
same value with other references. `Plain`: the program that gets what it asks for is the codec.
-/

namespace Wormhole
namespace Context

open LittleEndian
open Codec
open Async (History Mirrors)
open Portal (RemoteActorId)

/-! ## Programs that ask -/

/-- The references that were got. -/
def answered {A P A' P' : Type} (events : History (Ref A P) (Ref.Answer A' P')) : List (Ref A' P') :=
  events.map fun e => e.1.put e.2

theorem answered_append {A P A' P' : Type} (xs ys : History (Ref A P) (Ref.Answer A' P')) :
    answered (xs ++ ys) = answered xs ++ answered ys := List.map_append

/-- What one gets who gets what he asks for. -/
def Ref.self {R Q : Type} : (ref : Ref R Q) → ref.Answer R Q
  | .actorRef actor => actor
  | .replyPort port => port

namespace Asking

variable {A P A' P' R Q α β γ : Type}

/-- The result, for one who gets what he asks for. -/
def evalSelf (x : Asking R Q R Q α) : Res α := Async.eval Ref.self x

@[simp] theorem evalSelf_pure (value : α) : (pure value : Asking R Q R Q α).evalSelf = .ok value := rfl

@[simp] theorem evalSelf_lift (r : Res α) : (liftM r : Asking R Q R Q α).evalSelf = r := rfl

@[simp] theorem evalSelf_bind (x : Asking R Q R Q α) (f : α → Asking R Q R Q γ) :
    (x >>= f).evalSelf = x.evalSelf >>= fun value => (f value).evalSelf := by
  show Async.eval Ref.self (Async.bind x (andThen f)) = Async.eval Ref.self x >>= _
  have heval := Async.eval_bind Ref.self (α := Res α) x (andThen f)
  refine heval.trans ?_
  cases Async.eval Ref.self x <;> rfl

@[simp] theorem evalSelf_ite (c : Prop) [Decidable c] (x y : Asking R Q R Q α) :
    (if c then x else y).evalSelf = if c then x.evalSelf else y.evalSelf := by
  split <;> rfl

/-- A run to the end. -/
abbrev Ran (x : Asking A P A' P' α) (events : History (Ref A P) (Ref.Answer A' P')) (r : Res α) : Prop :=
  Async.Ran x events r

/-- A run of a sequence. -/
theorem Ran.andThen {x : Asking A P A' P' α} {f : α → Asking A P A' P' γ} {value : α} {r : Res γ}
    {events after : History (Ref A P) (Ref.Answer A' P')} (hx : x.Ran events (.ok value))
    (hf : (f value).Ran after r) : (x >>= f).Ran (events ++ after) r :=
  Async.Ran.bind (f := Asking.andThen f) hx hf

/-- The results agree: both are values of which `S` holds, or the same error or panic. -/
inductive Agree (S : History (Ref A P) (Ref.Answer A' P') → α → β → Prop)
    (events : History (Ref A P) (Ref.Answer A' P')) : Res α → Res β → Prop where
  | ok {value : α} {value' : β} (h : S events value value') : Agree S events (.ok value) (.ok value')
  | err (error : DecodeError) : Agree S events (.err error) (.err error)
  | panic (reason : Panic) : Agree S events (.panic reason) (.panic reason)

/-- Agreement is monotone in what it says of the values. -/
theorem Agree.mono {S S' : History (Ref A P) (Ref.Answer A' P') → α → β → Prop}
    {events events' : History (Ref A P) (Ref.Answer A' P')} {r : Res α} {r' : Res β} (h : Agree S events r r')
    (himp : ∀ value value', S events value value' → S' events' value value') : Agree S' events' r r' := by
  cases h with
  | ok h => exact .ok (himp _ _ h)
  | err error => exact .err error
  | panic reason => exact .panic reason

/-- A reader on a side, and one that gets what it asks for. -/
abbrev MirrorsSelf (S : History (Ref R Q) (Ref.Answer A P) → α → β → Prop) (x : Asking R Q A P α)
    (y : Asking R Q R Q β) : Prop :=
  Mirrors (fun ref _ => ref.self) (Agree S) x y

section

variable {S : History (Ref R Q) (Ref.Answer A P) → α → β → Prop} {δ : Type}
  {T : History (Ref R Q) (Ref.Answer A P) → γ → δ → Prop}

/-- Two decoders that return at once, on related values. -/
theorem mirrors_pure {value : α} {value' : β} (h : S [] value value') :
    MirrorsSelf S (pure value) (pure value') :=
  .done (.ok h)

/-- Two decoders that fail alike. -/
theorem mirrors_err (error : DecodeError) :
    MirrorsSelf S (liftM (Res.err error : Res α)) (liftM (Res.err error : Res β)) :=
  .done (.err error)

/-- The answers of a sequence are those of its parts. -/
theorem mirrors_bind {x : Asking R Q A P α} {y : Asking R Q R Q β} {f : α → Asking R Q A P γ}
    {g : β → Asking R Q R Q δ} (hx : MirrorsSelf S x y)
    (hf : ∀ events value value', S events value value' →
      MirrorsSelf (fun after => T (events ++ after)) (f value) (g value')) :
    MirrorsSelf T (x >>= f) (y >>= g) := by
  refine Mirrors.bind (f := andThen f) (g := andThen g) hx ?_
  rintro events _ _ (⟨h⟩ | error | reason)
  · exact (hf events _ _ h).mono fun after _ _ hagree => hagree.mono fun _ _ hT => hT
  · exact .done (.err error)
  · exact .done (.panic reason)

/-- What does not ask is the same for both. -/
theorem mirrors_lift {r : Res α} {f : α → Asking R Q A P γ} {g : α → Asking R Q R Q δ}
    (hf : ∀ value, r = .ok value → MirrorsSelf T (f value) (g value)) :
    MirrorsSelf T (liftM r >>= f) (liftM r >>= g) := by
  cases r with
  | ok value => exact hf value rfl
  | err error => exact .done (.err error)
  | panic reason => exact .done (.panic reason)

end

end Asking

/-! ## Contracts -/

section

variable {A P α ω σ γ : Type} {κ : σ → List (Ref Unit Unit)}

/-- With the answers of `w`, the program for `v` asks for the references of `v`, and writes what `g` writes. -/
def Writes (V : View A P α σ κ) (V' : View RemoteActorId ProxiedRpcReplyPort ω σ κ) (f : α → Immaterializing A P γ)
    (g : ω → Res γ) : Prop :=
  ∀ v w c, V'.shape w = V.shape v → g w = .ok c →
    ∃ events, (f v).Ran events (.ok c) ∧ events.operations = V.refs v ∧ answered events = V'.refs w

/-- `v` is `w` with the references that were got, which are the answers to those of `w`. -/
structure Rebuilt (V : View A P α σ κ) (V' : View RemoteActorId ProxiedRpcReplyPort ω σ κ)
    (events : History (Ref RemoteActorId ProxiedRpcReplyPort) (Ref.Answer A P)) (v : α) (w : ω) : Prop where
  shape : V.shape v = V'.shape w
  got : V.refs v = answered events
  asked : V'.refs w = events.operations

/-- The contract of an implementation `T`; `T'` is the same one on a side that has what travels, and `U` its codec. -/
structure Carries (V : View A P α σ κ) (V' : View RemoteActorId ProxiedRpcReplyPort ω σ κ) (T : Transmaterializable A P α)
    (T' : Transmaterializable RemoteActorId ProxiedRpcReplyPort ω) (U : ContextTransmaterializable ω) : Prop where
  writes : Writes V V' T.immaterialize U.immaterialize
  reads : ∀ data, Asking.MirrorsSelf (Rebuilt V V') (T.rematerialize data) (T'.rematerialize data)
  plain : ∀ data, (T'.rematerialize data).evalSelf = U.rematerialize data

/-- The contract of a list of fields. -/
structure CarryFields (V : View A P α σ κ) (V' : View RemoteActorId ProxiedRpcReplyPort ω σ κ) (F : Fields A P α)
    (F' : Fields RemoteActorId ProxiedRpcReplyPort ω) (G : FieldsCodec ω) : Prop where
  writes : ∀ buffer, Writes V V' (F.serialize · buffer) (G.serialize · buffer)
  reads : ∀ data offset, Asking.MirrorsSelf (fun events v w => Rebuilt V V' events v.1 w.1 ∧ v.2 = w.2)
    (F.deserialize data offset) (F'.deserialize data offset)
  plain : ∀ data offset, (F'.deserialize data offset).evalSelf = G.deserialize data offset

/-- The contract of the arms of one variant. -/
structure CarryArm (V : View A P α σ κ) (V' : View RemoteActorId ProxiedRpcReplyPort ω σ κ) (arm : Arm A P α)
    (arm' : Arm RemoteActorId ProxiedRpcReplyPort ω) (U : ArmCodec ω) : Prop where
  writes : Writes V V' arm.serialize U.serialize
  reads : ∀ payload, Asking.MirrorsSelf (Rebuilt V V') (arm.deserialize payload) (arm'.deserialize payload)
  plain : ∀ payload, (arm'.deserialize payload).evalSelf = U.deserialize payload

/-- The contract of the `match` over the variants. -/
structure CarryCases (V : View A P α σ κ) (V' : View RemoteActorId ProxiedRpcReplyPort ω σ κ) (C : Cases A P α)
    (C' : Cases RemoteActorId ProxiedRpcReplyPort ω) (U : VariantsCodec ω) : Prop where
  writes : Writes V V' C.serialize U.serialize
  reads : ∀ name payload,
    Asking.MirrorsSelf (Rebuilt V V') (C.deserialize name payload) (C'.deserialize name payload)
  plain : ∀ name payload, (C'.deserialize name payload).evalSelf = U.deserialize name payload

end

/-! ## Values without references, and references -/

section

variable {A P α β ω ω' σ τ : Type} {κ : σ → List (Ref Unit Unit)} {κ' : τ → List (Ref Unit Unit)}

/-- Nothing is asked for a value that both sides have. -/
theorem Rebuilt.plain (v : α) :
    Rebuilt (.plain α : View A P α α _) (.plain α : View RemoteActorId ProxiedRpcReplyPort α α _) [] v v :=
  ⟨rfl, rfl, rfl⟩

/-- A value without references is read in the same way on both sides, and nothing is asked. -/
theorem plain_reads (r : Res α) :
    Asking.MirrorsSelf (Rebuilt (.plain α : View A P α α _) (.plain α)) (liftM r) (liftM r) := by
  cases r with
  | ok v => exact .done (.ok (.plain v))
  | err error => exact .done (.err error)
  | panic reason => exact .done (.panic reason)

theorem plain_writes {γ : Type} (f : α → Res γ) :
    Writes (.plain α : View A P α α _) (.plain α) (fun v => liftM (f v)) f := by
  intro v w c hshape hc
  obtain rfl : w = v := hshape
  refine ⟨[], ?_, rfl, rfl⟩
  show Async.Ran (.done (f w)) [] (.ok c)
  rw [hc]
  exact .done _

/-- A type without references is carried as its codec has it. -/
theorem plain_carries (U : ContextTransmaterializable α) :
    Carries (.plain α : View A P α α _) (.plain α) (plain U) (plain U) U where
  writes := plain_writes U.immaterialize
  reads data := plain_reads (U.rematerialize data)
  plain _ := rfl

/-- The sender publishes the actor and writes its id. The receiver reads the id and asks for a proxy. -/
theorem actorRef_carries (ids : Bincode RemoteActorId) :
    Carries (.actorRef : View A P A Unit _) .actorRef (actorRef ids) (actorRef ids) (simpleByte ids) where
  writes v w c _ hc := by
    refine ⟨[⟨.actorRef v, w⟩], .op ?_, rfl, rfl⟩
    show Async.Ran (.done ((simpleByte ids).immaterialize w)) [] (.ok c)
    rw [hc]
    exact .done _
  reads data := Asking.mirrors_lift fun id _ => .op fun _ => .done (.ok ⟨rfl, rfl, rfl⟩)
  plain data := by
    simp only [actorRef, Asking.evalSelf_bind, Asking.evalSelf_lift]
    exact Res.bind_ok _

/-- As `actorRef_carries`, with the port and its timeout. -/
theorem replyPort_carries (ports : Bincode ProxiedRpcReplyPort) :
    Carries (.replyPort : View A P P Unit _) .replyPort (replyPort ports) (replyPort ports) (simpleByte ports) where
  writes v w c _ hc := by
    refine ⟨[⟨.replyPort v, w⟩], .op ?_, rfl, rfl⟩
    show Async.Ran (.done ((simpleByte ports).immaterialize w)) [] (.ok c)
    rw [hc]
    exact .done _
  reads data := Asking.mirrors_lift fun id _ => .op fun _ => .done (.ok ⟨rfl, rfl, rfl⟩)
  plain data := by
    simp only [replyPort, Asking.evalSelf_bind, Asking.evalSelf_lift]
    exact Res.bind_ok _

/-! ## `Option` and `Result` -/

variable {V : View A P α σ κ} {V' : View RemoteActorId ProxiedRpcReplyPort ω σ κ} {T : Transmaterializable A P α}
  {T' : Transmaterializable RemoteActorId ProxiedRpcReplyPort ω} {U : ContextTransmaterializable ω}

/-- What is put around the bytes of a part asks for nothing. -/
theorem writes_wrap {γ δ : Type} {f : α → Immaterializing A P γ} {g : ω → Res γ} (h : Writes V V' f g) (k : γ → δ) :
    Writes V V' (fun v => f v >>= fun c => pure (k c)) (fun w => g w >>= fun c => .ok (k c)) := by
  intro v w d hshape hd
  obtain ⟨c, hc, hd⟩ := Res.bind_eq_ok.mp hd
  obtain ⟨events, hrun, hops, hgot⟩ := h v w c hshape hc
  obtain rfl := Res.ok.inj hd
  refine ⟨events, ?_, hops, hgot⟩
  have hwrap : (f v >>= fun c => pure (k c)).Ran (events ++ []) (.ok (k c)) := hrun.andThen (.done _)
  rwa [List.append_nil] at hwrap

/-- What is put around a value that was read asks for nothing. -/
theorem reads_wrap {S : History (Ref RemoteActorId ProxiedRpcReplyPort) (Ref.Answer A P) → α → ω → Prop} {δ δ' : Type}
    {S' : History (Ref RemoteActorId ProxiedRpcReplyPort) (Ref.Answer A P) → δ → δ' → Prop}
    {x : Rematerializing A P α} {y : Rematerializing RemoteActorId ProxiedRpcReplyPort ω} (k : α → δ) (k' : ω → δ')
    (h : Asking.MirrorsSelf S x y) (hk : ∀ events v w, S events v w → S' events (k v) (k' w)) :
    Asking.MirrorsSelf S' (x >>= fun v => pure (k v)) (y >>= fun w => pure (k' w)) := by
  refine Asking.mirrors_bind h fun events v w hS => Asking.mirrors_pure ?_
  rw [List.append_nil]
  exact hk events v w hS

/-- The references of a `Some` are those of its value. -/
theorem option_carries (p : Platform) (hT : Carries V V' T T' U) :
    Carries V.option V'.option (option p T) (option p T') (Codec.option p U) where
  writes v w c hshape hc := by
    cases v with
    | none =>
      cases w with
      | none =>
        cases hc
        exact ⟨[], .done _, rfl, rfl⟩
      | some w => cases hshape
    | some v =>
      cases w with
      | none => cases hshape
      | some w =>
        exact writes_wrap hT.writes (fun bytes => [1] ++ toLeBytes 8 bytes.length ++ bytes) v w c
          (Option.some.inj hshape) hc
  reads data := by
    refine Asking.mirrors_lift fun _ _ => Asking.mirrors_lift fun discriminant _ => ?_
    by_cases h0 : discriminant = 0
    · rw [if_pos h0, if_pos h0]
      exact Asking.mirrors_lift fun _ _ => Asking.mirrors_pure ⟨rfl, rfl, rfl⟩
    · rw [if_neg h0, if_neg h0]
      by_cases h1 : discriminant = 1
      · rw [if_pos h1, if_pos h1]
        refine Asking.mirrors_lift fun _ _ => Asking.mirrors_lift fun _ _ => Asking.mirrors_lift fun _ _ => ?_
        refine Asking.mirrors_lift fun _ _ => Asking.mirrors_lift fun _ _ => Asking.mirrors_lift fun innerData _ => ?_
        refine Asking.mirrors_lift fun _ _ => reads_wrap _ _ (hT.reads innerData) ?_
        exact fun events v w h => ⟨congrArg some h.shape, h.got, h.asked⟩
      · rw [if_neg h1, if_neg h1]
        exact Asking.mirrors_err _
  plain data := by
    simp only [option, Codec.option, Asking.evalSelf_bind, Asking.evalSelf_lift, Asking.evalSelf_ite,
      Asking.evalSelf_pure, hT.plain]

/-- The references are those of the side that is there. -/
theorem result_carries (p : Platform) {W : View A P β τ κ'} {W' : View RemoteActorId ProxiedRpcReplyPort ω' τ κ'}
    {E : Transmaterializable A P β} {E' : Transmaterializable RemoteActorId ProxiedRpcReplyPort ω'}
    {X : ContextTransmaterializable ω'} (hT : Carries V V' T T' U) (hE : Carries W W' E E' X) :
    Carries (V.result W) (V'.result W') (result p T E) (result p T' E') (Codec.result p U X) where
  writes v w c hshape hc := by
    cases v with
    | ok v =>
      cases w with
      | ok w =>
        exact writes_wrap hT.writes (fun bytes => [0] ++ toLeBytes 8 bytes.length ++ bytes) v w c
          (Except.ok.inj hshape) hc
      | error w => cases hshape
    | error v =>
      cases w with
      | ok w => cases hshape
      | error w =>
        exact writes_wrap hE.writes (fun bytes => [1] ++ toLeBytes 8 bytes.length ++ bytes) v w c
          (Except.error.inj hshape) hc
  reads data := by
    refine Asking.mirrors_lift fun _ _ => Asking.mirrors_lift fun discriminant _ => ?_
    refine Asking.mirrors_lift fun _ _ => Asking.mirrors_lift fun _ _ => Asking.mirrors_lift fun _ _ => ?_
    refine Asking.mirrors_lift fun _ _ => Asking.mirrors_lift fun innerData _ => Asking.mirrors_lift fun _ _ => ?_
    by_cases h0 : discriminant = 0
    · rw [if_pos h0, if_pos h0]
      exact reads_wrap _ _ (hT.reads innerData) fun events v w h => ⟨congrArg Except.ok h.shape, h.got, h.asked⟩
    · rw [if_neg h0, if_neg h0]
      by_cases h1 : discriminant = 1
      · rw [if_pos h1, if_pos h1]
        exact reads_wrap _ _ (hE.reads innerData) fun events v w h => ⟨congrArg Except.error h.shape, h.got, h.asked⟩
      · rw [if_neg h1, if_neg h1]
        exact Asking.mirrors_err _
  plain data := by
    simp only [result, Codec.result, Asking.evalSelf_bind, Asking.evalSelf_lift, Asking.evalSelf_ite,
      Asking.evalSelf_pure, hT.plain, hE.plain]

/-! ## `Vec<T>` -/

section Vec

variable {p : Platform} {size : Nat}

/-- The elements ask one after the other, so the questions stand in the order of the references. -/
theorem vecExtend_writes (hT : Carries V V' T T' U) {vs : List α} {ws : List ω} {buffer c : Bytes}
    (hshape : ws.map V'.shape = vs.map V.shape) (hc : Codec.vecExtend U ws buffer = .ok c) :
    ∃ events, (vecExtend T vs buffer).Ran events (.ok c) ∧ events.operations = vs.flatMap V.refs ∧
      answered events = ws.flatMap V'.refs := by
  induction vs generalizing ws buffer with
  | nil =>
    obtain rfl := List.map_eq_nil_iff.mp hshape
    cases hc
    exact ⟨[], .done _, rfl, rfl⟩
  | cons v vs ih =>
    cases ws with
    | nil => cases hshape
    | cons w ws =>
      obtain ⟨hhead, htail⟩ := List.cons.inj hshape
      obtain ⟨bytes, hbytes, hc⟩ := Res.bind_eq_ok.mp hc
      obtain ⟨events, hrun, hops, hgot⟩ := hT.writes v w bytes hhead hbytes
      obtain ⟨after, hrest, hops', hgot'⟩ := ih htail hc
      refine ⟨events ++ after, hrun.andThen hrest, ?_, ?_⟩
      · rw [List.flatMap_cons, ← hops, ← hops']
        exact List.map_append
      · rw [List.flatMap_cons, ← hgot, ← hgot']
        exact answered_append _ _

/-- Both vectors grow, or neither. -/
theorem push_mirrors {γ δ : Type} {buffer : Buffer p size α} {buffer' : Buffer p size ω} (v : α) (w : ω)
    (hnext : buffer.nextCapacity = buffer'.nextCapacity)
    {S : History (Ref RemoteActorId ProxiedRpcReplyPort) (Ref.Answer A P) → γ → δ → Prop}
    {f : Buffer p size α → Rematerializing A P γ}
    {g : Buffer p size ω → Rematerializing RemoteActorId ProxiedRpcReplyPort δ}
    (hf : ∀ grown grown', grown.elems = buffer.elems ++ [v] → grown'.elems = buffer'.elems ++ [w] →
      grown.capacity = grown'.capacity → Asking.MirrorsSelf S (f grown) (g grown')) :
    Asking.MirrorsSelf S (liftM (buffer.push v) >>= f) (liftM (buffer'.push w) >>= g) := by
  unfold Buffer.push
  by_cases hfits : buffer.nextCapacity * size ≤ p.isizeMax
  · rw [dif_pos hfits, dif_pos (hnext ▸ hfits)]
    exact hf _ _ rfl rfl hnext
  · rw [dif_neg hfits, dif_neg (hnext ▸ hfits)]
    exact .done (.panic _)

/-- Two vectors that are filled alike: the same elements up to references, and the same capacity. -/
structure FilledAlike (V : View A P α σ κ) (V' : View RemoteActorId ProxiedRpcReplyPort ω σ κ)
    (events : History (Ref RemoteActorId ProxiedRpcReplyPort) (Ref.Answer A P)) (buffer : Buffer p size α)
    (buffer' : Buffer p size ω) : Prop where
  rebuilt : Rebuilt V.vec V'.vec events buffer.toRVec buffer'.toRVec
  capacity : buffer.capacity = buffer'.capacity

/-- One element more on both sides. -/
theorem FilledAlike.push {events after : History (Ref RemoteActorId ProxiedRpcReplyPort) (Ref.Answer A P)}
    {buffer grown : Buffer p size α} {buffer' grown' : Buffer p size ω} {v : α} {w : ω}
    (hbuffer : FilledAlike V V' events buffer buffer') (h : Rebuilt V V' after v w)
    (hgrown : grown.elems = buffer.elems ++ [v]) (hgrown' : grown'.elems = buffer'.elems ++ [w])
    (hcapacity : grown.capacity = grown'.capacity) : FilledAlike V V' (events ++ after) grown grown' := by
  have hshapes : buffer.elems.map V.shape = buffer'.elems.map V'.shape := congrArg RVec.elems hbuffer.rebuilt.shape
  refine ⟨⟨RVec.ext ?_, ?_, ?_⟩, hcapacity⟩
  · show grown.elems.map V.shape = grown'.elems.map V'.shape
    rw [hgrown, hgrown', List.map_append, List.map_append, hshapes, List.map_singleton, List.map_singleton, h.shape]
  · show grown.elems.flatMap V.refs = _
    rw [hgrown, List.flatMap_append, answered_append, ← h.got]
    exact congrArg₂ _ hbuffer.rebuilt.got (List.append_nil _)
  · show grown'.elems.flatMap V'.refs = (events ++ after).operations
    rw [hgrown', List.flatMap_append, History.operations, List.map_append]
    exact congrArg₂ _ hbuffer.rebuilt.asked ((List.append_nil _).trans h.asked)

/-- The rest of a loop, after elements that were read with `before`. -/
theorem vecLoop_reads (hT : Carries V V' T T' U) (data : Bytes) (fuel offset : Nat)
    (before : History (Ref RemoteActorId ProxiedRpcReplyPort) (Ref.Answer A P)) {buffer : Buffer p size α}
    {buffer' : Buffer p size ω} (hbuffer : FilledAlike V V' before buffer buffer') :
    Asking.MirrorsSelf (fun events v w => v.1 = w.1 ∧ FilledAlike V V' (before ++ events) v.2 w.2)
      (vecLoop p size T data fuel offset buffer) (vecLoop p size T' data fuel offset buffer') := by
  have hend : Asking.MirrorsSelf (fun events v w => v.1 = w.1 ∧ FilledAlike V V' (before ++ events) v.2 w.2)
      (pure (offset, buffer) : Rematerializing A P _) (pure (offset, buffer')) := by
    refine Asking.mirrors_pure ⟨rfl, ?_⟩
    rw [List.append_nil]
    exact hbuffer
  induction fuel generalizing offset buffer buffer' before with
  | zero => exact hend
  | succ fuel ih =>
    unfold vecLoop
    by_cases hmore : offset < data.length
    · rw [if_pos hmore, if_pos hmore]
      refine Asking.mirrors_lift fun read _ => ?_
      refine Asking.mirrors_bind (hT.reads read.1) fun events v w h => ?_
      have hshapes := congrArg RVec.elems hbuffer.rebuilt.shape
      have hlength : buffer.elems.length = buffer'.elems.length := by
        simpa using (congrArg List.length hshapes : (buffer.elems.map V.shape).length = (buffer'.elems.map V'.shape).length)
      -- as many elements, of the same size: both buffers grow or neither does
      have hnext : buffer.nextCapacity = buffer'.nextCapacity := by
        unfold Buffer.nextCapacity
        rw [hbuffer.capacity, hlength]
      refine push_mirrors v w hnext fun grown grown' hgrown hgrown' hcapacity => ?_
      have hboth := hbuffer.push h hgrown hgrown' hcapacity
      refine (ih read.2 _ hboth ?_).mono ?_
      · refine Asking.mirrors_pure ⟨rfl, ?_⟩
        rw [List.append_nil]
        exact hboth
      · refine fun after _ _ hagree => hagree.mono fun _ _ h => ⟨h.1, ?_⟩
        rw [← List.append_assoc]
        exact h.2
    · rw [if_neg hmore, if_neg hmore]
      exact hend

/-- Read with the identifiers themselves for references, the loop is the one of the codec: the answers are
    the questions. -/
theorem vecLoop_plain (hT : Carries V V' T T' U) (data : Bytes) (fuel offset : Nat) (buffer : Buffer p size ω) :
    (vecLoop p size T' data fuel offset buffer).evalSelf = Codec.vecLoop p size U data fuel offset buffer := by
  induction fuel generalizing offset buffer with
  | zero => rfl
  | succ fuel ih =>
    simp only [vecLoop, Codec.vecLoop, Asking.evalSelf_bind, Asking.evalSelf_lift, Asking.evalSelf_ite,
      Asking.evalSelf_pure, hT.plain, ih]

/-- Both vectors are filled alike, whatever the references are: an element takes the same room, and so the
    buffers grow at the same elements and panic at the same one. -/
theorem vec_carries (hT : Carries V V' T T' U) :
    Carries V.vec V'.vec (vec p size T) (vec p size T') (Codec.vec p size U) where
  writes v w c hshape hc := by
    have hshapes : w.elems.map V'.shape = v.elems.map V.shape := congrArg RVec.elems hshape
    have hlength : w.elems.length = v.elems.length := by simpa using congrArg List.length hshapes
    -- the two products and the allocation depend on the number of the elements only
    obtain ⟨elementHeaders, hmul, hc⟩ := Res.bind_eq_ok.mp hc
    obtain ⟨capacity, hadd, hc⟩ := Res.bind_eq_ok.mp hc
    obtain ⟨reserved, hreserved, hc⟩ := Res.bind_eq_ok.mp hc
    rw [hlength] at hmul hc
    obtain ⟨events, hrun, hops, hgot⟩ := vecExtend_writes hT hshapes hc
    refine ⟨events, ?_, hops, hgot⟩
    show (liftM (p.usizeMul v.elems.length 8) >>= fun elementHeaders => liftM (p.usizeAdd 8 elementHeaders) >>=
      fun capacity => liftM (Buffer.withCapacity p 1 UInt8 capacity) >>= fun buffer =>
        vecExtend T v.elems (buffer.elems ++ toLeBytes 8 v.elems.length) : Immaterializing A P Bytes).Ran events _
    rw [hmul]
    show (liftM (p.usizeAdd 8 elementHeaders) >>= fun capacity => liftM (Buffer.withCapacity p 1 UInt8 capacity) >>=
      fun buffer => vecExtend T v.elems (buffer.elems ++ toLeBytes 8 v.elems.length) :
        Immaterializing A P Bytes).Ran events _
    rw [hadd]
    show (liftM (Buffer.withCapacity p 1 UInt8 capacity) >>=
      fun buffer => vecExtend T v.elems (buffer.elems ++ toLeBytes 8 v.elems.length) :
        Immaterializing A P Bytes).Ran events _
    rw [hreserved]
    exact hrun
  reads data := by
    refine Asking.mirrors_lift fun _ _ => Asking.mirrors_lift fun _ _ => Asking.mirrors_lift fun count _ => ?_
    by_cases hfits : count * size ≤ p.isizeMax
    · rw [Buffer.withCapacity_of_le hfits, Buffer.withCapacity_of_le hfits]
      show Asking.MirrorsSelf _ (vecLoop p size T data data.length 8 ⟨[], count, _, hfits⟩ >>= _)
        (vecLoop p size T' data data.length 8 ⟨[], count, _, hfits⟩ >>= _)
      refine Asking.mirrors_bind (vecLoop_reads hT data data.length 8 [] ⟨⟨rfl, rfl, rfl⟩, rfl⟩) ?_
      rintro events ⟨offset, v⟩ ⟨offset', w⟩ ⟨hoffset, h⟩
      obtain rfl : offset = offset' := hoffset
      refine Asking.mirrors_lift fun _ _ => Asking.mirrors_pure ?_
      rw [List.append_nil]
      exact h.rebuilt
    · rw [Buffer.withCapacity_of_gt (Nat.lt_of_not_le hfits), Buffer.withCapacity_of_gt (Nat.lt_of_not_le hfits)]
      -- both panic, before anything is asked
      exact .done (.panic _)
  plain data := by
    simp only [vec, Codec.vec, Asking.evalSelf_bind, Asking.evalSelf_lift, Asking.evalSelf_pure, vecLoop_plain hT]

end Vec

/-! ## Field lists -/

section Fields

variable {W : View A P β τ κ'} {W' : View RemoteActorId ProxiedRpcReplyPort ω' τ κ'} {F : Fields A P α}
  {F' : Fields RemoteActorId ProxiedRpcReplyPort ω} {G : FieldsCodec ω} {H : Fields A P β}
  {H' : Fields RemoteActorId ProxiedRpcReplyPort ω'} {K : FieldsCodec ω'}

/-- A pair is rebuilt from the answers to its first half and then those to its second. -/
theorem Rebuilt.prod {events after : History (Ref RemoteActorId ProxiedRpcReplyPort) (Ref.Answer A P)} {v : α} {w : ω}
    {v' : β} {w' : ω'} (h : Rebuilt V V' events v w) (h' : Rebuilt W W' after v' w') :
    Rebuilt (V.prod W) (V'.prod W') (events ++ after) (v, v') (w, w') where
  shape := Prod.ext h.shape h'.shape
  got := (congrArg₂ _ h.got h'.got).trans (answered_append _ _).symm
  asked := (congrArg₂ _ h.asked h'.asked).trans List.map_append.symm

theorem nil_carryFields : CarryFields (.plain Unit : View A P Unit Unit _) (.plain Unit) .nil .nil .nil where
  writes buffer v w c _ hc := by
    cases hc
    exact ⟨[], .done _, rfl, rfl⟩
  reads _ offset := Asking.mirrors_pure ⟨.plain (), rfl⟩
  plain _ _ := rfl

/-- A field is carried by its own implementation, and the rest behind it. -/
theorem cons_carryFields (p : Platform) (style : BlockStyle) (hT : Carries V V' T T' U)
    (hH : CarryFields W W' H H' K) :
    CarryFields (V.prod W) (V'.prod W') (.cons p style T H) (.cons p style T' H') (.cons p style U K) where
  writes buffer v w c hshape hc := by
    obtain ⟨hhead, htail⟩ := Prod.mk.inj hshape
    obtain ⟨bytes, hbytes, hc⟩ := Res.bind_eq_ok.mp hc
    obtain ⟨events, hrun, hops, hgot⟩ := hT.writes v.1 w.1 bytes hhead hbytes
    obtain ⟨after, hrest, hops', hgot'⟩ := hH.writes _ v.2 w.2 c htail hc
    refine ⟨events ++ after, hrun.andThen hrest, ?_, ?_⟩
    · show (events ++ after).operations = V.refs v.1 ++ W.refs v.2
      rw [← hops, ← hops']
      exact List.map_append
    · show answered (events ++ after) = V'.refs w.1 ++ W'.refs w.2
      rw [← hgot, ← hgot']
      exact answered_append _ _
  reads data offset := by
    refine Asking.mirrors_lift fun read _ => ?_
    refine Asking.mirrors_bind (hT.reads read.1) fun events v w h => ?_
    refine reads_wrap (fun r => ((v, r.1), r.2)) (fun r => ((w, r.1), r.2)) (hH.reads data read.2) ?_
    exact fun after r r' h' => ⟨h.prod h'.1, h'.2⟩
  plain data offset := by
    simp only [Fields.cons, FieldsCodec.cons, Asking.evalSelf_bind, Asking.evalSelf_lift, Asking.evalSelf_pure,
      hT.plain, hH.plain]

/-- The test at the end asks nothing. -/
theorem tuple_carries (hF : CarryFields V V' F F' G) : Carries V V' (tuple F) (tuple F') (Codec.tuple G) where
  writes := hF.writes []
  reads data := by
    refine Asking.mirrors_bind (hF.reads data 0) ?_
    rintro events ⟨v, offset⟩ ⟨w, offset'⟩ ⟨h, hoffset⟩
    obtain rfl : offset = offset' := hoffset
    refine Asking.mirrors_lift fun _ _ => Asking.mirrors_pure ?_
    rw [List.append_nil]
    exact h
  plain data := by
    simp only [tuple, Codec.tuple, Asking.evalSelf_bind, Asking.evalSelf_lift, Asking.evalSelf_pure, hF.plain]

/-- The check at the end asks for nothing. -/
theorem reads_check (c : Nat → Prop) [∀ n, Decidable (c n)] (error : Nat → DecodeError) {data : Bytes} {offset : Nat}
    (hF : CarryFields V V' F F' G) :
    Asking.MirrorsSelf (Rebuilt V V')
      (F.deserialize data offset >>= fun r => if c r.2 then liftM (Res.err (error r.2) : Res α) else pure r.1)
      (F'.deserialize data offset >>= fun r => if c r.2 then liftM (Res.err (error r.2) : Res ω) else pure r.1) := by
  refine Asking.mirrors_bind (hF.reads data offset) ?_
  rintro events ⟨v, stop⟩ ⟨w, stop'⟩ ⟨h, hstop⟩
  obtain rfl : stop = stop' := hstop
  by_cases hc : c stop
  · rw [if_pos hc, if_pos hc]
    exact Asking.mirrors_err _
  · rw [if_neg hc, if_neg hc]
    refine Asking.mirrors_pure ?_
    rw [List.append_nil]
    exact h

/-- A struct is carried as the tuple of its fields. -/
theorem deriveStruct_carries (hF : CarryFields V V' F F' G) :
    Carries V V' (deriveStruct F) (deriveStruct F') (deriveStructNamed G) where
  writes := hF.writes []
  reads data := reads_check (fun stop => data.length ≠ stop) (fun stop => .notConsumed data.length stop) hF
  plain data := by
    simp only [deriveStruct, deriveStructNamed, Asking.evalSelf_bind, Asking.evalSelf_lift, Asking.evalSelf_ite,
      Asking.evalSelf_pure, hF.plain]

/-! ## Enums -/

theorem plainArm_carry (U : ArmCodec α) :
    CarryArm (.plain α : View A P α α _) (.plain α) (plainArm U) (plainArm U) U where
  writes := plain_writes U.serialize
  reads payload := plain_reads (U.deserialize payload)
  plain _ := rfl

theorem fieldsArm_carry (hF : CarryFields V V' F F' G) :
    CarryArm V V' (fieldsArm F) (fieldsArm F') (Codec.fieldsArm G) where
  writes := hF.writes []
  reads payload := reads_check (fun stop => stop ≠ payload.length) (fun stop => .payloadNotConsumed payload.length stop) hF
  plain payload := by
    simp only [fieldsArm, Codec.fieldsArm, Asking.evalSelf_bind, Asking.evalSelf_lift, Asking.evalSelf_ite,
      Asking.evalSelf_pure, hF.plain]

theorem nil_carryCases : CarryCases (.plain Empty : View A P Empty Empty _) (.plain Empty) .nil .nil .nil where
  writes v := v.elim
  reads _ _ := Asking.mirrors_err _
  plain _ _ := rfl

/-- A value of the first variant is carried by its arm, and one of another by the rest. -/
theorem cons_carryCases (name : String) {arm : Arm A P α} {arm' : Arm RemoteActorId ProxiedRpcReplyPort ω}
    {X : ArmCodec ω} {C : Cases A P β} {C' : Cases RemoteActorId ProxiedRpcReplyPort ω'} {Y : VariantsCodec ω'}
    (harm : CarryArm V V' arm arm' X) (hC : CarryCases W W' C C' Y) :
    CarryCases (V.sum W) (V'.sum W') (.cons name arm C) (.cons name arm' C') (.cons name X Y) where
  writes v w c hshape hc := by
    cases v with
    | inl v =>
      cases w with
      | inl w => exact writes_wrap harm.writes (fun bytes => (name, bytes)) v w c (Sum.inl.inj hshape) hc
      | inr w => cases hshape
    | inr v =>
      cases w with
      | inl w => cases hshape
      | inr w => exact hC.writes v w c (Sum.inr.inj hshape) hc
  reads name' payload := by
    show Asking.MirrorsSelf _ (if _ then _ else _) (if _ then _ else _)
    by_cases hname : name' = name
    · rw [if_pos hname, if_pos hname]
      exact reads_wrap _ _ (harm.reads payload) fun events v w h => ⟨congrArg Sum.inl h.shape, h.got, h.asked⟩
    · rw [if_neg hname, if_neg hname]
      exact reads_wrap _ _ (hC.reads name' payload) fun events v w h => ⟨congrArg Sum.inr h.shape, h.got, h.asked⟩
  plain name' payload := by
    simp only [Cases.cons, VariantsCodec.cons, Asking.evalSelf_bind, Asking.evalSelf_ite, Asking.evalSelf_pure,
      harm.plain, hC.plain]

/-- The name is carried with the value: the receiver takes the same arm. -/
theorem deriveEnum_carries (p : Platform) {C : Cases A P α} {C' : Cases RemoteActorId ProxiedRpcReplyPort ω}
    {Y : VariantsCodec ω} (hC : CarryCases V V' C C' Y) :
    Carries V V' (deriveEnum p C) (deriveEnum p C') (Codec.deriveEnum p Y) where
  writes := writes_wrap hC.writes fun c =>
    toLeBytes 8 (asBytes c.1).length ++ asBytes c.1 ++ toLeBytes 8 c.2.length ++ c.2
  reads data := by
    refine Asking.mirrors_lift fun read _ => Asking.mirrors_lift fun name _ => Asking.mirrors_lift fun read' _ => ?_
    refine Asking.mirrors_bind (hC.reads name read'.1) fun events v w h => ?_
    by_cases hall : data.length ≠ read'.2
    · rw [if_pos hall, if_pos hall]
      exact Asking.mirrors_err _
    · rw [if_neg hall, if_neg hall]
      refine Asking.mirrors_pure ?_
      rw [List.append_nil]
      exact h
  plain data := by
    simp only [deriveEnum, Codec.deriveEnum, Asking.evalSelf_bind, Asking.evalSelf_lift, Asking.evalSelf_ite,
      Asking.evalSelf_pure, hC.plain]

end Fields

end

/-! ## The types of messages -/

mutual

/-- **Every implementation keeps its contract.** -/
theorem Ty.carries (l : Layout) (enc : Encodings) (A P : Type) : ∀ t : Ty,
    Carries (t.view l : View A P _ _ _) (t.view l) (t.impl l enc) (t.impl l enc) (t.codec l enc)
  | .plain t => plain_carries (t.codec l.toTarget)
  | .actorRef => actorRef_carries enc.ids
  | .replyPort => replyPort_carries enc.ports
  | .vec t => vec_carries (Ty.carries l enc A P t)
  | .option t => option_carries _ (Ty.carries l enc A P t)
  | .result t e => result_carries _ (Ty.carries l enc A P t) (Ty.carries l enc A P e)
  | .tuple ts => tuple_carries (Tys.carry l enc A P .util ts)
  | .struct ts => deriveStruct_carries (Tys.carry l enc A P .field ts)
  | .enum name fields vs =>
      deriveEnum_carries _ (cons_carryCases name (VariantFields.carry l enc A P fields) (Variants.carry l enc A P vs))

/-- Field by field. -/
theorem Tys.carry (l : Layout) (enc : Encodings) (A P : Type) (style : BlockStyle) : ∀ ts : Tys,
    CarryFields (ts.view l : View A P _ _ _) (ts.view l) (ts.impl l enc style) (ts.impl l enc style) (ts.codec l enc style)
  | .nil => nil_carryFields
  | .cons t ts => cons_carryFields _ style (Ty.carries l enc A P t) (Tys.carry l enc A P style ts)

theorem Variants.carry (l : Layout) (enc : Encodings) (A P : Type) : ∀ vs : Variants,
    CarryCases (vs.view l : View A P _ _ _) (vs.view l) (vs.impl l enc) (vs.impl l enc) (vs.codec l enc)
  | .nil => nil_carryCases
  | .cons name fields vs => cons_carryCases name (VariantFields.carry l enc A P fields) (Variants.carry l enc A P vs)

theorem VariantFields.carry (l : Layout) (enc : Encodings) (A P : Type) : ∀ fields : VariantFields,
    CarryArm (fields.view l : View A P _ _ _) (fields.view l) (fields.impl l enc) (fields.impl l enc) (fields.codec l enc)
  | .unit => plainArm_carry unitArm
  | .fields ts => fieldsArm_carry (Tys.carry l enc A P .field ts)

end

/-! ## What arrives -/

section

variable (l : Layout) (enc : Encodings) (t : Ty) {A P : Type}

/-- `immaterialize`, on a side whose references are `A` and `P`. -/
def Ty.immaterialize (v : t.Val l A P) : Immaterializing A P Bytes := (t.impl l enc).immaterialize v

/-- `rematerialize`. -/
def Ty.rematerialize (A P : Type) (data : Bytes) : Rematerializing A P (t.Val l A P) :=
  (t.impl l enc).rematerialize data

/-- What the reader of `data` asks for, when it gets what it asks for. -/
def Ty.asks (data : Bytes) : List (Ref RemoteActorId ProxiedRpcReplyPort) :=
  Async.operations Ref.self (t.rematerialize l enc RemoteActorId ProxiedRpcReplyPort data)

/-- The run of a reader that gets what it asks for. -/
theorem mirrored_ran {data : Bytes} {events : History (Ref RemoteActorId ProxiedRpcReplyPort) (Ref.Answer A P)}
    {r : Res (t.Val l A P)} (hrun : (t.rematerialize l enc A P data).Ran events r) :
    events.operations = t.asks l enc data ∧
      Asking.Agree (Rebuilt (t.view l) (t.view l)) events r ((t.codec l enc).rematerialize data) := by
  have hcarries := t.carries l enc A P
  obtain ⟨r', hrun', hagree⟩ := (hcarries.reads data).ran hrun
  obtain ⟨hops, rfl⟩ := hrun'.eq_eval Ref.self fun e he => by
    obtain ⟨e', -, rfl⟩ := List.mem_map.mp he
    rfl
  refine ⟨?_, ?_⟩
  · rw [← show _ = t.asks l enc data from hops, History.operations, History.operations, List.map_map]
    rfl
  · rw [← hcarries.plain data]
    exact hagree

/-- The references of one list as answers to those of another one. -/
theorem exists_history {A P A' P' : Type} (rs : List (Ref A P)) (rs' : List (Ref A' P'))
    (hkinds : rs.map Ref.kind = rs'.map Ref.kind) :
    ∃ events : History (Ref A P) (Ref.Answer A' P'), events.operations = rs ∧ answered events = rs' := by
  induction rs generalizing rs' with
  | nil =>
    obtain rfl := List.map_eq_nil_iff.mp hkinds.symm
    exact ⟨[], rfl, rfl⟩
  | cons r rs ih =>
    cases rs' with
    | nil => cases hkinds
    | cons r' rs' =>
      obtain ⟨hhead, htail⟩ := List.cons.inj hkinds
      obtain ⟨events, rfl, rfl⟩ := ih rs' htail
      cases r with
      | actorRef actor =>
        cases r' with
        | actorRef actor' => exact ⟨⟨.actorRef actor, actor'⟩ :: events, rfl, rfl⟩
        | replyPort port' => cases hhead
      | replyPort port =>
        cases r' with
        | actorRef actor' => cases hhead
        | replyPort port' => exact ⟨⟨.replyPort port, port'⟩ :: events, rfl, rfl⟩

/-- A reader goes on with whatever it gets. -/
theorem exists_ran (data : Bytes) (events : History (Ref RemoteActorId ProxiedRpcReplyPort) (Ref.Answer A P))
    (hops : events.operations = t.asks l enc data) : ∃ r, (t.rematerialize l enc A P data).Ran events r := by
  refine ((t.carries l enc A P).reads data).exists_ran (b := (t.rematerialize l enc _ _ data).evalSelf) ?_
  have heval := Async.ran_eval Ref.self (t.rematerialize l enc RemoteActorId ProxiedRpcReplyPort data)
  rw [show Async.operations Ref.self (t.rematerialize l enc RemoteActorId ProxiedRpcReplyPort data) =
    events.operations from hops.symm, History.operations, List.map_map] at heval
  exact heval

section

variable {l enc t} (hcompiles : t.Compiles) {w : t.Wired l}
include hcompiles

/-- The writer of `v` gets the references of `w`, and has the bytes of `w`. -/
theorem written (hle : (t.wire l enc w).length ≤ l.isizeMax) {v : t.Val l A P} (hshape : t.shape l w = t.shape l v) :
    ∃ events, (t.immaterialize l enc v).Ran events (.ok (t.wire l enc w)) ∧
      events.operations = t.refs l v ∧ answered events = t.refs l w :=
  (t.carries l enc A P).writes v w _ hshape ((t.implements l enc hcompiles).complete hle)

variable (hlt : (t.wire l enc w).length < l.usizeSize)
include hlt

/-- A reader of the bytes of `w` asks for its references, and has what it got for them in their places. -/
theorem read_back {events : History (Ref RemoteActorId ProxiedRpcReplyPort) (Ref.Answer A P)} {r : Res (t.Val l A P)}
    (hrun : (t.rematerialize l enc A P (t.wire l enc w)).Ran events r) :
    events.operations = t.refs l w ∧ ∃ v, r = .ok v ∧ t.shape l v = t.shape l w ∧ t.refs l v = answered events := by
  obtain ⟨-, hagree⟩ := mirrored_ran l enc t hrun
  rw [(t.implements l enc hcompiles).inverse hlt] at hagree
  cases hagree with
  | ok h => exact ⟨h.asked.symm, _, rfl, h.shape, h.got⟩

/-- What is asked for is what any run asks for. -/
theorem asks_wire : t.asks l enc (t.wire l enc w) = t.refs l w := by
  have heval := Async.ran_eval Ref.self (t.rematerialize l enc RemoteActorId ProxiedRpcReplyPort (t.wire l enc w))
  have hops := (mirrored_ran l enc t heval).1
  obtain ⟨hops', -⟩ := read_back hcompiles hlt heval
  rw [← hops, hops']

/-- And it may get any references. -/
theorem readable {v : t.Val l A P} (hshape : t.shape l v = t.shape l w) :
    ∃ events, (t.rematerialize l enc A P (t.wire l enc w)).Ran events (.ok v) ∧
      events.operations = t.refs l w ∧ answered events = t.refs l v := by
  have hkinds : (t.refs l w).map Ref.kind = (t.refs l v).map Ref.kind := by rw [t.refs_kind, t.refs_kind, hshape]
  obtain ⟨events, hops, hanswered⟩ := exists_history (t.refs l w) (t.refs l v) hkinds
  obtain ⟨r, hrun⟩ := exists_ran l enc t (t.wire l enc w) events (hops.trans (asks_wire hcompiles hlt).symm)
  obtain ⟨-, v', rfl, hshape', hrefs'⟩ := read_back hcompiles hlt hrun
  -- the references and the shape determine the value
  obtain rfl := t.ext l (hshape'.trans hshape.symm) (hrefs'.trans hanswered)
  exact ⟨events, hrun, hops, hanswered⟩

end

/-- **A value arrives as it was, with other references.** Let `w` be `v` with any references of the wire, and its
    bytes at most `isize::MAX`. Writing `v` asks for its references from left to right, and if the answers are those
    of `w`, the bytes are those of `w`.
    Every run that reads these bytes, on whatever side, asks for the references of `w` from left to right, and
    comes to `v` again, with what it got for them; and it may get any references. -/
theorem value_carried (hcompiles : t.Compiles) (v : t.Val l A P) (w : t.Wired l)
    (hshape : t.shape l w = t.shape l v) (hle : (t.wire l enc w).length ≤ l.isizeMax) :
    (∃ events, (t.immaterialize l enc v).Ran events (.ok (t.wire l enc w)) ∧
      events.operations = t.refs l v ∧ answered events = t.refs l w) ∧
    ∀ A' P' : Type,
      (∀ events r, (t.rematerialize l enc A' P' (t.wire l enc w)).Ran events r →
        events.operations = t.refs l w ∧
        ∃ v', r = .ok v' ∧ t.shape l v' = t.shape l v ∧ t.refs l v' = answered events) ∧
      ∀ v', t.shape l v' = t.shape l v →
        ∃ events, (t.rematerialize l enc A' P' (t.wire l enc w)).Ran events (.ok v') ∧
          events.operations = t.refs l w ∧ answered events = t.refs l v' := by
  refine ⟨written hcompiles hle hshape, fun A' P' => ⟨fun events r hrun => ?_, fun v' hv' => ?_⟩⟩
  · obtain ⟨hops, v', rfl, hv', hrefs⟩ := read_back hcompiles (l.lt_usizeSize hle) hrun
    exact ⟨hops, v', rfl, hv'.trans hshape, hrefs⟩
  · exact readable hcompiles (l.lt_usizeSize hle) (hv'.trans hshape.symm)

end

/-! ## The standard configuration of bincode -/

/-- The three integers of an id, each as a varint. -/
def writeId (id : RemoteActorId) : Bytes :=
  varint id.connectionKey.value.toNat ++ (varint id.side.value.toNat ++ varint id.id.value.toNat)

def readId (data : Bytes) : Option (RemoteActorId × Bytes) := do
  let (connectionKey, data) ← readVarint data
  let (side, data) ← readVarint data
  let (id, data) ← readVarint data
  some (⟨⟨.ofNat 128 connectionKey⟩, ⟨.ofNat 128 side⟩, ⟨.ofNat 128 id⟩⟩, data)

theorem readId_writeId (id : RemoteActorId) (rest : Bytes) : readId (writeId id ++ rest) = some (id, rest) := by
  unfold writeId readId
  simp only [List.append_assoc, readVarint_varint (BitVec.isLt _), Option.bind_eq_bind, Option.bind_some,
    BitVec.ofNat_toNat, BitVec.setWidth_eq]

/-- A port without a timeout begins with 0, one with a timeout with 1 and the milliseconds. -/
def writePort (port : ProxiedRpcReplyPort) : Bytes :=
  match port.timeoutMs with
  | none => 0 :: writeId port.remoteActorId
  | some ms => 1 :: (varint ms.toNat ++ writeId port.remoteActorId)

def readPort : Bytes → Option (ProxiedRpcReplyPort × Bytes)
  | 0 :: data => do
    let (remoteActorId, data) ← readId data
    some (⟨none, remoteActorId⟩, data)
  | 1 :: data => do
    let (ms, data) ← readVarint data
    let (remoteActorId, data) ← readId data
    some (⟨some (.ofNat 128 ms), remoteActorId⟩, data)
  | _ => none

/-- Bincode reads back what it wrote and leaves what follows. -/
theorem readPort_writePort (port : ProxiedRpcReplyPort) (rest : Bytes) :
    readPort (writePort port ++ rest) = some (port, rest) := by
  obtain ⟨timeoutMs, remoteActorId⟩ := port
  cases timeoutMs with
  | none => simp only [writePort, List.cons_append, readPort, readId_writeId, Option.bind_eq_bind, Option.bind_some]
  | some ms =>
    simp only [writePort, List.cons_append, readPort, List.append_assoc, readVarint_varint (BitVec.isLt _),
      readId_writeId, Option.bind_eq_bind, Option.bind_some, BitVec.ofNat_toNat, BitVec.setWidth_eq]

/-- A reader that says how many bytes it has used. -/
def Bincode.ofReader {α : Type} (write : α → Bytes) (read : Bytes → Option (α × Bytes))
    (hread : ∀ value rest, read (write value ++ rest) = some (value, rest)) : Bincode α where
  encodeToVec value := .ok (write value)
  decodeFromSlice data :=
    match read data with
    | some (value, rest) => .ok (value, data.length - rest.length)
    | none => .err .tryFromSlice
  encodes value := ⟨write value, rfl⟩
  decode_encode {value bytes} h := by
    obtain rfl := Res.ok.inj h
    have hall := hread value []
    rw [List.append_nil] at hall
    simp only [hall]
    rfl

def Encodings.standard : Encodings where
  ids := .ofReader writeId readId readId_writeId
  ports := .ofReader writePort readPort readPort_writePort

/-- `HubMessage` of the chat: a client, and the port on which it gets its alias and its server. -/
def hubMessage : Ty := .enum "Connect" (.fields (.cons .actorRef (.cons .replyPort .nil))) .nil

def Layout.sixtyFour : Layout := { Target.sixtyFour true with sizeOfRef := fun _ => 64 }

/-- `HubMessage::Connect(client, reply)`, for the actor 7 and the port 3. -/
def connect : hubMessage.Val .sixtyFour Nat Nat := .inl ((7 : Nat), (3 : Nat), ())

/-- What travels for it. -/
def connectWired : hubMessage.Wired .sixtyFour :=
  .inl (⟨⟨5⟩, ⟨6⟩, ⟨21⟩⟩, ⟨some 30000, ⟨⟨5⟩, ⟨6⟩, ⟨22⟩⟩⟩, ())

theorem value_carried_connect :
    (∃ events, (hubMessage.immaterialize .sixtyFour .standard connect).Ran events
        (.ok (hubMessage.wire .sixtyFour .standard connectWired)) ∧
      events.operations = [.actorRef 7, .replyPort 3]) ∧
    ∀ (events : History (Ref RemoteActorId ProxiedRpcReplyPort) (Ref.Answer Nat Nat))
      (r : Res (hubMessage.Val .sixtyFour Nat Nat)),
      (hubMessage.rematerialize .sixtyFour .standard Nat Nat
        (hubMessage.wire .sixtyFour .standard connectWired)).Ran events r →
      ∃ v', r = .ok v' ∧ hubMessage.refs .sixtyFour v' = answered events := by
  have hcarried := value_carried .sixtyFour .standard hubMessage
    (by simp [hubMessage, Ty.Compiles, VariantFields.Compile, Tys.Compile, Variants.Compile, Variants.names])
    connect connectWired rfl (by decide +kernel)
  obtain ⟨⟨events, hrun, hops, -⟩, hreads⟩ := hcarried
  refine ⟨⟨events, hrun, hops⟩, fun events' r hrun' => ?_⟩
  obtain ⟨-, v', hv', -, hrefs⟩ := (hreads Nat Nat).1 events' r hrun'
  exact ⟨v', hv', hrefs⟩

end Context
end Wormhole
