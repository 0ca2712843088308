import Wormhole.Codec.Block
import Wormhole.Context.Carried

/-!
# `Context.Asks` — what the bytes of a message make a portal do

Whoever reads a message asks his context for a proxy at every reference in it. The bytes come from the peer. They
alone say what is asked for, and in which order (`asks_determined`), and there is room for few: every reference
inside of a value has a block of its own, with a header of eight bytes.
-/

namespace Wormhole
namespace Context

open LittleEndian
open Codec
open Async (History)
open Portal (RemoteActorId)

/-! ## Counting what is asked -/

namespace Asking

variable {A P A' P' R Q α γ : Type}

/-- What is asked for, by one who gets what he asks for. -/
def asks (x : Asking R Q R Q α) : List (Ref R Q) := Async.operations Ref.self x

/-- A run up to a reference that is asked for. -/
abbrev Awaits (x : Asking A P A' P' α) (events : History (Ref A P) (Ref.Answer A' P')) (ref : Ref A P) : Prop :=
  Async.Awaits x events ref

theorem operations_bind {x : Async (Ref R Q) (Ref.Answer R Q) α} {f : α → Async (Ref R Q) (Ref.Answer R Q) γ} :
    (Async.bind x f).operations Ref.self = x.operations Ref.self ++ (f (x.eval Ref.self)).operations Ref.self := by
  induction x with
  | done value => rfl
  | op ref next ih => exact congrArg (ref :: ·) (ih ref.self)

/-- What is asked first, and then what is asked with the value that came of it. -/
theorem asks_bind (x : Asking R Q R Q α) (f : α → Asking R Q R Q γ) :
    (x >>= f).asks = x.asks ++ (andThen f x.evalSelf).asks :=
  operations_bind (f := andThen f)

/-- What does not ask adds nothing. -/
theorem asks_lift_le {r : Res α} {f : α → Asking R Q R Q γ} {n : Nat}
    (hf : ∀ value, r = .ok value → 8 * (f value).asks.length ≤ n) : 8 * (liftM r >>= f).asks.length ≤ n := by
  cases r with
  | ok value => exact hf value rfl
  | err error => exact Nat.zero_le n
  | panic reason => exact Nat.zero_le n

/-- A sequence asks for what its parts ask for. -/
theorem asks_bind_le {x : Asking R Q R Q α} {f : α → Asking R Q R Q γ} {m n : Nat} (hx : 8 * x.asks.length ≤ m)
    (hle : m ≤ n) (hf : ∀ value, x.evalSelf = .ok value → 8 * (f value).asks.length ≤ n - m) :
    8 * (x >>= f).asks.length ≤ n := by
  rw [asks_bind, List.length_append]
  cases hvalue : x.evalSelf with
  | ok value =>
    have hrest := hf value hvalue
    show 8 * (x.asks.length + (f value).asks.length) ≤ n
    omega
  | err error =>
    show 8 * (x.asks.length + 0) ≤ n
    omega
  | panic reason =>
    show 8 * (x.asks.length + 0) ≤ n
    omega

theorem asks_lift_pure (r : Res α) (k : α → γ) : (liftM r >>= fun value => pure (k value) : Asking R Q R Q γ).asks = [] := by
  cases r <;> rfl

/-- What is put around a value asks for nothing. -/
theorem asks_wrap_le {x : Asking R Q R Q α} {f : α → Asking R Q R Q γ} {n : Nat} (hx : 8 * x.asks.length ≤ n)
    (hf : ∀ value, (f value).asks = []) : 8 * (x >>= f).asks.length ≤ n := by
  refine asks_bind_le hx (Nat.le_refl n) fun value _ => ?_
  rw [hf]
  exact Nat.zero_le _

end Asking

/-! ## Every implementation -/

section

variable {p : Platform} {α β : Type}

/-- An implementation asks at most once for every eight bytes, and once more. -/
def Bounded (p : Platform) (T : Transmaterializable RemoteActorId ProxiedRpcReplyPort α) : Prop :=
  ∀ data : Bytes, data.length < p.usizeSize → 8 * (T.rematerialize data).asks.length ≤ data.length + 8

/-- A list of fields has a header for each of them. -/
def BoundedFields (p : Platform) (F : Fields RemoteActorId ProxiedRpcReplyPort α) : Prop :=
  ∀ (data : Bytes) (offset : Nat), data.length < p.usizeSize → offset ≤ data.length →
    8 * (F.deserialize data offset).asks.length ≤ data.length - offset

/-- The payload of a variant is fields or nothing, so the one question more is not needed. -/
def BoundedArm (p : Platform) (arm : Arm RemoteActorId ProxiedRpcReplyPort α) : Prop :=
  ∀ payload : Bytes, payload.length < p.usizeSize → 8 * (arm.deserialize payload).asks.length ≤ payload.length

def BoundedCases (p : Platform) (C : Cases RemoteActorId ProxiedRpcReplyPort α) : Prop :=
  ∀ (name : String) (payload : Bytes), payload.length < p.usizeSize →
    8 * (C.deserialize name payload).asks.length ≤ payload.length

variable {T : Transmaterializable RemoteActorId ProxiedRpcReplyPort α}
  {E : Transmaterializable RemoteActorId ProxiedRpcReplyPort β} {F : Fields RemoteActorId ProxiedRpcReplyPort α}
  {G : Fields RemoteActorId ProxiedRpcReplyPort β}

theorem plain_bounded (U : ContextTransmaterializable α) : Bounded p (plain U) := fun _ _ => Nat.zero_le _

/-- A reference asks once, however many bytes its identifier takes. -/
theorem actorRef_bounded (ids : Bincode RemoteActorId) :
    Bounded p (actorRef ids : Transmaterializable RemoteActorId ProxiedRpcReplyPort RemoteActorId) :=
  fun data _ => Asking.asks_lift_le fun _ _ => Nat.le_add_left 8 data.length

/-- So does a reply port. -/
theorem replyPort_bounded (ports : Bincode ProxiedRpcReplyPort) :
    Bounded p (replyPort ports : Transmaterializable RemoteActorId ProxiedRpcReplyPort ProxiedRpcReplyPort) :=
  fun data _ => Asking.asks_lift_le fun _ _ => Nat.le_add_left 8 data.length

/-- What is inside, behind a discriminant and a header. -/
theorem inner_le {data innerData : Bytes} {stop : Nat} (hlt : data.length < p.usizeSize)
    (hinner : slice data 9 stop = .ok innerData) : innerData.length < p.usizeSize ∧ innerData.length + 8 ≤ data.length := by
  obtain ⟨hle, hstop, rfl⟩ := slice_eq_ok.mp hinner
  rw [List.length_take, List.length_drop]
  omega

/-- The header behind the discriminant leaves eight bytes more than the payload needs. -/
theorem option_bounded (hT : Bounded p T) : Bounded p (option p T) := by
  intro data hlt
  refine Asking.asks_lift_le fun _ _ => Asking.asks_lift_le fun discriminant _ => ?_
  by_cases h0 : discriminant = 0
  · rw [if_pos h0]
    exact Asking.asks_lift_le fun _ _ => Nat.zero_le _
  · rw [if_neg h0]
    by_cases h1 : discriminant = 1
    · rw [if_pos h1]
      refine Asking.asks_lift_le fun _ _ => Asking.asks_lift_le fun _ _ => Asking.asks_lift_le fun _ _ => ?_
      refine Asking.asks_lift_le fun stop _ => Asking.asks_lift_le fun _ _ => ?_
      refine Asking.asks_lift_le fun innerData hinner => Asking.asks_lift_le fun _ _ => ?_
      obtain ⟨hfits, hinside⟩ := inner_le hlt hinner
      have hasks := hT innerData hfits
      exact Asking.asks_wrap_le (by omega) fun _ => rfl
    · rw [if_neg h1]
      exact Nat.zero_le _

theorem result_bounded (hT : Bounded p T) (hE : Bounded p E) : Bounded p (result p T E) := by
  intro data hlt
  refine Asking.asks_lift_le fun _ _ => Asking.asks_lift_le fun discriminant _ => ?_
  refine Asking.asks_lift_le fun _ _ => Asking.asks_lift_le fun _ _ => Asking.asks_lift_le fun stop _ => ?_
  refine Asking.asks_lift_le fun _ _ => Asking.asks_lift_le fun innerData hinner => Asking.asks_lift_le fun _ _ => ?_
  obtain ⟨hfits, hinside⟩ := inner_le hlt hinner
  have hvalue := hT innerData hfits
  have herror := hE innerData hfits
  by_cases h0 : discriminant = 0
  · rw [if_pos h0]
    exact Asking.asks_wrap_le (by omega) fun _ => rfl
  · rw [if_neg h0]
    by_cases h1 : discriminant = 1
    · rw [if_pos h1]
      exact Asking.asks_wrap_le (by omega) fun _ => rfl
    · rw [if_neg h1]
      exact Nat.zero_le _

/-- A block, and what comes after it. -/
theorem block_le {style : BlockStyle} {data bytes : Bytes} {offset next : Nat} (hlt : data.length < p.usizeSize)
    (hoff : offset ≤ data.length) (hread : readBlock p style data offset = .ok (bytes, next)) :
    bytes.length < p.usizeSize ∧ next = offset + 8 + bytes.length ∧ next ≤ data.length := by
  obtain ⟨hblock, rfl⟩ := (readBlock_eq_ok hlt hoff).mp hread
  have hend := hblock.2
  omega

/-- Each round reads a header and a payload. The induction is on the fuel, and the bytes from the offset on pay
    for the rounds that are left. -/
theorem vecLoop_bounded {size : Nat} (hT : Bounded p T) {data : Bytes} (hlt : data.length < p.usizeSize)
    (fuel offset : Nat) (buffer : Buffer p size α) :
    8 * (vecLoop p size T data fuel offset buffer).asks.length ≤ data.length - offset := by
  induction fuel generalizing offset buffer with
  | zero => exact Nat.zero_le _
  | succ fuel ih =>
    unfold vecLoop
    by_cases hmore : offset < data.length
    · rw [if_pos hmore]
      refine Asking.asks_lift_le ?_
      rintro ⟨elementData, next⟩ hread
      obtain ⟨hfits, hnext, hend⟩ := block_le hlt (Nat.le_of_lt hmore) hread
      have helement := hT elementData hfits
      refine Asking.asks_bind_le (m := elementData.length + 8) helement (by omega) fun element _ => ?_
      refine Asking.asks_lift_le fun grown _ => ?_
      have hrest := ih next grown
      show 8 * (vecLoop p size T data fuel next grown).asks.length ≤ _
      omega
    · rw [if_neg hmore]
      exact Nat.zero_le _

/-- The header of an element pays for the one question that its payload need not pay for. -/
theorem vec_bounded {size : Nat} (hT : Bounded p T) : Bounded p (vec p size T) := by
  intro data hlt
  refine Asking.asks_lift_le fun _ _ => Asking.asks_lift_le fun _ _ => Asking.asks_lift_le fun _ _ => ?_
  refine Asking.asks_lift_le fun buffer _ => ?_
  have hloop := vecLoop_bounded hT hlt data.length 8 buffer
  exact Asking.asks_wrap_le (by omega) fun _ => Asking.asks_lift_pure _ _

theorem nil_boundedFields : BoundedFields p .nil := fun _ _ _ _ => Nat.zero_le _

/-- The questions of a field are paid for by its block, and those of the rest by theirs. -/
theorem cons_boundedFields (style : BlockStyle) (hT : Bounded p T) (hG : BoundedFields p G) :
    BoundedFields p (.cons p style T G) := by
  intro data offset hlt hoff
  refine Asking.asks_lift_le ?_
  rintro ⟨fieldBytes, next⟩ hread
  obtain ⟨hfits, hnext, hend⟩ := block_le hlt hoff hread
  have hfield := hT fieldBytes hfits
  refine Asking.asks_bind_le (m := fieldBytes.length + 8) hfield (by omega) fun field _ => ?_
  have hrest := hG data next hlt hend
  exact Asking.asks_wrap_le (by show _ ≤ _; omega) fun _ => rfl

/-- The test at the end asks nothing. -/
theorem tuple_bounded (hF : BoundedFields p F) : Bounded p (tuple F) := by
  intro data hlt
  have hfields := hF data 0 hlt (Nat.zero_le _)
  exact Asking.asks_wrap_le (by omega) fun _ => Asking.asks_lift_pure _ _

/-- The check at the end asks for nothing. -/
theorem asks_check_le {data : Bytes} (c : Nat → Prop) [∀ n, Decidable (c n)] (error : Nat → DecodeError)
    (hF : BoundedFields p F) (hlt : data.length < p.usizeSize) :
    8 * (F.deserialize data 0 >>= fun r => if c r.2 then liftM (Res.err (error r.2) : Res α) else pure r.1).asks.length ≤
      data.length := by
  refine Asking.asks_wrap_le (hF data 0 hlt (Nat.zero_le _)) fun r => ?_
  split <;> rfl

/-- A struct asks what its fields ask. -/
theorem deriveStruct_bounded (hF : BoundedFields p F) : Bounded p (deriveStruct F) := fun data hlt =>
  Nat.le_add_right_of_le (asks_check_le (fun stop => data.length ≠ stop) (fun stop => .notConsumed data.length stop) hF hlt)

theorem plainArm_bounded (U : ArmCodec α) : BoundedArm p (plainArm U) := fun _ _ => Nat.zero_le _

theorem fieldsArm_bounded (hF : BoundedFields p F) : BoundedArm p (fieldsArm F) := fun payload hlt =>
  asks_check_le (fun stop => stop ≠ payload.length) (fun stop => .payloadNotConsumed payload.length stop) hF hlt

theorem nil_boundedCases : BoundedCases p .nil := fun _ _ _ => Nat.zero_le _

theorem cons_boundedCases (name : String) {arm : Arm RemoteActorId ProxiedRpcReplyPort α}
    {C : Cases RemoteActorId ProxiedRpcReplyPort β} (harm : BoundedArm p arm) (hC : BoundedCases p C) :
    BoundedCases p (.cons name arm C) := by
  intro name' payload hlt
  show 8 * (if _ then _ else _ : Rematerializing _ _ _).asks.length ≤ _
  by_cases hname : name' = name
  · rw [if_pos hname]
    exact Asking.asks_wrap_le (harm payload hlt) fun _ => rfl
  · rw [if_neg hname]
    exact Asking.asks_wrap_le (hC name' payload hlt) fun _ => rfl

/-- The questions are those of the payload, and its two headers leave room for them. -/
theorem deriveEnum_bounded {C : Cases RemoteActorId ProxiedRpcReplyPort α} (hC : BoundedCases p C) :
    Bounded p (deriveEnum p C) := by
  intro data hlt
  refine Asking.asks_lift_le ?_
  rintro ⟨variantNameBytes, offset⟩ hname
  obtain ⟨-, -, hoffset⟩ := block_le hlt (Nat.zero_le _) hname
  refine Asking.asks_lift_le fun variantName _ => Asking.asks_lift_le ?_
  rintro ⟨payloadData, stop⟩ hpayload
  obtain ⟨hfits, hstop, hend⟩ := block_le hlt hoffset hpayload
  have hcases := hC variantName payloadData hfits
  refine Asking.asks_wrap_le (by show _ ≤ _; omega) fun _ => ?_
  split <;> rfl

end

mutual

/-- **Every implementation asks for little.** -/
theorem Ty.bounded (l : Layout) (enc : Encodings) : ∀ t : Ty, Bounded l.toPlatform (t.impl l enc)
  | .plain t => plain_bounded (t.codec l.toTarget)
  | .actorRef => actorRef_bounded enc.ids
  | .replyPort => replyPort_bounded enc.ports
  | .vec t => vec_bounded (Ty.bounded l enc t)
  | .option t => option_bounded (Ty.bounded l enc t)
  | .result t e => result_bounded (Ty.bounded l enc t) (Ty.bounded l enc e)
  | .tuple ts => tuple_bounded (Tys.bounded l enc .util ts)
  | .struct ts => deriveStruct_bounded (Tys.bounded l enc .field ts)
  | .enum name fields vs =>
      deriveEnum_bounded (cons_boundedCases name (VariantFields.bounded l enc fields) (Variants.bounded l enc vs))

/-- Field by field. -/
theorem Tys.bounded (l : Layout) (enc : Encodings) (style : BlockStyle) : ∀ ts : Tys,
    BoundedFields l.toPlatform (ts.impl l enc style)
  | .nil => nil_boundedFields
  | .cons t ts => cons_boundedFields style (Ty.bounded l enc t) (Tys.bounded l enc style ts)

/-- Variant by variant. -/
theorem Variants.bounded (l : Layout) (enc : Encodings) : ∀ vs : Variants,
    BoundedCases l.toPlatform (vs.impl l enc)
  | .nil => nil_boundedCases
  | .cons name fields vs =>
      cons_boundedCases name (VariantFields.bounded l enc fields) (Variants.bounded l enc vs)

theorem VariantFields.bounded (l : Layout) (enc : Encodings) : ∀ fields : VariantFields,
    BoundedArm l.toPlatform (fields.impl l enc)
  | .unit => plainArm_bounded unitArm
  | .fields ts => fieldsArm_bounded (Tys.bounded l enc .field ts)

end

/-- **The bytes say what is asked for.** Let somebody read any bytes, on any side, and get any references. What he
    asks for first is what `asks` says, in this order; when he has come to the end he has asked for all of it, and
    has what the codec has, with the references that he got, or the same error or panic. For `n` bytes he asks at
    most `n / 8 + 1` times. -/
theorem asks_determined (l : Layout) (enc : Encodings) (t : Ty) (data : Bytes) :
    (∀ (A P : Type) (events : History (Ref RemoteActorId ProxiedRpcReplyPort) (Ref.Answer A P)),
      (∀ ref, (t.rematerialize l enc A P data).Awaits events ref →
        events.operations ++ [ref] <+: t.asks l enc data) ∧
      ∀ r, (t.rematerialize l enc A P data).Ran events r →
        events.operations = t.asks l enc data ∧
        Asking.Agree (fun events v w => t.shape l v = t.shape l w ∧ t.refs l v = answered events ∧
          t.refs l w = events.operations) events r ((t.codec l enc).rematerialize data)) ∧
    (data.length < l.usizeSize → 8 * (t.asks l enc data).length ≤ data.length + 8) := by
  refine ⟨fun A P events => ⟨fun ref hawaits => ?_, fun r hrun => ?_⟩, t.bounded l enc data⟩
  · have himage := ((t.carries l enc A P).reads data).awaits hawaits
    have hprefix := himage.beginning Ref.self fun e he => by
      obtain ⟨e', -, rfl⟩ := List.mem_map.mp he
      rfl
    rw [History.operations, List.map_map] at hprefix
    exact hprefix
  · obtain ⟨hops, hagree⟩ := mirrored_ran l enc t hrun
    exact ⟨hops, hagree.mono fun _ _ h => ⟨h.shape, h.got, h.asked⟩⟩

end Context
end Wormhole
