import Wormhole.Codec.Overflow

/-!
# `Codec.Capacity` — the vectors that a decoder asks for

`Vec<T>::rematerialize` hands the count in its header to `Vec::with_capacity` before it has looked at an element.
Here every decoder also tells which vectors it asks for, its own and those of the decoders that it calls; without
that it is the decoder that it was. The strings that get to a vector's decoder are those that a grammar of the type
leads to, and each of them is asked for with the count in its header.
-/

namespace Wormhole
namespace Codec

open LittleEndian

/-! ## Requests -/

/-- A call `Vec::with_capacity(capacity)` in `Vec<T>::rematerialize(ctx, data)`. -/
structure Request where
  data : Bytes
  capacity : Nat
  deriving DecidableEq, Repr

/-- The outcome of a codec call, and the vectors that were asked for on the way. -/
structure Traced (α : Type) where
  requests : List Request
  outcome : Res α

namespace Traced

variable {α β : Type}

/-- The requests of the first computation come first, and those of the second only if the first returns. -/
def bind (x : Traced α) (f : α → Traced β) : Traced β :=
  match x.outcome with
  | .ok value => ⟨x.requests ++ (f value).requests, (f value).outcome⟩
  | .err error => ⟨x.requests, .err error⟩
  | .panic reason => ⟨x.requests, .panic reason⟩

instance : Monad Traced where
  pure value := ⟨[], .ok value⟩
  bind := bind

/-- Code that asks for no vector. -/
def lift (x : Res α) : Traced α := ⟨[], x⟩

/-- `Vec::with_capacity` for a count that was read from `data`. -/
def request (data : Bytes) (capacity : Nat) : Traced Unit := ⟨[⟨data, capacity⟩], .ok ()⟩

@[simp] theorem outcome_pure (a : α) : (pure a : Traced α).outcome = .ok a := rfl
@[simp] theorem outcome_lift (x : Res α) : (lift x).outcome = x := rfl
@[simp] theorem outcome_request (data : Bytes) (capacity : Nat) : (request data capacity).outcome = .ok () := rfl

@[simp] theorem outcome_bind (x : Traced α) (f : α → Traced β) :
    (x >>= f).outcome = (x.outcome >>= fun a => (f a).outcome) := by
  obtain ⟨requests, outcome⟩ := x
  cases outcome with
  | ok a => rfl
  | err e => rfl
  | panic reason => rfl

@[simp] theorem outcome_ite (c : Prop) [Decidable c] (x y : Traced α) :
    (if c then x else y).outcome = if c then x.outcome else y.outcome := by
  split <;> rfl

variable {r : Request}

@[simp] theorem not_mem_pure (a : α) : r ∉ (pure a : Traced α).requests := List.not_mem_nil
@[simp] theorem not_mem_lift (x : Res α) : r ∉ (lift x).requests := List.not_mem_nil
@[simp] theorem mem_request {data : Bytes} {capacity : Nat} :
    r ∈ (request data capacity).requests ↔ r = ⟨data, capacity⟩ := List.mem_singleton

/-- A sequence asks for what its parts ask for. -/
theorem mem_bind {x : Traced α} {f : α → Traced β} :
    r ∈ (x >>= f).requests ↔ r ∈ x.requests ∨ ∃ a, x.outcome = .ok a ∧ r ∈ (f a).requests := by
  obtain ⟨requests, outcome⟩ := x
  cases outcome with
  | ok a =>
    show r ∈ requests ++ (f a).requests ↔ _
    rw [List.mem_append]
    refine or_congr_right ⟨fun h => ⟨a, rfl, h⟩, ?_⟩
    rintro ⟨a', ha', h⟩
    cases ha'
    exact h
  | err e =>
    refine (or_iff_left ?_).symm
    rintro ⟨a, ha, -⟩
    cases ha
  | panic reason =>
    refine (or_iff_left ?_).symm
    rintro ⟨a, ha, -⟩
    cases ha

/-- A computation without requests passes on what it returns. -/
theorem mem_lift_bind {x : Res α} {f : α → Traced β} :
    r ∈ (lift x >>= f).requests ↔ ∃ a, x = .ok a ∧ r ∈ (f a).requests :=
  mem_bind.trans (or_iff_right (not_mem_lift x))

@[simp] theorem lift_ok_bind (a : α) (f : α → Traced β) : (lift (.ok a) >>= f) = f a := rfl
@[simp] theorem lift_err_bind (e : DecodeError) (f : α → Traced β) : (lift (.err e) >>= f) = lift (.err e) := rfl
@[simp] theorem lift_panic_bind (reason : Panic) (f : α → Traced β) :
    (lift (.panic reason) >>= f) = lift (.panic reason) := rfl

/-- What is asked for first, or what is asked for later. -/
theorem mem_request_bind {data : Bytes} {capacity : Nat} {f : Unit → Traced β} :
    r ∈ (request data capacity >>= f).requests ↔ r = ⟨data, capacity⟩ ∨ r ∈ (f ()).requests := List.mem_cons

/-- What comes last may ask for nothing. -/
theorem mem_bind_of_quiet {x : Traced α} {f : α → Traced β} (hf : ∀ a, r ∉ (f a).requests) :
    r ∈ (x >>= f).requests ↔ r ∈ x.requests :=
  mem_bind.trans (or_iff_left fun ⟨a, _, h⟩ => hf a h)

end Traced

open Traced

/-! ## The decoders -/

section Decoders

variable (p : Platform) {α β : Type}

/-- The loop of `Vec<T>::rematerialize`. -/
def tracedVecLoop (size : Nat) (D : Bytes → Traced α) (data : Bytes) :
    Nat → Nat → Buffer p size α → Traced (Nat × Buffer p size α)
  | 0,        offset, buffer => pure (offset, buffer)
  | fuel + 1, offset, buffer =>
      if offset < data.length then do
        let (elementData, next) ← lift (readBlock p .util data offset)
        let element ← D elementData
        let buffer ← lift (buffer.push element)
        tracedVecLoop size D data fuel next buffer
      else pure (offset, buffer)

/-- `Vec<T>::rematerialize`. -/
def tracedVec (size : Nat) (D : Bytes → Traced α) (data : Bytes) : Traced (RVec p size α) := do
  lift (requireMinBufferSize data 8)
  let header ← lift (slice data 0 8)
  let count ← lift (usizeFromU64LeBytes p header)
  request data count
  let buffer ← lift (Buffer.withCapacity p size α count)
  let (offset, buffer) ← tracedVecLoop p size D data data.length 8 buffer
  lift (requireBufferSize data offset)
  pure buffer.toRVec

/-- `Option<T>::rematerialize`. -/
def tracedOption (D : Bytes → Traced α) (data : Bytes) : Traced (Option α) := do
  lift (requireMinBufferSize data 1)
  let discriminant ← lift (index data 0)
  if discriminant = 0 then do
    lift (requireBufferSize data 1)
    pure none
  else if discriminant = 1 then do
    lift (requireMinBufferSize data 9)
    let innerData ← lift (readTagged p data .ok)
    let value ← D innerData
    pure (some value)
  else lift (.err (.invalidOptionDiscriminant discriminant))

/-- `Result<T, E>::rematerialize`. -/
def tracedResult (D : Bytes → Traced α) (E : Bytes → Traced β) (data : Bytes) : Traced (Except β α) := do
  lift (requireMinBufferSize data 9)
  let discriminant ← lift (index data 0)
  let innerData ← lift (readTagged p data .ok)
  if discriminant = 0 then do
    let value ← D innerData
    pure (.ok value)
  else if discriminant = 1 then do
    let error ← E innerData
    pure (.error error)
  else lift (.err (.invalidResultDiscriminant discriminant))

/-- A field, and the fields after it. -/
def tracedCons (style : BlockStyle) (D : Bytes → Traced α) (rest : Bytes → Nat → Traced (β × Nat)) (data : Bytes)
    (offset : Nat) : Traced ((α × β) × Nat) := do
  let (fieldBytes, next) ← lift (readBlock p style data offset)
  let field ← D fieldBytes
  let (fields, stop) ← rest data next
  pure ((field, fields), stop)

/-- A list of fields that is the whole buffer; `check` is the last line of the place. -/
def tracedFields (F : Bytes → Nat → Traced (α × Nat)) (check : Nat → Res Unit) (data : Bytes) : Traced α := do
  let (fields, offset) ← F data 0
  lift (check offset)
  pure fields

/-- The arm of a variant, and the arms after it. -/
def tracedVariant (variantName : String) (arm : Bytes → Traced α) (rest : String → Bytes → Traced β) (name : String)
    (payload : Bytes) : Traced (α ⊕ β) :=
  if name = variantName then do
    let v ← arm payload
    pure (.inl v)
  else do
    let w ← rest name payload
    pure (.inr w)

/-- `rematerialize` of a derived enum. -/
def tracedEnum (V : String → Bytes → Traced α) (data : Bytes) : Traced α := do
  let (variantNameBytes, offset) ← lift (readBlock p .variantName data 0)
  let variantName ← lift (fromUtf8 variantNameBytes)
  let (payloadData, offset) ← lift (readBlock p .payload data offset)
  let result ← V variantName payloadData
  lift (consumed data offset (.notConsumed data.length offset))
  pure result

end Decoders

mutual

/-- `rematerialize` of a type. -/
def Ty.traced (tgt : Target) : (t : Ty) → Bytes → Traced (t.Val tgt)
  | .vec t, data => tracedVec tgt.toPlatform (tgt.sizeOf t) (t.traced tgt) data
  | .option t, data => tracedOption tgt.toPlatform (t.traced tgt) data
  | .result t e, data => tracedResult tgt.toPlatform (t.traced tgt) (e.traced tgt) data
  | .tuple ts, data => tracedFields (ts.traced tgt .util) (requireBufferSize data) data
  | .structNamed ts, data | .structTuple ts, data =>
      tracedFields (ts.traced tgt .field) (fun offset => consumed data offset (.notConsumed data.length offset)) data
  | .enum _ (.cons name fields vs), data =>
      tracedEnum tgt.toPlatform (tracedVariant name (fields.traced tgt) (vs.traced tgt)) data
  | .num k, data => lift ((Ty.codec tgt (.num k)).rematerialize data)
  | .usize, data => lift ((Ty.codec tgt .usize).rematerialize data)
  | .isize, data => lift ((Ty.codec tgt .isize).rematerialize data)
  | .bool, data => lift ((Ty.codec tgt .bool).rematerialize data)
  | .unit, data => lift ((Ty.codec tgt .unit).rematerialize data)
  | .string, data => lift ((Ty.codec tgt .string).rematerialize data)
  | .bytes, data => lift ((Ty.codec tgt .bytes).rematerialize data)
  | .structUnit, data => lift ((Ty.codec tgt .structUnit).rematerialize data)
  | .enum name .nil, data => lift ((Ty.codec tgt (.enum name .nil)).rematerialize data)

def Tys.traced (tgt : Target) (style : BlockStyle) : (ts : Tys) → Bytes → Nat → Traced (ts.Vals tgt × Nat)
  | .nil, _, offset => pure ((), offset)
  | .cons t ts, data, offset => tracedCons tgt.toPlatform style (t.traced tgt) (ts.traced tgt style) data offset

def Variants.traced (tgt : Target) : (vs : Variants) → String → Bytes → Traced (vs.Vals tgt)
  | .nil, name, _ => lift (.err (.unknownVariant name))
  | .cons name fields vs, name', payload => tracedVariant name (fields.traced tgt) (vs.traced tgt) name' payload

def VariantFields.traced (tgt : Target) : (fields : VariantFields) → Bytes → Traced (fields.Vals tgt)
  | .unit, payload => lift (unitArm.deserialize payload)
  | .tuple ts, payload | .named ts, payload =>
      tracedFields (ts.traced tgt .field)
        (fun offset => consumed payload offset (.payloadNotConsumed payload.length offset)) payload

end

/-! ## Without the requests -/

section Outcomes

variable {p : Platform} {α β : Type} {T : ContextTransmaterializable α} {D : Bytes → Traced α}
  {U : ContextTransmaterializable β} {E : Bytes → Traced β} {data : Bytes}

/-- The tracing loop goes through the same elements: the induction is on the fuel, as in `vecLoop`. -/
theorem outcome_tracedVecLoop {size : Nat} (hD : ∀ data, (D data).outcome = T.rematerialize data) (fuel offset : Nat)
    (v : Buffer p size α) :
    (tracedVecLoop p size D data fuel offset v).outcome = vecLoop p size T data fuel offset v := by
  induction fuel generalizing offset v with
  | zero => rfl
  | succ fuel ih =>
    simp only [tracedVecLoop, vecLoop, outcome_ite, outcome_bind, outcome_lift, outcome_pure, hD, ih]

/-- A traced decoder returns what the decoder returns. The requests are an observation and change nothing. -/
theorem outcome_tracedVec {size : Nat} (hD : ∀ data, (D data).outcome = T.rematerialize data) (data : Bytes) :
    (tracedVec p size D data).outcome = (vec p size T).rematerialize data := by
  simp only [tracedVec, vec, outcome_bind, outcome_lift, outcome_request, outcome_pure, outcome_tracedVecLoop hD,
    Res.ok_bind]

theorem outcome_tracedOption (hD : ∀ data, (D data).outcome = T.rematerialize data) (data : Bytes) :
    (tracedOption p D data).outcome = (option p T).rematerialize data := by
  simp only [tracedOption, option, readTagged, outcome_bind, outcome_lift, outcome_ite, outcome_pure, hD,
    Res.bind_assoc, Res.ok_bind]

theorem outcome_tracedResult (hD : ∀ data, (D data).outcome = T.rematerialize data)
    (hE : ∀ data, (E data).outcome = U.rematerialize data) (data : Bytes) :
    (tracedResult p D E data).outcome = (result p T U).rematerialize data := by
  simp only [tracedResult, result, readTagged, outcome_bind, outcome_lift, outcome_ite, outcome_pure, hD, hE,
    Res.bind_assoc, Res.ok_bind]

variable {F : FieldsCodec β} {G : Bytes → Nat → Traced (β × Nat)}

/-- Field by field, with the offset handed on. -/
theorem outcome_tracedCons {style : BlockStyle} (hD : ∀ data, (D data).outcome = T.rematerialize data)
    (hG : ∀ data offset, (G data offset).outcome = F.deserialize data offset) (data : Bytes) (offset : Nat) :
    (tracedCons p style D G data offset).outcome = (FieldsCodec.cons p style T F).deserialize data offset := by
  simp only [tracedCons, FieldsCodec.cons, outcome_bind, outcome_lift, outcome_pure, hD, hG]

theorem outcome_tracedFields (hG : ∀ data offset, (G data offset).outcome = F.deserialize data offset)
    (check : Nat → Res Unit) (data : Bytes) :
    (tracedFields G check data).outcome = (do
      let (fields, offset) ← F.deserialize data 0
      check offset
      .ok fields) := by
  simp only [tracedFields, outcome_bind, outcome_lift, outcome_pure, hG]

theorem outcome_tracedVariant {name variantName : String} {A : ArmCodec α} {V : VariantsCodec β}
    {W : String → Bytes → Traced β} (hD : ∀ data, (D data).outcome = A.deserialize data)
    (hW : ∀ name data, (W name data).outcome = V.deserialize name data) (data : Bytes) :
    (tracedVariant variantName D W name data).outcome = (VariantsCodec.cons variantName A V).deserialize name data := by
  simp only [tracedVariant, VariantsCodec.cons, outcome_ite, outcome_bind, outcome_pure, hD, hW]

/-- The name and the payload are read in the same order. -/
theorem outcome_tracedEnum {V : VariantsCodec β} {W : String → Bytes → Traced β}
    (hW : ∀ name data, (W name data).outcome = V.deserialize name data) (data : Bytes) :
    (tracedEnum p W data).outcome = (deriveEnum p V).rematerialize data := by
  rw [deriveEnum_rematerialize]
  simp only [tracedEnum, outcome_bind, outcome_lift, outcome_pure, hW]

end Outcomes

mutual

/-- **Without the requests, the traced decoder of a type is its decoder.** -/
theorem Ty.outcome_traced (tgt : Target) : ∀ (t : Ty) (data : Bytes),
    (t.traced tgt data).outcome = (t.codec tgt).rematerialize data
  | .vec t, data => outcome_tracedVec (t.outcome_traced tgt) data
  | .option t, data => outcome_tracedOption (t.outcome_traced tgt) data
  | .result t e, data => outcome_tracedResult (t.outcome_traced tgt) (e.outcome_traced tgt) data
  | .tuple ts, data => outcome_tracedFields (ts.outcome_traced tgt .util) _ data
  | .structNamed ts, data | .structTuple ts, data =>
      (outcome_tracedFields (ts.outcome_traced tgt .field) _ data).trans
        (deriveStructNamed_rematerialize (ts.codec tgt .field) data).symm
  | .enum _ (.cons _ fields vs), data =>
      outcome_tracedEnum
        (fun _ => outcome_tracedVariant (fields.outcome_traced tgt) (vs.outcome_traced tgt)) data
  | .num _, _ | .usize, _ | .isize, _ | .bool, _ | .unit, _ | .string, _ | .bytes, _ | .structUnit, _
  | .enum _ .nil, _ => rfl

/-- Field by field. -/
theorem Tys.outcome_traced (tgt : Target) (style : BlockStyle) : ∀ (ts : Tys) (data : Bytes) (offset : Nat),
    (ts.traced tgt style data offset).outcome = (ts.codec tgt style).deserialize data offset
  | .nil, _, _ => rfl
  | .cons t ts, data, offset => outcome_tracedCons (t.outcome_traced tgt) (ts.outcome_traced tgt style) data offset

theorem Variants.outcome_traced (tgt : Target) : ∀ (vs : Variants) (name : String) (data : Bytes),
    (vs.traced tgt name data).outcome = (vs.codec tgt).deserialize name data
  | .nil, _, _ => rfl
  | .cons _ fields vs, _, data => outcome_tracedVariant (fields.outcome_traced tgt) (vs.outcome_traced tgt) data

theorem VariantFields.outcome_traced (tgt : Target) : ∀ (fields : VariantFields) (data : Bytes),
    (fields.traced tgt data).outcome = (fields.codec tgt).deserialize data
  | .unit, _ => rfl
  | .tuple ts, data | .named ts, data =>
      (outcome_tracedFields (ts.outcome_traced tgt .field) _ data).trans
        (fieldsArm_deserialize (ts.codec tgt .field) data).symm

end

/-! ## What gets to a vector -/

/-- `Vec<T>`: the string itself, and what the elements up to the first bad one lead to. -/
def vecVisits (usizeSize isizeMax size : Nat) (g : Grammar) (visits : Bytes → Bytes → Prop) (data v : Bytes) : Prop :=
  v = data ∨ CountHeader usizeSize data ∧ headerAt data 0 * size ≤ isizeMax ∧
    ∃ bs b rest, data.drop 8 = blocks bs ++ (block b ++ rest) ∧
      Elements isizeMax size (headerAt data 0) g bs ∧ visits b v

/-- A vector inside of a `Some` is visited through its payload. -/
def optionVisits (usizeSize : Nat) (visits : Bytes → Bytes → Prop) (data v : Bytes) : Prop :=
  data[0]? = some 1 ∧ TaggedBlock usizeSize data ∧ visits (data.drop 9) v

/-- A vector on either side is visited through the payload of that side. -/
def resultVisits (usizeSize : Nat) (visits visitsErr : Bytes → Bytes → Prop) (data v : Bytes) : Prop :=
  TaggedBlock usizeSize data ∧
    (data[0]? = some 0 ∧ visits (data.drop 9) v ∨ data[0]? = some 1 ∧ visitsErr (data.drop 9) v)

/-- A field, and if it is accepted the fields after it. -/
def consVisits (g : Grammar) (visits : Bytes → Bytes → Prop) (rest : Bytes → Nat → Bytes → Prop) (data : Bytes)
    (offset : Nat) (v : Bytes) : Prop :=
  ∃ b, BlockAt data offset b ∧ (visits b v ∨ g.accepts b ∧ rest data (offset + 8 + b.length) v)

/-- A vector in the payload of a variant is visited once its name is read. -/
def enumVisits (visits : String → Bytes → Bytes → Prop) (data v : Bytes) : Prop :=
  ∃ name payload, BlockAt data 0 (asBytes name) ∧ BlockAt data (8 + (asBytes name).length) payload ∧
    visits name payload v

mutual

/-- Decoding the first string as the type leads to decoding the second one as a `Vec<T>`. -/
def Ty.Visits (tgt : Target) : Ty → Bytes → Bytes → Prop
  | .vec t, data, v =>
      vecVisits tgt.usizeSize tgt.isizeMax (tgt.sizeOf t) (t.grammar tgt) (t.Visits tgt) data v
  | .option t, data, v => optionVisits tgt.usizeSize (t.Visits tgt) data v
  | .result t e, data, v => resultVisits tgt.usizeSize (t.Visits tgt) (e.Visits tgt) data v
  | .tuple ts, data, v | .structNamed ts, data, v | .structTuple ts, data, v => ts.Visits tgt data 0 v
  | .enum _ (.cons name fields vs), data, v =>
      enumVisits (fun name' payload v =>
        if name' = name then fields.Visits tgt payload v else vs.Visits tgt name' payload v) data v
  | .num _, _, _ | .usize, _, _ | .isize, _, _ | .bool, _, _ | .unit, _, _ | .string, _, _ | .bytes, _, _
  | .structUnit, _, _ | .enum _ .nil, _, _ => False

def Tys.Visits (tgt : Target) : Tys → Bytes → Nat → Bytes → Prop
  | .nil, _, _, _ => False
  | .cons t ts, data, offset, v => consVisits (t.grammar tgt) (t.Visits tgt) (ts.Visits tgt) data offset v

def Variants.Visits (tgt : Target) : Variants → String → Bytes → Bytes → Prop
  | .nil, _, _, _ => False
  | .cons name fields vs, name', payload, v =>
      if name' = name then fields.Visits tgt payload v else vs.Visits tgt name' payload v

def VariantFields.Visits (tgt : Target) : VariantFields → Bytes → Bytes → Prop
  | .unit, _, _ => False
  | .tuple ts, payload, v | .named ts, payload, v => ts.Visits tgt payload 0 v

end

/-! ## The requests -/

/-- The vector's decoder gets to `Vec::with_capacity`, with the count in the header. -/
def Request.FromHeader (usizeSize : Nat) (r : Request) : Prop :=
  CountHeader usizeSize r.data ∧ r.capacity = headerAt r.data 0

section Requests

variable {p : Platform} {α β : Type} {T : ContextTransmaterializable α} {D : Bytes → Traced α} {data : Bytes}
  {r : Request}

/-- At the end of the buffer there is no element left. -/
theorem drop_ne_append_block {offset : Nat} (h : data.length ≤ offset) {xs b rest : Bytes} :
    data.drop offset ≠ xs ++ (block b ++ rest) := by
  intro heq
  have hlen := congrArg List.length heq
  simp only [List.length_drop, List.length_append, length_block] at hlen
  omega

/-- **What the element loop asks for**: what the elements ask for, up to the first one that is not accepted or does
    not fit the vector. -/
theorem mem_tracedVecLoop {size : Nat} (hD : ∀ data, (D data).outcome = T.rematerialize data)
    (hle : data.length ≤ p.isizeMax) {fuel offset : Nat} (hoff : offset ≤ data.length)
    (hfuel : data.length ≤ offset + fuel) {v : Buffer p size α} :
    r ∈ (tracedVecLoop p size D data fuel offset v).requests ↔
      ∃ bs es b rest, data.drop offset = blocks bs ++ (block b ++ rest) ∧ Decodes T bs es ∧
        capacityAfter size v.capacity v.elems.length es.length * size ≤ p.isizeMax ∧ r ∈ (D b).requests := by
  induction fuel generalizing offset v with
  | zero =>
    refine iff_of_false (not_mem_pure _) ?_
    rintro ⟨bs, es, b, rest, hbs, -⟩
    exact drop_ne_append_block (by omega) hbs
  | succ fuel ih =>
    unfold tracedVecLoop
    by_cases hmore : offset < data.length
    · rw [if_pos hmore, mem_lift_bind]
      constructor
      · rintro ⟨⟨b, next⟩, hread, h⟩
        obtain ⟨hblock, rfl⟩ := (readBlock_eq_ok (p.lt_usizeSize hle) hoff).mp hread
        -- it is asked for by this element, or later, and then this element was accepted and pushed
        rcases mem_bind.mp h with h | ⟨e, he, h⟩
        · exact ⟨[], [], b, _, hblock.1, .nil, v.fits, h⟩
        · rw [hD] at he
          obtain ⟨v', hpush, h⟩ := mem_lift_bind.mp h
          obtain ⟨bs, es, b', rest, hbs, hdec, hfits, h⟩ := (ih hblock.2 (by omega)).mp h
          rw [Buffer.capacityAfter_push hpush] at hfits
          refine ⟨b :: bs, e :: es, b', rest, ?_, .cons he hdec, hfits, h⟩
          rw [hblock.1, hbs, blocks_cons, List.append_assoc]
      · rintro ⟨bs, es, b, rest, hbs, hdec, hfits, h⟩
        cases hdec with
        | nil =>
          obtain ⟨hblock, -⟩ := blockAt_of_drop hbs hoff
          exact ⟨_, (readBlock_eq_ok (p.lt_usizeSize hle) hoff).mpr ⟨hblock, rfl⟩, mem_bind.mpr (.inl h)⟩
        | @cons b' e bs es he hdec =>
          rw [blocks_cons, List.append_assoc] at hbs
          obtain ⟨hblock, hrest⟩ := blockAt_of_drop hbs hoff
          -- the capacity only grows, so what fits in the end fits now
          obtain ⟨v', hpush⟩ := Buffer.exists_push_of_le hfits e
          rw [List.length_cons, ← Buffer.capacityAfter_push hpush] at hfits
          refine ⟨_, (readBlock_eq_ok (p.lt_usizeSize hle) hoff).mpr ⟨hblock, rfl⟩, mem_bind.mpr (.inr ⟨e, ?_, ?_⟩)⟩
          · rw [hD, he]
          · refine mem_lift_bind.mpr ⟨_, hpush, (ih hblock.2 (by omega)).mpr ?_⟩
            exact ⟨bs, es, b, rest, hrest, hdec, hfits, h⟩
    · rw [if_neg hmore]
      refine iff_of_false (not_mem_pure _) ?_
      rintro ⟨bs, es, b, rest, hbs, -⟩
      exact drop_ne_append_block (by omega) hbs

/-- The requests of a decoder are made with the headers of the strings that get to a vector. -/
def Asks (p : Platform) (D : Bytes → Traced α) (visits : Bytes → Bytes → Prop) : Prop :=
  ∀ data, data.length ≤ p.isizeMax → ∀ r,
    r ∈ (D data).requests ↔ visits data r.data ∧ r.FromHeader p.usizeSize

/-- `Asks` for fields, from every offset. -/
def FieldsAsk (p : Platform) (F : Bytes → Nat → Traced (α × Nat)) (visits : Bytes → Nat → Bytes → Prop) : Prop :=
  ∀ data offset, data.length ≤ p.isizeMax → offset ≤ data.length → ∀ r,
    r ∈ (F data offset).requests ↔ visits data offset r.data ∧ r.FromHeader p.usizeSize

/-- What is accepted is told by the grammar. -/
def Accepts (p : Platform) (T : ContextTransmaterializable α) (g : Grammar) : Prop :=
  ∀ data, data.length ≤ p.isizeMax → (T.language.accepts data ↔ g.accepts data)

theorem asks_lift (f : Bytes → Res α) : Asks p (fun data => lift (f data)) fun _ _ => False :=
  fun _ _ _ => iff_of_false (not_mem_lift _) And.left

/-- No element is longer than the data that it was cut out of. -/
theorem elements_length_le {bs : List Bytes} {b rest : Bytes} (hle : data.length ≤ p.isizeMax)
    (hbs : data.drop 8 = blocks bs ++ (block b ++ rest)) :
    b.length ≤ p.isizeMax ∧ ∀ c ∈ bs, c.length ≤ p.isizeMax := by
  have hlen := congrArg List.length hbs
  simp only [List.length_drop, List.length_append, length_block] at hlen
  refine ⟨by omega, fun c hc => ?_⟩
  have := length_le_of_mem_blocks hc
  omega

/-- The count is read and handed on before anything else happens. -/
theorem mem_tracedVec {size : Nat} (hD : ∀ data, (D data).outcome = T.rematerialize data)
    (hle : data.length ≤ p.isizeMax) :
    r ∈ (tracedVec p size D data).requests ↔ CountHeader p.usizeSize data ∧
      (r = ⟨data, headerAt data 0⟩ ∨ headerAt data 0 * size ≤ p.isizeMax ∧
        ∃ bs es b rest, data.drop 8 = blocks bs ++ (block b ++ rest) ∧ Decodes T bs es ∧
          capacityAfter size (headerAt data 0) 0 es.length * size ≤ p.isizeMax ∧ r ∈ (D b).requests) := by
  unfold tracedVec
  by_cases h8 : 8 ≤ data.length
  · have hslice : slice data 0 8 = .ok ((data.drop 0).take 8) := slice_of_le (by omega) h8
    have hread : usizeFromU64LeBytes p ((data.drop 0).take 8) = u64ToUsize p (headerAt data 0) :=
      if_pos (length_take_drop_eight data 0 (by omega))
    simp only [requireMinBufferSize_of_le h8, hslice, hread, lift_ok_bind, u64ToUsize]
    by_cases hfit : headerAt data 0 < p.usizeSize
    · rw [if_pos hfit, lift_ok_bind, mem_request_bind, and_iff_right ⟨h8, hfit⟩]
      refine or_congr_right ?_
      by_cases hcap : headerAt data 0 * size ≤ p.isizeMax
      · rw [Buffer.withCapacity_of_le hcap, lift_ok_bind, and_iff_right hcap, mem_bind_of_quiet fun _ => mem_lift_bind.not.mpr (by simp),
          mem_tracedVecLoop hD hle h8 (by omega)]
        rfl
      · rw [Buffer.withCapacity_of_gt (Nat.lt_of_not_le hcap), lift_panic_bind]
        exact iff_of_false (not_mem_lift _) fun h => hcap h.1
    · rw [if_neg hfit, lift_err_bind]
      exact iff_of_false (not_mem_lift _) fun h => hfit h.1.2
  · have hshort : requireMinBufferSize data 8 = .err (.bufferSizeMismatch 8 data.length) := if_pos (by omega)
    rw [hshort, lift_err_bind]
    exact iff_of_false (not_mem_lift _) fun h => h8 h.1.1

/-- A vector asks for its own count, if it is a `usize`, and then for what the elements ask for that are
    read. An element is read if those before it were accepted and pushed. -/
theorem asks_vec {size : Nat} {g : Grammar} {visits : Bytes → Bytes → Prop}
    (hD : ∀ data, (D data).outcome = T.rematerialize data) (hg : Accepts p T g) (h : Asks p D visits) :
    Asks p (tracedVec p size D) (vecVisits p.usizeSize p.isizeMax size g visits) := by
  intro data hle r
  rw [mem_tracedVec hD hle]
  constructor
  · rintro ⟨hhead, rfl | ⟨hcap, bs, es, b, rest, hbs, hdec, hfits, hr⟩⟩
    · exact ⟨.inl rfl, hhead, rfl⟩
    · obtain ⟨hb, hmem⟩ := elements_length_le hle hbs
      obtain ⟨hv, hr⟩ := (h b hb r).mp hr
      have hels : Elements p.isizeMax size (headerAt data 0) g bs :=
        ⟨hdec.length_eq ▸ hfits, fun c hc => (hg c (hmem c hc)).mp (exists_decodes.mp ⟨es, hdec⟩ c hc)⟩
      exact ⟨.inr ⟨hhead, hcap, bs, b, rest, hbs, hels, hv⟩, hr⟩
  · rintro ⟨hdata | ⟨hhead, hcap, bs, b, rest, hbs, ⟨hfits, hels⟩, hv⟩, hr⟩
    · obtain ⟨hhead, hcapacity⟩ := hr
      rw [hdata] at hhead hcapacity
      refine ⟨hhead, .inl ?_⟩
      rw [← hcapacity, ← hdata]
    · obtain ⟨hb, hmem⟩ := elements_length_le hle hbs
      obtain ⟨es, hdec⟩ := exists_decodes.mpr fun c hc => (hg c (hmem c hc)).mpr (hels c hc)
      exact ⟨hhead, .inr ⟨hcap, bs, es, b, rest, hbs, hdec, hdec.length_eq ▸ hfits, (h b hb r).mpr ⟨hv, hr⟩⟩⟩

theorem readTagged_eq_drop (hlt : data.length < p.usizeSize) (h9 : 9 ≤ data.length) {inner : Bytes} :
    readTagged p data .ok = .ok inner ↔ TaggedBlock p.usizeSize data ∧ inner = data.drop 9 := by
  rw [readTagged_eq_ok hlt h9, Res.ok.injEq]
  exact and_congr_right fun _ => eq_comm

/-- A `None` asks for nothing. -/
theorem asks_option {visits : Bytes → Bytes → Prop} (h : Asks p D visits) :
    Asks p (tracedOption p D) (optionVisits p.usizeSize visits) := by
  intro data hle r
  unfold tracedOption optionVisits
  cases data with
  | nil => exact iff_of_false (not_mem_lift _) (by simp)
  | cons d rest =>
    have h1 : requireMinBufferSize (d :: rest) 1 = .ok () := requireMinBufferSize_of_le (by simp)
    have hindex : index (d :: rest) 0 = .ok d := rfl
    simp only [h1, hindex, lift_ok_bind, List.getElem?_cons_zero]
    by_cases h0 : d = 0
    · rw [if_pos h0]
      refine iff_of_false ?_ fun h => absurd (h0.symm.trans (Option.some.inj h.1.1)) (by decide)
      rw [mem_lift_bind]
      exact fun ⟨_, _, h⟩ => not_mem_pure _ h
    · rw [if_neg h0]
      by_cases hd : d = 1
      · rw [if_pos hd, and_iff_right (congrArg some hd)]
        by_cases h9 : 9 ≤ (d :: rest).length
        · rw [requireMinBufferSize_of_le h9, lift_ok_bind, mem_lift_bind]
          simp only [readTagged_eq_drop (p.lt_usizeSize hle) h9, mem_bind_of_quiet fun _ => not_mem_pure _]
          have hinner : ((d :: rest).drop 9).length ≤ p.isizeMax := drop_nine_length_le hle
          constructor
          · rintro ⟨_, ⟨htag, rfl⟩, hr⟩
            obtain ⟨hv, hr⟩ := (h _ hinner r).mp hr
            exact ⟨⟨htag, hv⟩, hr⟩
          · rintro ⟨⟨htag, hv⟩, hr⟩
            exact ⟨_, ⟨htag, rfl⟩, (h _ hinner r).mpr ⟨hv, hr⟩⟩
        · have hshort : requireMinBufferSize (d :: rest) 9 = .err (.bufferSizeMismatch 9 (d :: rest).length) :=
            if_pos (by omega)
          rw [hshort, lift_err_bind]
          exact iff_of_false (not_mem_lift _) fun h => h9 h.1.1.1
      · rw [if_neg hd]
        exact iff_of_false (not_mem_lift _) fun h => hd (Option.some.inj h.1.1)

/-- Both sides ask for what their payload asks for. -/
theorem asks_result {E : Bytes → Traced β} {visits visitsErr : Bytes → Bytes → Prop} (h : Asks p D visits)
    (h' : Asks p E visitsErr) : Asks p (tracedResult p D E) (resultVisits p.usizeSize visits visitsErr) := by
  intro data hle r
  unfold tracedResult resultVisits
  by_cases h9 : 9 ≤ data.length
  · have hinner : (data.drop 9).length ≤ p.isizeMax := drop_nine_length_le hle
    cases data with
    | nil => exact absurd h9 (by simp)
    | cons d rest =>
      have hindex : index (d :: rest) 0 = .ok d := rfl
      simp only [requireMinBufferSize_of_le h9, hindex, lift_ok_bind, List.getElem?_cons_zero]
      rw [mem_lift_bind]
      simp only [readTagged_eq_drop (p.lt_usizeSize hle) h9]
      have hbody : r ∈ (if d = 0 then do
            let value ← D ((d :: rest).drop 9)
            pure (.ok value)
          else if d = 1 then do
            let error ← E ((d :: rest).drop 9)
            pure (.error error)
          else lift (.err (.invalidResultDiscriminant d)) : Traced (Except β α)).requests ↔
          (some d = some 0 ∧ visits ((d :: rest).drop 9) r.data ∨
            some d = some 1 ∧ visitsErr ((d :: rest).drop 9) r.data) ∧ r.FromHeader p.usizeSize := by
        by_cases h0 : d = 0
        · rw [if_pos h0, mem_bind_of_quiet fun _ => not_mem_pure _, h _ hinner]
          simp [h0]
        · rw [if_neg h0]
          by_cases hd : d = 1
          · rw [if_pos hd, mem_bind_of_quiet fun _ => not_mem_pure _, h' _ hinner]
            simp [hd]
          · rw [if_neg hd]
            exact iff_of_false (not_mem_lift _) (by simp [h0, hd])
      constructor
      · rintro ⟨_, ⟨htag, rfl⟩, hr⟩
        obtain ⟨hv, hr⟩ := hbody.mp hr
        exact ⟨⟨htag, hv⟩, hr⟩
      · rintro ⟨⟨htag, hv⟩, hr⟩
        exact ⟨_, ⟨htag, rfl⟩, hbody.mpr ⟨hv, hr⟩⟩
  · have hshort : requireMinBufferSize data 9 = .err (.bufferSizeMismatch 9 data.length) := if_pos (by omega)
    rw [hshort, lift_err_bind]
    exact iff_of_false (not_mem_lift _) fun h => h9 h.1.1.1

theorem fieldsAsk_nil : FieldsAsk p (fun _ offset => pure ((), offset)) fun _ _ _ => False :=
  fun _ _ _ _ _ => iff_of_false (not_mem_pure _) And.left

/-- A later field is reached only if the earlier ones are accepted. -/
theorem fieldsAsk_cons {style : BlockStyle} {G : Bytes → Nat → Traced (β × Nat)} {g : Grammar}
    {visits : Bytes → Bytes → Prop} {rest : Bytes → Nat → Bytes → Prop}
    (hD : ∀ data, (D data).outcome = T.rematerialize data) (hg : Accepts p T g) (h : Asks p D visits)
    (hrest : FieldsAsk p G rest) : FieldsAsk p (tracedCons p style D G) (consVisits g visits rest) := by
  intro data offset hle hoff r
  unfold tracedCons consVisits
  rw [mem_lift_bind]
  constructor
  · rintro ⟨⟨b, next⟩, hread, hr⟩
    obtain ⟨hblock, rfl⟩ := (readBlock_eq_ok (p.lt_usizeSize hle) hoff).mp hread
    have hb := hblock.length_le hle
    rcases mem_bind.mp hr with hr | ⟨field, hfield, hr⟩
    · obtain ⟨hv, hr⟩ := (h b hb r).mp hr
      exact ⟨⟨b, hblock, .inl hv⟩, hr⟩
    · rw [hD] at hfield
      rw [mem_bind_of_quiet fun _ => not_mem_pure _] at hr
      obtain ⟨hv, hr⟩ := (hrest data _ hle hblock.2 r).mp hr
      exact ⟨⟨b, hblock, .inr ⟨(hg b hb).mp ⟨field, hfield⟩, hv⟩⟩, hr⟩
  · rintro ⟨⟨b, hblock, hv⟩, hr⟩
    have hb := hblock.length_le hle
    refine ⟨_, (readBlock_eq_ok (p.lt_usizeSize hle) hoff).mpr ⟨hblock, rfl⟩, mem_bind.mpr ?_⟩
    rcases hv with hv | ⟨haccepts, hv⟩
    · exact .inl ((h b hb r).mpr ⟨hv, hr⟩)
    · obtain ⟨field, hfield⟩ := (hg b hb).mpr haccepts
      refine .inr ⟨field, (hD b).trans hfield, ?_⟩
      rw [mem_bind_of_quiet fun _ => not_mem_pure _]
      exact (hrest data _ hle hblock.2 r).mpr ⟨hv, hr⟩

/-- The check at the end asks for nothing. -/
theorem asks_fields {F : Bytes → Nat → Traced (α × Nat)} {visits : Bytes → Nat → Bytes → Prop}
    (h : FieldsAsk p F visits) (check : Bytes → Nat → Res Unit) :
    Asks p (fun data => tracedFields F (check data) data) fun data => visits data 0 := by
  intro data hle r
  unfold tracedFields
  rw [mem_bind_of_quiet fun _ => mem_lift_bind.not.mpr fun ⟨_, _, h⟩ => not_mem_pure _ h]
  exact h data 0 hle (Nat.zero_le _) r

/-- The arm that is taken asks, and no other. -/
theorem asks_variant {name variantName : String} {W : String → Bytes → Traced β} {visits rest : Bytes → Bytes → Prop}
    (h : Asks p D visits) (hrest : Asks p (W name) rest) :
    Asks p (tracedVariant variantName D W name)
      fun payload v => if name = variantName then visits payload v else rest payload v := by
  intro payload hle r
  unfold tracedVariant
  by_cases hname : name = variantName
  · simp only [if_pos hname]
    rw [mem_bind_of_quiet fun _ => not_mem_pure _]
    exact h payload hle r
  · simp only [if_neg hname]
    rw [mem_bind_of_quiet fun _ => not_mem_pure _]
    exact hrest payload hle r

/-- The names and payloads are slices. They are not allocated by a count of the peer's. -/
theorem asks_enum {W : String → Bytes → Traced β} {visits : String → Bytes → Bytes → Prop}
    (h : ∀ name, Asks p (W name) (visits name)) : Asks p (tracedEnum p W) (enumVisits visits) := by
  intro data hle r
  have hlt := p.lt_usizeSize hle
  unfold tracedEnum enumVisits
  rw [mem_lift_bind]
  constructor
  · rintro ⟨⟨b, next⟩, hread, hr⟩
    obtain ⟨hname, rfl⟩ := (readBlock_eq_ok hlt (Nat.zero_le _)).mp hread
    obtain ⟨name, hutf8, hr⟩ := mem_lift_bind.mp hr
    obtain rfl := fromUtf8_eq_ok.mp hutf8
    obtain ⟨⟨payload, next⟩, hread, hr⟩ := mem_lift_bind.mp hr
    obtain ⟨hpayload, rfl⟩ := (readBlock_eq_ok hlt hname.2).mp hread
    rw [mem_bind_of_quiet fun _ => mem_lift_bind.not.mpr fun ⟨_, _, h⟩ => not_mem_pure _ h] at hr
    rw [Nat.zero_add] at hpayload
    obtain ⟨hv, hr⟩ := (h name payload (hpayload.length_le hle) r).mp hr
    exact ⟨⟨name, payload, hname, hpayload, hv⟩, hr⟩
  · rintro ⟨⟨name, payload, hname, hpayload, hv⟩, hr⟩
    refine ⟨_, (readBlock_eq_ok hlt (Nat.zero_le _)).mpr ⟨hname, rfl⟩, ?_⟩
    refine mem_lift_bind.mpr ⟨name, fromUtf8_eq_ok.mpr rfl, ?_⟩
    have hread : readBlock p .payload data (0 + 8 + (asBytes name).length) =
        .ok (payload, 8 + (asBytes name).length + 8 + payload.length) := by
      rw [Nat.zero_add]
      exact readBlock_of_blockAt hlt hpayload
    refine mem_lift_bind.mpr ⟨_, hread, ?_⟩
    rw [mem_bind_of_quiet fun _ => mem_lift_bind.not.mpr fun ⟨_, _, h⟩ => not_mem_pure _ h]
    exact (h name payload (hpayload.length_le hle) r).mpr ⟨hv, hr⟩


end Requests

/-- Acceptance does not depend on the build, so the grammar may say which elements are reached. -/
theorem Ty.accepts_grammar (tgt : Target) (t : Ty) : Accepts tgt.toPlatform (t.codec tgt) (t.grammar tgt) :=
  fun data hle => ((t.describes tgt).1 data hle).1

mutual

/-- **A type's decoder asks for the vectors that its grammar leads to**, each with the count in its header. -/
theorem Ty.asks (tgt : Target) : ∀ t : Ty, Asks tgt.toPlatform (t.traced tgt) (t.Visits tgt)
  | .vec t => asks_vec (t.outcome_traced tgt) (t.accepts_grammar tgt) (t.asks tgt)
  | .option t => asks_option (t.asks tgt)
  | .result t e => asks_result (t.asks tgt) (e.asks tgt)
  | .tuple ts => asks_fields (ts.ask tgt .util) requireBufferSize
  | .structNamed ts | .structTuple ts =>
      asks_fields (ts.ask tgt .field) fun data offset => consumed data offset (.notConsumed data.length offset)
  | .enum _ (.cons _ fields vs) => asks_enum fun name' => asks_variant (fields.asks tgt) (vs.ask tgt name')
  | .num _ | .usize | .isize | .bool | .unit | .string | .bytes | .structUnit | .enum _ .nil => asks_lift _

/-- Field by field. -/
theorem Tys.ask (tgt : Target) (style : BlockStyle) : ∀ ts : Tys,
    FieldsAsk tgt.toPlatform (ts.traced tgt style) (ts.Visits tgt)
  | .nil => fieldsAsk_nil
  | .cons t ts => fieldsAsk_cons (t.outcome_traced tgt) (t.accepts_grammar tgt) (t.asks tgt) (ts.ask tgt style)

theorem Variants.ask (tgt : Target) : ∀ (vs : Variants) (name : String),
    Asks tgt.toPlatform (vs.traced tgt name) (vs.Visits tgt name)
  | .nil, _ => asks_lift _
  | .cons _ fields vs, name => asks_variant (fields.asks tgt) (vs.ask tgt name)

theorem VariantFields.asks (tgt : Target) : ∀ fields : VariantFields,
    Asks tgt.toPlatform (fields.traced tgt) (fields.Visits tgt)
  | .unit => asks_lift _
  | .tuple ts | .named ts =>
      asks_fields (ts.ask tgt .field)
        fun payload offset => consumed payload offset (.payloadNotConsumed payload.length offset)

end

/-! ## The bound -/

/-- The largest number of elements that a buffer of this length has room for. -/
def maxCount (length : Nat) : Nat := (length - 8) / 8

/-- The count headers that decoding gets to, of vectors at any depth, are not larger than the rest of their vector
    has room for. -/
def Ty.CountsFit (tgt : Target) (t : Ty) (b : Bytes) : Prop :=
  ∀ v, t.Visits tgt b v → CountHeader tgt.usizeSize v → headerAt v 0 ≤ maxCount v.length

/-- **Pre-allocation.** Every vector that decoding asks for, at any depth, is asked for with a capacity that its bytes
    have room for, if and only if no count header that decoding gets to is larger; and then no build panics on a
    capacity if and only if the bytes are not oversized either. -/
theorem capacity_bounded_iff (tgt : Target) (t : Ty) (b : tgt.Slice) :
    ((∀ r ∈ (t.traced tgt b.1).requests, r.capacity ≤ maxCount r.data.length) ↔ t.CountsFit tgt b.1) ∧
      (((∀ r ∈ (t.traced tgt b.1).requests, r.capacity ≤ maxCount r.data.length) ∧
          ∀ checks, ¬ ((t.codec (tgt.withChecks checks)).rematerialize b.1).Faults .capacity) ↔
        t.CountsFit tgt b.1 ∧ ¬ t.Oversized tgt b.1) := by
  have hbound : (∀ r ∈ (t.traced tgt b.1).requests, r.capacity ≤ maxCount r.data.length) ↔ t.CountsFit tgt b.1 := by
    constructor
    · intro h v hv hhead
      exact h ⟨v, headerAt v 0⟩ ((t.asks tgt b.1 b.2 _).mpr ⟨hv, hhead, rfl⟩)
    · intro h r hr
      obtain ⟨hv, hhead, hcapacity⟩ := (t.asks tgt b.1 b.2 r).mp hr
      rw [hcapacity]
      exact h r.data hv hhead
  exact ⟨hbound, and_congr hbound (no_fault_iff tgt t b .capacity)⟩

/-- Eight bytes `0xFF` ask for `u64::MAX` elements, where there is room for none. -/
theorem count_not_bounded :
    (¬ ∀ r ∈ ((Ty.vec .bool).traced (.sixtyFour true) (List.replicate 8 0xFF)).requests,
        r.capacity ≤ maxCount r.data.length) ∧
      ((Ty.vec .bool).codec (.sixtyFour true)).rematerialize (List.replicate 8 0xFF) = .panic .capacityOverflow :=
  ⟨by decide +kernel, rfl⟩

end Codec
end Wormhole
