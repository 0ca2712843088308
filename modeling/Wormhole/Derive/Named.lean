import Wormhole.Derive.Running

/-!
# `Derive.Named` — what the code for named fields does

`for_field` names the variables after the field, so the variable of one field can have the name that is generated
for another. Where no variable is bound again while it is still needed, the code does what the fields by position
do.
-/

namespace Wormhole
namespace Derive

open LittleEndian Codec

variable {ι : Type}

/-! ## Names -/

namespace NamedField

variable {f g : NamedField ι} {x : String}

theorem identFieldBytes_eq (f : NamedField ι) : f.identFieldBytes = "field_" ++ ("bytes_" ++ f.name) := by
  rw [← String.append_assoc]
  rfl

theorem identFieldLen_eq (f : NamedField ι) : f.identFieldLen = "field_" ++ ("len_" ++ f.name) := by
  rw [← String.append_assoc]
  rfl

theorem identField_ne (hx : NotGenerated x) : f.identField ≠ x := hx _

theorem identFieldBytes_ne (hx : NotGenerated x) : f.identFieldBytes ≠ x := by
  rw [identFieldBytes_eq]
  exact hx _

theorem identFieldLen_ne (hx : NotGenerated x) : f.identFieldLen ≠ x := by
  rw [identFieldLen_eq]
  exact hx _

theorem identField_inj : f.identField = g.identField ↔ f.name = g.name := String.append_right_inj _

theorem identFieldBytes_inj : f.identFieldBytes = g.identFieldBytes ↔ f.name = g.name := String.append_right_inj _

/-- **The value of one field has the name of the length of another one.** -/
theorem identField_eq_identFieldLen : f.identField = g.identFieldLen ↔ f.name = "len_" ++ g.name := by
  rw [identFieldLen_eq]
  exact String.append_right_inj _

theorem identField_eq_identFieldBytes : f.identField = g.identFieldBytes ↔ f.name = "bytes_" ++ g.name := by
  rw [identFieldBytes_eq]
  exact String.append_right_inj _

theorem identFieldLen_ne_identFieldBytes : f.identFieldLen ≠ g.identFieldBytes := by
  rw [identFieldLen_eq, identFieldBytes_eq]
  intro h
  have := congrArg String.toList ((String.append_right_inj _).mp h)
  simp at this

/-- A field is not in its own way. -/
theorem identField_ne_identFieldBytes_self : f.identField ≠ f.identFieldBytes := by
  intro h
  have := congrArg String.length (identField_eq_identFieldBytes.mp h)
  rw [String.length_append] at this
  exact absurd this (by simp)

theorem identField_ne_identFieldLen_self : f.identField ≠ f.identFieldLen := by
  intro h
  have := congrArg String.length (identField_eq_identFieldLen.mp h)
  rw [String.length_append] at this
  exact absurd this (by simp)

end NamedField

variable [DecidableEq ι] {p : Platform} {others : Others ι} {dataIdent offsetIdent : String}

/-! ## Decoding named fields -/

/-- No field `len_n` is declared before a field `n`. -/
def NoLenBefore (fields : List (NamedField ι)) : Prop :=
  fields.Pairwise fun earlier later => earlier.name ≠ "len_" ++ later.name

/-- No field `bytes_n` is declared before a field `n`. -/
def NoBytesBefore (fields : List (NamedField ι)) : Prop :=
  fields.Pairwise fun earlier later => earlier.name ≠ "bytes_" ++ later.name

/-- No field `field_bytes_n` is declared after a field `n`. -/
def NoFieldBytesAfter (fields : List (NamedField ι)) : Prop :=
  fields.Pairwise fun earlier later => later.name ≠ "field_bytes_" ++ earlier.name

/-- The variables of `for_field`. -/
def NamedField.decodeIdents (f : NamedField ι) : DecodeIdents where
  len := f.identFieldLen
  bytes := f.identFieldBytes
  value := f.identField

omit [DecidableEq ι] in
theorem NamedField.private_decodeIdents (f : NamedField ι) (hidents : Idents dataIdent offsetIdent) :
    f.decodeIdents.Private dataIdent offsetIdent where
  len := ⟨(f.identFieldLen_ne hidents.data).symm, (f.identFieldLen_ne hidents.offset).symm,
    (f.identFieldLen_ne notGenerated_ctx).symm⟩
  bytes := ⟨(f.identFieldBytes_ne hidents.data).symm, (f.identFieldBytes_ne hidents.offset).symm,
    (f.identFieldBytes_ne notGenerated_ctx).symm⟩
  value := ⟨(f.identField_ne hidents.data).symm, (f.identField_ne hidents.offset).symm,
    (f.identField_ne notGenerated_ctx).symm⟩
  len_ne_bytes := identFieldLen_ne_identFieldBytes

omit [DecidableEq ι] in
theorem deserialize_eq (fields : List (NamedField ι)) (self : Bool) (i : Nat) :
    deserialize fields self dataIdent offsetIdent =
      decodeFields (fun _ f => f.decodeIdents) dataIdent offsetIdent i fields := by
  induction fields generalizing i with
  | nil => rfl
  | cons f fields ih => exact congrArg (_ ++ ·) (ih (i + 1))

theorem construct_eq (fields : List (NamedField ι)) (env : Scope Place (Var p others)) (i : Nat) :
    construct fields env = constructFields (fun _ f => f.decodeIdents) i fields env := by
  induction fields generalizing i with
  | nil => rfl
  | cons f fields ih =>
    unfold construct constructFields
    rw [ih (i + 1)]
    rfl

omit [DecidableEq ι] in
/-- Names that do not clash keep the values. -/
theorem valuesStay_named {fields : List (NamedField ι)} (hidents : Idents dataIdent offsetIdent)
    (hdistinct : (fields.map NamedField.name).Nodup) (hlen : NoLenBefore fields) (hbytes : NoBytesBefore fields)
    (i : Nat) : ValuesStay (fun _ f => f.decodeIdents) dataIdent offsetIdent i fields := by
  induction fields generalizing i with
  | nil => trivial
  | cons f fields ih =>
    obtain ⟨hf, hdistinct⟩ := List.nodup_cons.mp hdistinct
    obtain ⟨hflen, hlen⟩ := List.pairwise_cons.mp hlen
    obtain ⟨hfbytes, hbytes⟩ := List.pairwise_cons.mp hbytes
    refine ⟨fun s hs heq => ?_, ih hdistinct hlen hbytes (i + 1)⟩
    rcases binds_decodeFields hs with hoffset | ⟨j, -, g, hg, hg' | hg' | hg'⟩
    · exact f.identField_ne hidents.offset (heq.trans hoffset)
    · exact hflen g hg (NamedField.identField_eq_identFieldLen.mp (heq.trans hg'))
    · exact hfbytes g hg (NamedField.identField_eq_identFieldBytes.mp (heq.trans hg'))
    · exact hf (NamedField.identField_inj.mp (heq.trans hg') ▸ List.mem_map_of_mem hg)

/-- **A struct is decoded as its fields by position are.** -/
theorem structRematerialize_eq {fields : List (NamedField ι)} (hdistinct : (fields.map NamedField.name).Nodup)
    (hlen : NoLenBefore fields) (hbytes : NoBytesBefore fields) (bytes : Bytes) :
    structRematerialize p others fields bytes =
      Gen.ofRes ((deriveStructNamed (fieldsCodec p others fields)).rematerialize bytes) := by
  unfold structRematerialize
  simp only [deserialize_eq fields true 0, construct_eq fields _ 0]
  exact run_decodeStruct (fun _ f => f.private_decodeIdents structIdents)
    (valuesStay_named structIdents hdistinct hlen hbytes 0) ⟨rfl, rfl, Nat.two_pow_pos _, rfl⟩

/-- **A struct variant is decoded as its fields by position are.** -/
theorem armRematerialize_eq {fields : List (NamedField ι)} (hdistinct : (fields.map NamedField.name).Nodup)
    (hlen : NoLenBefore fields) (hbytes : NoBytesBefore fields) (data : Bytes) (offset : Nat) (payload : Bytes) :
    armRematerialize p others fields data offset payload =
      Gen.ofRes ((fieldsArm (fieldsCodec p others fields)).deserialize payload) := by
  unfold armRematerialize
  simp only [deserialize_eq fields false 0, construct_eq fields _ 0]
  exact run_decodeArm (fun _ f => f.private_decodeIdents armIdents)
    (valuesStay_named armIdents hdistinct hlen hbytes 0) ⟨rfl, rfl, Nat.two_pow_pos _, rfl⟩

/-! ## Encoding named fields -/

/-- `self.field_name` or `field_name`. -/
def access (self : Bool) (name : String) : Place := if self then .selfField name else .var name

theorem access_inj {self : Bool} {x y : String} (h : access self x = access self y) : x = y := by
  cases self with
  | true => exact Place.selfField.inj h
  | false => exact Place.var.inj h

/-- The variable of `for_field`, and its `field_access`. -/
def NamedField.encodeIdents (self : Bool) (f : NamedField ι) : EncodeIdents where
  bytes := f.identFieldBytes
  access := access self f.name

omit [DecidableEq ι] in
theorem NamedField.private_encodeIdents (self : Bool) (f : NamedField ι) : (f.encodeIdents self).Private where
  buffer := (f.identFieldBytes_ne notGenerated_buffer).symm
  ctx := (f.identFieldBytes_ne notGenerated_ctx).symm

omit [DecidableEq ι] in
theorem serialize_eq (fields : List (NamedField ι)) (self : Bool) (i : Nat) :
    serialize fields self dataIdent offsetIdent = encodeFields (fun _ f => f.encodeIdents self) i fields := by
  induction fields generalizing i with
  | nil => rfl
  | cons f fields ih => exact congrArg (_ ++ ·) (ih (i + 1))

omit [DecidableEq ι] in
theorem accesses_named (self : Bool) (fields : List (NamedField ι)) (i : Nat) :
    accesses (fun _ f => f.encodeIdents self) i fields = fields.map fun f => access self f.name := by
  induction fields generalizing i with
  | nil => rfl
  | cons f fields ih => exact congrArg (_ :: ·) (ih (i + 1))

omit [DecidableEq ι] in
theorem nodup_accesses {self : Bool} {fields : List (NamedField ι)} (hdistinct : (fields.map NamedField.name).Nodup)
    (i : Nat) : (accesses (fun _ f => f.encodeIdents self) i fields).Nodup := by
  have hmap : (fields.map fun f => access self f.name) = (fields.map NamedField.name).map (access self) := by
    rw [List.map_map]
    rfl
  rw [accesses_named, hmap]
  exact List.pairwise_map.mpr (hdistinct.imp fun hne heq => hne (access_inj heq))

omit [DecidableEq ι] in
theorem bindFields_eq (self : Bool) (fields : List (NamedField ι)) (values : Vals p others fields) (i : Nat) :
    bindFields (access self) fields values = bindAccesses (fun _ f => f.encodeIdents self) i fields values := by
  induction fields generalizing i with
  | nil => rfl
  | cons f fields ih => exact congrArg (_ :: ·) (ih values.2 (i + 1))

/-- No variable that still holds a field to encode is bound by the code for a field before it. -/
def Encodable (self : Bool) (fields : List (NamedField ι)) : Prop :=
  (fields.Pairwise fun earlier later => access self later.name ≠ .var earlier.identFieldBytes) ∧
    ∀ f ∈ fields, access self f.name ≠ .var "buffer"

omit [DecidableEq ι] in
/-- `self` has no variables. -/
theorem encodable_self (fields : List (NamedField ι)) : Encodable true fields :=
  ⟨List.pairwise_of_forall fun _ _ => nofun, fun _ _ => nofun⟩

omit [DecidableEq ι] in
theorem encodable_arm {fields : List (NamedField ι)} (hbytes : NoFieldBytesAfter fields)
    (hbuffer : ∀ f ∈ fields, f.name ≠ "buffer") : Encodable false fields :=
  ⟨hbytes.imp fun hne heq => hne (Place.var.inj heq), fun f hf heq => hbuffer f hf (Place.var.inj heq)⟩

omit [DecidableEq ι] in
theorem Encodable.fieldsStay {self : Bool} {fields : List (NamedField ι)} (h : Encodable self fields) (i : Nat) :
    FieldsStay (fun _ f => f.encodeIdents self) i fields := by
  induction fields generalizing i with
  | nil => trivial
  | cons f fields ih =>
    obtain ⟨hlater, hbuffer⟩ := h
    obtain ⟨hf, hlater⟩ := List.pairwise_cons.mp hlater
    obtain ⟨-, hbuffer⟩ := List.forall_mem_cons.mp hbuffer
    refine ⟨fun place hplace => ?_, ih ⟨hlater, hbuffer⟩ (i + 1)⟩
    rw [accesses_named] at hplace
    obtain ⟨g, hg, rfl⟩ := List.mem_map.mp hplace
    exact ⟨hf g hg, hbuffer g hg⟩

/-- **A struct is encoded as its fields by position are.** -/
theorem structImmaterialize_eq {fields : List (NamedField ι)} (hdistinct : (fields.map NamedField.name).Nodup)
    (values : Vals p others fields) :
    structImmaterialize p others fields values =
      Gen.ofRes ((deriveStructNamed (fieldsCodec p others fields)).immaterialize values) := by
  have hholds : Holds (fun _ f => f.encodeIdents true) 0 fields values
      (bindVar "buffer" (.ty .vecU8) [] ++ bindVar "ctx" .context () ++ bindFields (access true) fields values) := by
    have hdistinct : (accesses (fun _ f => f.encodeIdents true) 0 fields).Nodup := nodup_accesses hdistinct 0
    have h : Holds _ 0 fields values _ := holds_bindAccesses hdistinct []
    rw [← bindFields_eq, List.append_nil] at h
    refine h.congr fun place hplace t => use_congr ?_
    rw [accesses_named] at hplace
    obtain ⟨f, -, rfl⟩ := List.mem_map.mp hplace
    rfl
  unfold structImmaterialize
  simp only [serialize_eq fields true 0]
  exact run_encode (fun _ f => f.private_encodeIdents true) ((encodable_self fields).fieldsStay 0) ⟨rfl, rfl⟩ hholds

/-- **A struct variant is encoded as its fields by position are.** -/
theorem armImmaterialize_eq {fields : List (NamedField ι)} (hdistinct : (fields.map NamedField.name).Nodup)
    (hbytes : NoFieldBytesAfter fields) (hbuffer : ∀ f ∈ fields, f.name ≠ "buffer")
    (hctx : ∀ f ∈ fields, f.name ≠ "ctx") (values : Vals p others fields) :
    armImmaterialize p others fields values =
      Gen.ofRes ((fieldsArm (fieldsCodec p others fields)).serialize values) := by
  have hnot : ∀ {x : String}, (∀ f ∈ fields, f.name ≠ x) →
      Place.var x ∉ accesses (fun _ f => f.encodeIdents false) 0 fields := by
    intro x hx hmem
    rw [accesses_named] at hmem
    obtain ⟨f, hf, heq⟩ := List.mem_map.mp hmem
    exact hx f hf (Place.var.inj heq)
  let outer : Scope Place (Var p others) := bindVar "buffer" (.ty .vecU8) [] ++ bindVar "ctx" .context ()
  have hready : ReadyToEncode [] (bindVar "buffer" (.ty .vecU8) [] ++
      (bindFields (access false) fields values ++ outer)) := by
    refine ⟨rfl, ?_⟩
    rw [bindFields_eq false fields values 0]
    exact (use_bindVar_ne (by decide) _ _).trans ((use_bindAccesses_ne (hnot hctx) _ _).trans rfl)
  have hholds : Holds (fun _ f => f.encodeIdents false) 0 fields values (bindVar "buffer" (.ty .vecU8) [] ++
      (bindFields (access false) fields values ++ outer)) := by
    rw [bindFields_eq false fields values 0]
    refine (holds_bindAccesses (nodup_accesses hdistinct 0) outer).congr fun place hplace t => ?_
    refine use_bindVar_of_ne (fun heq => ?_) _ _
    exact hnot hbuffer (heq ▸ hplace)
  unfold armImmaterialize
  simp only [serialize_eq fields false 0, List.append_assoc]
  exact run_encode (fun _ f => f.private_encodeIdents false) ((encodable_arm hbytes hbuffer).fieldsStay 0) hready hholds

end Derive
end Wormhole
