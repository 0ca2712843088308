import Wormhole.Codec.Universe
import Wormhole.Lib.LetSequence

/-!
# `Derive.Generated` — the code that the derive macro generates for named fields

`for_field` and its callers, `derive_struct` (named fields) and `derive_enum` (struct variants), as the
statements that they put together: how these are checked by the compiler (types, and moves out of variables),
and how they run. A name means the last variable of that name. Attributes are left out (`for_field` refuses
them), and a field's name is what `format_ident!` makes of it, without `r#`.

The types of fields are those with an implementation of the trait: `usize` and `Vec<u8>`, which variables of the
generated code have too, and any other ones, with any implementation. No value is coerced to another type: the
only coercion that could apply is that of a reference to some other type that dereferences to the context.
-/

namespace Wormhole
namespace Derive

open LittleEndian Codec

/-! ## Types and places -/

/-- The type of a field. -/
inductive FieldTy (ι : Type) where
  | usize
  | vecU8
  | other (i : ι)
  deriving DecidableEq

/-- The type of a variable: that of a field, `&[u8]`, or `&TransmaterializationContext`. -/
inductive VarTy (ι : Type) where
  | ty (T : FieldTy ι)
  | sliceU8
  | context
  deriving DecidableEq

/-- Integers and shared references are copied. (No variable of another type is used twice, so nothing depends
    on which of these are.) -/
def VarTy.isCopy {ι : Type} : VarTy ι → Bool
  | .ty .usize | .sliceU8 | .context => true
  | .ty _ => false

/-- What code takes a value from: a variable, or a field of `self`. -/
inductive Place where
  | var (x : String)
  | selfField (x : String)
  deriving DecidableEq, Repr

structure NamedField (ι : Type) where
  name : String
  ty : FieldTy ι
  deriving DecidableEq

variable {ι : Type}

/-- `format_ident!("field_bytes_{field_name}")`. -/
def NamedField.identFieldBytes (f : NamedField ι) : String := "field_bytes_" ++ f.name

/-- `format_ident!("field_len_{field_name}")`. -/
def NamedField.identFieldLen (f : NamedField ι) : String := "field_len_" ++ f.name

/-- `format_ident!("field_{field_name}")`. -/
def NamedField.identField (f : NamedField ι) : String := "field_" ++ f.name

/-! ## Statements -/

inductive Stmt (ι : Type) where
  /-- `if data.len() < offset + 8 { return Err(..); } let x: usize = u64::from_le_bytes(..).try_into()..;` -/
  | letLen (x data offset : String)
  /-- `offset += 8;` -/
  | advanceHeader (offset : String)
  /-- `if data.len() < offset + len { return Err(..); } let x = &data[offset..offset + len];` -/
  | letBytes (x data offset len : String)
  /-- `offset += len;` -/
  | advance (offset len : String)
  /-- `let x = <T as ContextTransmaterializable>::rematerialize(ctx, bytes).await?;` -/
  | letField (x : String) (T : FieldTy ι) (bytes : String)
  /-- `let x = <T as ContextTransmaterializable>::immaterialize(access, ctx).await?;` -/
  | letFieldBytes (x : String) (T : FieldTy ι) (access : Place)
  /-- `buffer.extend_from_slice(&(bytes.len() as u64).to_le_bytes());` -/
  | extendLen (bytes : String)
  /-- `buffer.extend_from_slice(&bytes);` -/
  | extendBytes (bytes : String)
  deriving DecidableEq

/-- The name that a statement binds, or gives a new value: in a sequence without blocks inside, an assignment is
    a new variable of the same name. -/
def Stmt.binds : Stmt ι → String
  | .letLen x _ _ | .letBytes x _ _ _ | .letField x _ _ | .letFieldBytes x _ _ => x
  | .advanceHeader offset | .advance offset _ => offset
  | .extendLen _ | .extendBytes _ => "buffer"

/-- The places that a statement uses by value, with their types, unless these are `Copy`. -/
def Stmt.moves : Stmt ι → List (Place × VarTy ι)
  | .letFieldBytes _ T access => if (VarTy.ty T).isCopy then [] else [(access, .ty T)]
  | _ => []

/-- `for_field`: the code that encodes the field, and the code that decodes it. -/
def forField (field : NamedField ι) (useSelfPrefix : Bool) (dataIdent offsetIdent : String) :
    List (Stmt ι) × List (Stmt ι) :=
  let fieldAccess := if useSelfPrefix then Place.selfField field.name else Place.var field.name
  let serialize :=
    [.letFieldBytes field.identFieldBytes field.ty fieldAccess,
     .extendLen field.identFieldBytes,
     .extendBytes field.identFieldBytes]
  let deserialize :=
    [.letLen field.identFieldLen dataIdent offsetIdent,
     .advanceHeader offsetIdent,
     .letBytes field.identFieldBytes dataIdent offsetIdent field.identFieldLen,
     .advance offsetIdent field.identFieldLen,
     .letField field.identField field.ty field.identFieldBytes]
  (serialize, deserialize)

def serialize (fields : List (NamedField ι)) (useSelfPrefix : Bool) (dataIdent offsetIdent : String) : List (Stmt ι) :=
  fields.flatMap fun field => (forField field useSelfPrefix dataIdent offsetIdent).1

def deserialize (fields : List (NamedField ι)) (useSelfPrefix : Bool) (dataIdent offsetIdent : String) : List (Stmt ι) :=
  fields.flatMap fun field => (forField field useSelfPrefix dataIdent offsetIdent).2

/-! ## What compiles -/

section Check

variable [DecidableEq ι]

/-- A variable in scope: its type, and whether its value has not been moved away. -/
structure Slot (ι : Type) where
  ty : VarTy ι
  live : Bool
  deriving DecidableEq

/-- Use a place where a value of the type is needed. -/
def borrow (env : Scope Place (Slot ι)) (place : Place) (t : VarTy ι) : Option Unit :=
  if env.lookup place = some ⟨t, true⟩ then some () else none

/-- The type of what a statement binds. -/
def typeOf : Stmt ι → Scope Place (Slot ι) → Option (VarTy ι)
  | .letLen _ data offset, env => do
    borrow env (.var data) .sliceU8
    borrow env (.var offset) (.ty .usize)
    pure (.ty .usize)
  | .advanceHeader offset, env => do
    borrow env (.var offset) (.ty .usize)
    pure (.ty .usize)
  | .letBytes _ data offset len, env => do
    borrow env (.var data) .sliceU8
    borrow env (.var offset) (.ty .usize)
    borrow env (.var len) (.ty .usize)
    pure .sliceU8
  | .advance offset len, env => do
    borrow env (.var offset) (.ty .usize)
    borrow env (.var len) (.ty .usize)
    pure (.ty .usize)
  | .letField _ T bytes, env => do
    borrow env (.var "ctx") .context
    borrow env (.var bytes) .sliceU8
    pure (.ty T)
  | .letFieldBytes _ T access, env => do
    borrow env access (.ty T)
    borrow env (.var "ctx") .context
    pure (.ty .vecU8)
  | .extendLen bytes, env => do
    borrow env (.var bytes) (.ty .vecU8)
    borrow env (.var "buffer") (.ty .vecU8)
    pure (.ty .vecU8)
  | .extendBytes bytes, env => do
    borrow env (.var bytes) (.ty .vecU8)
    borrow env (.var "buffer") (.ty .vecU8)
    pure (.ty .vecU8)

/-- What the compiler makes of a statement: the variable that it binds is live, what it moves away is not. -/
def check (s : Stmt ι) (env : Scope Place (Slot ι)) : Option (Scope Place (Slot ι)) := do
  let t ← typeOf s env
  pure ((.var s.binds, ⟨t, true⟩) :: s.moves.map fun (place, t) => (place, ⟨t, false⟩))

def declare (x : String) (t : VarTy ι) : Scope Place (Slot ι) := [(.var x, ⟨t, true⟩)]

/-- `Self { #(#field_name: #ident_field),* }`. -/
def checkSelf (fields : List (NamedField ι)) (env : Scope Place (Slot ι)) : Prop :=
  ∀ field ∈ fields, borrow env (.var field.identField) (.ty field.ty) = some ()

/-- `rematerialize` of a struct, before the fields. -/
def rematerializeScope : Scope Place (Slot ι) :=
  declare "offset" (.ty .usize) ++ declare "data" .sliceU8 ++ declare "ctx" .context

/-- `rematerialize` of an enum, in the arm of a variant and before its fields. -/
def rematerializeArmScope : Scope Place (Slot ι) :=
  declare "payload_offset" (.ty .usize) ++ declare "payload_data" .sliceU8 ++ rematerializeScope

/-- `immaterialize` of a struct, before the fields. -/
def immaterializeScope (fields : List (NamedField ι)) : Scope Place (Slot ι) :=
  declare "buffer" (.ty .vecU8) ++ declare "ctx" .context ++
    fields.map fun field => (.selfField field.name, ⟨.ty field.ty, true⟩)

/-- `immaterialize` of an enum, in the arm of a variant and before its fields: the pattern binds the fields
    under their own names, and the arm has a buffer of its own. -/
def immaterializeArmScope (fields : List (NamedField ι)) : Scope Place (Slot ι) :=
  declare "buffer" (.ty .vecU8) ++ (fields.map fun field => (.var field.name, ⟨.ty field.ty, true⟩)) ++
    declare "buffer" (.ty .vecU8) ++ declare "ctx" .context

/-- A struct with these fields compiles. -/
structure StructCompiles (fields : List (NamedField ι)) : Prop where
  distinct : (fields.map NamedField.name).Nodup
  serialize : (Scope.run check (serialize fields true "data" "offset") (immaterializeScope fields)).isSome
  deserialize : ∃ env, Scope.run check (deserialize fields true "data" "offset") rematerializeScope = some env ∧
    checkSelf fields env

/-- The arms of a variant with these fields compile. -/
structure VariantCompiles (fields : List (NamedField ι)) : Prop where
  distinct : (fields.map NamedField.name).Nodup
  serialize : (Scope.run check (serialize fields false "payload_data" "payload_offset")
    (immaterializeArmScope fields)).isSome
  deserialize : ∃ env, Scope.run check (deserialize fields false "payload_data" "payload_offset")
    rematerializeArmScope = some env ∧ checkSelf fields env

end Check

/-! ## How it runs -/

/-- The types that fields may have besides `usize` and `Vec<u8>`, and how they are encoded. -/
structure Others (ι : Type) where
  Val : ι → Type
  codec : (i : ι) → ContextTransmaterializable (Val i)

section Exec

variable (p : Platform) (others : Others ι)

def FieldTy.Val : FieldTy ι → Type
  | .usize => BitVec p.bits
  | .vecU8 => Bytes
  | .other i => others.Val i

def FieldTy.codec : (T : FieldTy ι) → ContextTransmaterializable (T.Val p others)
  | .usize => Codec.usize p
  | .vecU8 => Codec.vecU8 p
  | .other i => others.codec i

def VarTy.Val : VarTy ι → Type
  | .ty T => T.Val p others
  | .sliceU8 => Bytes
  | .context => Unit

/-- A variable in scope, with its value. -/
abbrev Var : Type := (t : VarTy ι) × t.Val p others

/-- The outcome of generated code; `none` is for code that does not compile. -/
def Gen (α : Type) : Type := Option (Res α)

namespace Gen

variable {α β : Type}

def ofRes (x : Res α) : Gen α := some x

def bind (x : Gen α) (f : α → Gen β) : Gen β :=
  match x with
  | none => none
  | some (.ok a) => f a
  | some (.err e) => some (.err e)
  | some (.panic reason) => some (.panic reason)

instance : Monad Gen where
  pure a := some (.ok a)
  bind := bind

instance : LawfulMonad Gen := LawfulMonad.mk' Gen
  (fun x => by
    match x with
    | none => rfl
    | some (.ok a) => rfl
    | some (.err e) => rfl
    | some (.panic reason) => rfl)
  (fun _ _ => rfl)
  (fun x f g => by
    match x with
    | none => rfl
    | some (.ok a) => rfl
    | some (.err e) => rfl
    | some (.panic reason) => rfl)

instance : Outcome Gen where
  Returns x a := x = some (.ok a)
  returns_pure {α a b} := by
    constructor
    · intro h
      cases h
      rfl
    · rintro rfl
      rfl
  returns_bind {α β x f b} := by
    show bind x f = some (.ok b) ↔ _
    match x with
    | some (.ok a) =>
      constructor
      · exact fun h => ⟨a, rfl, h⟩
      · rintro ⟨a', ha', h⟩
        cases ha'
        exact h
    | none | some (.err e) | some (.panic reason) =>
      refine iff_of_false nofun ?_
      rintro ⟨a, ha, -⟩
      cases ha

end Gen

variable [DecidableEq ι] {p others}

/-- The value of a place where one of the type is needed. -/
def use (env : Scope Place (Var p others)) (place : Place) (t : VarTy ι) : Gen (t.Val p others) :=
  match env.lookup place with
  | some ⟨t', v⟩ => if h : t' = t then some (.ok (h ▸ v)) else none
  | none => none

def bindVar (x : String) (t : VarTy ι) (v : t.Val p others) : Scope Place (Var p others) := [(.var x, ⟨t, v⟩)]

/-- A value of `usize`. -/
def ofUsize (n : Nat) : (VarTy.ty (.usize : FieldTy ι)).Val p others := BitVec.ofNat p.bits n

/-- The number that a value of `usize` stands for. -/
def usizeToNat (v : (VarTy.ty (.usize : FieldTy ι)).Val p others) : Nat := BitVec.toNat (w := p.bits) v

/-- The value that a statement binds. -/
def eval : Stmt ι → Scope Place (Var p others) → Gen (Var p others)
  | .letLen _ data offset, env => do
    let bytes ← use env (.var data) .sliceU8
    let start ← use env (.var offset) (.ty .usize)
    let headerEnd ← Gen.ofRes (p.usizeAdd (usizeToNat start) 8)
    if List.length bytes < headerEnd then Gen.ofRes (.err (.shortFieldLength headerEnd (List.length bytes))) else
    let header ← Gen.ofRes (slice bytes (usizeToNat start) headerEnd)
    let length ← Gen.ofRes (tryIntoUsize .fieldLengthExceedsUsize p header)
    pure ⟨.ty .usize, ofUsize length⟩
  | .advanceHeader offset, env => do
    let start ← use env (.var offset) (.ty .usize)
    let next ← Gen.ofRes (p.usizeAdd (usizeToNat start) 8)
    pure ⟨.ty .usize, ofUsize next⟩
  | .letBytes _ data offset len, env => do
    let bytes ← use env (.var data) .sliceU8
    let start ← use env (.var offset) (.ty .usize)
    let length ← use env (.var len) (.ty .usize)
    let stop ← Gen.ofRes (p.usizeAdd (usizeToNat start) (usizeToNat length))
    if List.length bytes < stop then Gen.ofRes (.err (.shortFieldData stop (List.length bytes))) else
    let fieldBytes ← Gen.ofRes (slice bytes (usizeToNat start) stop)
    pure ⟨.sliceU8, fieldBytes⟩
  | .advance offset len, env => do
    let start ← use env (.var offset) (.ty .usize)
    let length ← use env (.var len) (.ty .usize)
    let next ← Gen.ofRes (p.usizeAdd (usizeToNat start) (usizeToNat length))
    pure ⟨.ty .usize, ofUsize next⟩
  | .letField _ T bytes, env => do
    let _ctx ← use env (.var "ctx") .context
    let fieldBytes ← use env (.var bytes) .sliceU8
    let field ← Gen.ofRes ((T.codec p others).rematerialize fieldBytes)
    pure ⟨.ty T, field⟩
  | .letFieldBytes _ T access, env => do
    let field ← use env access (.ty T)
    let _ctx ← use env (.var "ctx") .context
    let fieldBytes ← Gen.ofRes ((T.codec p others).immaterialize field)
    pure ⟨.ty .vecU8, fieldBytes⟩
  | .extendLen bytes, env => do
    let fieldBytes ← use env (.var bytes) (.ty .vecU8)
    let buffer ← use env (.var "buffer") (.ty .vecU8)
    pure ⟨.ty .vecU8, List.append buffer (toLeBytes 8 (List.length fieldBytes))⟩
  | .extendBytes bytes, env => do
    let fieldBytes ← use env (.var bytes) (.ty .vecU8)
    let buffer ← use env (.var "buffer") (.ty .vecU8)
    pure ⟨.ty .vecU8, List.append buffer fieldBytes⟩

/-- What a statement does. -/
def step (s : Stmt ι) (env : Scope Place (Var p others)) : Gen (Scope Place (Var p others)) := do
  let v ← eval s env
  pure [(.var s.binds, v)]

variable (p others)

/-- The values of the fields. -/
def Vals : List (NamedField ι) → Type
  | [] => Unit
  | field :: fields => field.ty.Val p others × Vals fields

variable {p others}

/-- `Self { #(#field_name: #ident_field),* }`. -/
def construct : (fields : List (NamedField ι)) → Scope Place (Var p others) → Gen (Vals p others fields)
  | [], _ => pure ()
  | field :: fields, env => do
    let value ← use env (.var field.identField) (.ty field.ty)
    let values ← construct fields env
    pure (value, values)

/-- The fields of a value, each in the place that `place` gives it. -/
def bindFields (place : String → Place) :
    (fields : List (NamedField ι)) → Vals p others fields → Scope Place (Var p others)
  | [], _ => []
  | field :: fields, values => (place field.name, ⟨.ty field.ty, values.1⟩) :: bindFields place fields values.2

variable (p others) (fields : List (NamedField ι))

/-- `immaterialize` of a struct. -/
def structImmaterialize (values : Vals p others fields) : Gen Bytes := do
  let scope := bindVar "buffer" (.ty .vecU8) [] ++ bindVar "ctx" .context () ++ bindFields .selfField fields values
  let env ← Scope.run step (serialize fields true "data" "offset") scope
  use env (.var "buffer") (.ty .vecU8)

/-- `rematerialize` of a struct. -/
def structRematerialize (data : Bytes) : Gen (Vals p others fields) := do
  let scope := bindVar "offset" (.ty .usize) (ofUsize 0) ++ bindVar "data" .sliceU8 data ++ bindVar "ctx" .context ()
  let env ← Scope.run step (deserialize fields true "data" "offset") scope
  let data ← use env (.var "data") .sliceU8
  let offset ← use env (.var "offset") (.ty .usize)
  if List.length data ≠ usizeToNat offset then
    Gen.ofRes (.err (.notConsumed (List.length data) (usizeToNat offset)))
  else construct fields env

/-- The arm of a struct variant in `immaterialize` of an enum: the payload. -/
def armImmaterialize (values : Vals p others fields) : Gen Bytes := do
  let scope := bindVar "buffer" (.ty .vecU8) [] ++ bindFields .var fields values ++
    bindVar "buffer" (.ty .vecU8) [] ++ bindVar "ctx" .context ()
  let env ← Scope.run step (serialize fields false "payload_data" "payload_offset") scope
  use env (.var "buffer") (.ty .vecU8)

/-- The arm of a struct variant in `rematerialize` of an enum, from the payload; `data` and `offset` are those of
    the whole enum. -/
def armRematerialize (data : Bytes) (offset : Nat) (payload : Bytes) : Gen (Vals p others fields) := do
  let scope := bindVar "payload_offset" (.ty .usize) (ofUsize 0) ++ bindVar "payload_data" .sliceU8 payload ++
    bindVar "offset" (.ty .usize) (ofUsize offset) ++ bindVar "data" .sliceU8 data ++ bindVar "ctx" .context ()
  let env ← Scope.run step (deserialize fields false "payload_data" "payload_offset") scope
  let payloadOffset ← use env (.var "payload_offset") (.ty .usize)
  let payload ← use env (.var "payload_data") .sliceU8
  if usizeToNat payloadOffset ≠ List.length payload then
    Gen.ofRes (.err (.payloadNotConsumed (List.length payload) (usizeToNat payloadOffset)))
  else construct fields env

end Exec

end Derive
end Wormhole
