import Wormhole.Codec.Leaves
import Wormhole.Lib.BigEndian
import Wormhole.Lib.Reader

/-!
# `Conduit.Framing` — messages on a byte stream

`conduit/mod.rs`, the messages of a transport, and what the byte-stream transports share: a writer that can
break, a reader that can come to the end of its bytes and that allocates what a header asks for, and the frame of a
message.
-/

namespace Wormhole
namespace Conduit

open LittleEndian BigEndian Codec

/-- What a transport is compiled for. Tokio wants 32 bits at least, so that `l as usize` keeps a `u32`. -/
structure Host extends Platform where
  thirtyTwo_le : 32 ≤ bits

def Host.thirtyTwo : Host where
  toPlatform := .thirtyTwo false
  thirtyTwo_le := Nat.le_refl 32

def Host.sixtyFour : Host where
  toPlatform := .sixtyFour false
  thirtyTwo_le := Nat.le_add_right 32 32

/-- On most targets every `u32` is a length that can be allocated. -/
theorem Host.u32_le (host : Host) (h : 33 ≤ host.bits) {n : Nat} (hn : n < 2 ^ 32) : n ≤ host.isizeMax := by
  have hpow : 2 ^ 32 ≤ 2 ^ (host.bits - 1) := Nat.pow_le_pow_right (by decide) (by omega)
  rw [Platform.isizeMax]
  omega

/-- What flows through a transport. -/
inductive ConduitMessage where
  | handshake (text : String)
  | content (data : Bytes)
  | close (reason : Option String)
  deriving DecidableEq, Repr

namespace ConduitMessage

/-- The bytes that follow the header. -/
def payload : ConduitMessage → Bytes
  | .handshake text => asBytes text
  | .content data => data
  | .close _ => []

def isClose : ConduitMessage → Bool
  | .close _ => true
  | _ => false

/-- The message, with the reason of a `Close` read back as `None`. -/
def withoutReason : ConduitMessage → ConduitMessage
  | .close _ => .close none
  | m => m

/-- The payload has a length that fits the header, and that the target can allocate. A message of the target has no
    longer one. -/
def Fits (host : Host) (m : ConduitMessage) : Prop :=
  m.payload.length < 2 ^ 32 ∧ m.payload.length ≤ host.isizeMax

theorem fits_close (host : Host) (reason : Option String) : (close reason).Fits host :=
  ⟨(by decide : 0 < 2 ^ 32), Nat.zero_le _⟩

end ConduitMessage

/-! ## Errors -/

inductive ConduitError where
  /-- "Failed to write message type" -/
  | messageType
  /-- "Failed to write message length" -/
  | messageLength
  /-- "Failed to write message data" -/
  | messageData
  /-- "Failed to write close message" -/
  | closeMessage
  /-- "Connection closed" -/
  | connectionClosed
  /-- "Unknown message type" -/
  | unknownMessageType (msgType : UInt8)
  | invalidUtf8
  /-- `std::io::Error`, of a write or a flush, or because the bytes have ended -/
  | io
  deriving DecidableEq, Repr

/-- How reading a message fails: with an error, or with a panic of the task that reads. -/
inductive Failure where
  | err (e : ConduitError)
  | panic
  deriving DecidableEq, Repr

/-! ## Writing -/

/-- The writing half of a connection: the bytes the peer gets, how many more it takes before the connection
    breaks, and how many more flushes succeed (`none` if it never breaks). -/
structure Writer where
  written : Bytes
  room : Option Nat
  flushes : Option Nat
  deriving DecidableEq, Repr

/-- A connection that never breaks. -/
def Writer.sound : Writer := { written := [], room := none, flushes := none }

/-- Code that writes. -/
abbrev Write (α : Type) : Type := Writer → Except ConduitError α × Writer

namespace Write

variable {α β : Type}

def bind (x : Write α) (f : α → Write β) : Write β := fun w =>
  match x w with
  | (.ok a, w') => f a w'
  | (.error e, w') => (.error e, w')

instance : Monad Write where
  pure a := fun w => (.ok a, w)
  bind := bind

/-- `return Err(e)`. -/
def fail (e : ConduitError) : Write α := fun w => (.error e, w)

/-- `if x.is_err() { return Err(e) }`. -/
def orFail (x : Write Unit) (e : ConduitError) : Write Unit := fun w =>
  match x w with
  | (.ok _, w') => (.ok (), w')
  | (.error _, w') => (.error e, w')

/-- `x.ok()`. -/
def ignore (x : Write Unit) : Write Unit := fun w => (.ok (), (x w).2)

end Write

/-- `write_all`: where the connection breaks, a part may have been written. -/
def writeAll (bytes : Bytes) : Write Unit := fun w =>
  match w.room with
  | none => (.ok (), { w with written := w.written ++ bytes })
  | some room =>
    if bytes.length ≤ room then
      (.ok (), { w with written := w.written ++ bytes, room := some (room - bytes.length) })
    else (.error .io, { w with written := w.written ++ bytes.take room, room := some 0 })

def writeU8 (byte : UInt8) : Write Unit := writeAll [byte]

/-- `write_u32(n as u32)`, which is big-endian. -/
def writeU32 (n : Nat) : Write Unit := writeAll (toBeBytes 4 (n % 2 ^ 32))

def flush : Write Unit := fun w =>
  match w.flushes with
  | none => (.ok (), w)
  | some 0 => (.error .io, w)
  | some (flushes + 1) => (.ok (), { w with flushes := some flushes })

/-- Messages go into a sink one after the other, until it fails. -/
def sendAll (sink : ConduitMessage → Write Unit) : List ConduitMessage → Write Unit
  | [] => pure ()
  | m :: ms => do
    sink m
    sendAll sink ms

/-! ## What is written -/

/-- The code writes these bytes whenever it succeeds, it succeeds on a connection that does not break, and where
    it fails it does not say that it was told to close the connection. -/
structure Emits (x : Write Unit) (bytes : Bytes) : Prop where
  written : ∀ {w w'}, x w = (.ok (), w') → w'.written = w.written ++ bytes
  sound : ∀ {w}, w.room = none → w.flushes = none → x w = (.ok (), { w with written := w.written ++ bytes })
  not_closed : ∀ {w w'}, x w ≠ (.error .connectionClosed, w')

theorem Write.bind_eq_error {x y : Write Unit} {e : ConduitError} {w w' : Writer} :
    (do x
        y) w = (.error e, w') ↔ x w = (.error e, w') ∨ ∃ u, x w = (.ok (), u) ∧ y u = (.error e, w') := by
  show Write.bind x (fun _ => y) w = (.error e, w') ↔ _
  unfold Write.bind
  split
  · rename_i u hx
    simp [hx]
  · rename_i e' u hx
    simp [hx]

theorem Write.bind_eq_ok {x y : Write Unit} {w w' : Writer} :
    (do x
        y) w = (.ok (), w') ↔ ∃ u, x w = (.ok (), u) ∧ y u = (.ok (), w') := by
  show Write.bind x (fun _ => y) w = (.ok (), w') ↔ _
  unfold Write.bind
  split
  · rename_i u hx
    simp [hx]
  · rename_i e u hx
    simp [hx]

/-- Where some messages have been sent, the others are. -/
theorem sendAll_append {sink : ConduitMessage → Write Unit} {ms : List ConduitMessage} {w u : Writer}
    (h : sendAll sink ms w = (.ok (), u)) (ms' : List ConduitMessage) :
    sendAll sink (ms ++ ms') w = sendAll sink ms' u := by
  induction ms generalizing w with
  | nil =>
    cases h
    rfl
  | cons m ms ih =>
    obtain ⟨v, hm, hms⟩ := Write.bind_eq_ok.mp h
    show Write.bind (sink m) (fun _ => sendAll sink (ms ++ ms')) w = _
    unfold Write.bind
    rw [hm]
    exact ih hms

namespace Emits

variable {x y : Write Unit} {b c : Bytes}

theorem bind (hx : Emits x b) (hy : Emits y c) :
    Emits (do x
              y) (b ++ c) where
  written h := by
    obtain ⟨u, hxw, hyu⟩ := Write.bind_eq_ok.mp h
    rw [hy.written hyu, hx.written hxw, List.append_assoc]
  sound hroom hflushes := by
    refine Write.bind_eq_ok.mpr ⟨_, hx.sound hroom hflushes, ?_⟩
    rw [← List.append_assoc]
    exact hy.sound hroom hflushes
  not_closed h := by
    obtain hxw | ⟨u, -, hyu⟩ := Write.bind_eq_error.mp h
    · exact hx.not_closed hxw
    · exact hy.not_closed hyu

theorem orFail (hx : Emits x b) {e : ConduitError} (he : e ≠ .connectionClosed) : Emits (x.orFail e) b where
  written {w w'} h := by
    unfold Write.orFail at h
    split at h
    · rename_i u hxw
      cases h
      exact hx.written hxw
    · cases h
  sound hroom hflushes := by
    unfold Write.orFail
    rw [hx.sound hroom hflushes]
  not_closed {w w'} h := by
    unfold Write.orFail at h
    split at h
    · cases h
    · cases h
      exact he rfl

theorem writeAll (b : Bytes) : Emits (writeAll b) b where
  written {w w'} h := by
    unfold Conduit.writeAll at h
    split at h
    · cases h
      rfl
    · split at h
      · cases h
        rfl
      · cases h
  sound hroom _ := by
    unfold Conduit.writeAll
    rw [hroom]
  not_closed {w w'} h := by
    unfold Conduit.writeAll at h
    split at h
    · cases h
    · split at h
      · cases h
      · cases h

theorem flush : Emits flush [] where
  written {w w'} h := by
    rw [List.append_nil]
    unfold Conduit.flush at h
    split at h
    · cases h
      rfl
    · cases h
    · cases h
      rfl
  sound {w} _ hflushes := by
    obtain ⟨written, room, flushes⟩ := w
    obtain rfl : flushes = none := hflushes
    rw [List.append_nil]
    rfl
  not_closed {w w'} h := by
    unfold Conduit.flush at h
    split at h
    · cases h
    · cases h
    · cases h

theorem done : Emits (pure ()) [] where
  written h := by
    cases h
    rw [List.append_nil]
  sound _ _ := by
    rw [List.append_nil]
    rfl
  not_closed h := by cases h

/-- A list of messages is written message by message. -/
theorem sendAll {sink : ConduitMessage → Write Unit} {sent : ConduitMessage → Bytes}
    {ms : List ConduitMessage} (h : ∀ m ∈ ms, Emits (sink m) (sent m)) : Emits (sendAll sink ms) (ms.flatMap sent) := by
  induction ms with
  | nil => exact done
  | cons m ms ih =>
    rw [List.flatMap_cons]
    exact (h m List.mem_cons_self).bind (ih fun m' hm' => h m' (List.mem_cons_of_mem m hm'))

end Emits

/-! ## Reading -/

/-- Code that reads; the bytes that are left are those the reader has not consumed. -/
abbrev Read (α : Type) : Type := Bytes → Except Failure α × Bytes

namespace Read

variable {α β : Type}

def bind (x : Read α) (f : α → Read β) : Read β := fun s =>
  match x s with
  | (.ok a, rest) => f a rest
  | (.error e, rest) => (.error e, rest)

instance : Monad Read where
  pure a := fun s => (.ok a, s)
  bind := bind

def fail (e : Failure) : Read α := fun s => (.error e, s)

theorem bind_eq_ok {x : Read α} {f : α → Read β} {s t : Bytes} {b : β} :
    (x >>= f) s = (.ok b, t) ↔ ∃ a u, x s = (.ok a, u) ∧ f a u = (.ok b, t) := by
  show (match x s with
    | (.ok a, rest) => f a rest
    | (.error e, rest) => (.error e, rest)) = (.ok b, t) ↔ _
  split
  · rename_i a u hx
    constructor
    · exact fun h => ⟨a, u, hx, h⟩
    · rintro ⟨a', u', hx', h⟩
      rw [hx] at hx'
      cases hx'
      exact h
  · rename_i e u hx
    refine iff_of_false nofun ?_
    rintro ⟨a', u', hx', -⟩
    rw [hx] at hx'
    cases hx'

theorem bind_eq_error {x : Read α} {f : α → Read β} {s t : Bytes} {e : Failure} :
    (x >>= f) s = (.error e, t) ↔ x s = (.error e, t) ∨ ∃ a u, x s = (.ok a, u) ∧ f a u = (.error e, t) := by
  show (match x s with
    | (.ok a, rest) => f a rest
    | (.error e, rest) => (.error e, rest)) = (.error e, t) ↔ _
  split
  · rename_i a u hx
    rw [hx]
    constructor
    · exact fun h => .inr ⟨a, u, rfl, h⟩
    · rintro (h | ⟨a', u', hx', h⟩)
      · cases h
      · cases hx'
        exact h
  · rename_i e' u hx
    rw [hx]
    constructor
    · intro h
      cases h
      exact .inl rfl
    · rintro (h | ⟨a', u', hx', -⟩)
      · cases h
        rfl
      · cases hx'

@[simp] theorem pure_eq_ok {a b : α} {s t : Bytes} : (pure a : Read α) s = (.ok b, t) ↔ b = a ∧ t = s := by
  show ((.ok a, s) : Except Failure α × Bytes) = (.ok b, t) ↔ _
  simp only [Prod.mk.injEq, Except.ok.injEq, eq_comm]

@[simp] theorem fail_ne_ok {e : Failure} {b : α} {s t : Bytes} : (fail e : Read α) s ≠ (.ok b, t) := nofun

end Read

/-- `read_exact`: the next `n` bytes; if there are fewer, they are consumed all the same. -/
def readExact (n : Nat) : Read Bytes := fun s =>
  if n ≤ s.length then (.ok (s.take n), s.drop n) else (.error (.err .io), [])

def readU8 : Read UInt8
  | [] => (.error (.err .io), [])
  | byte :: rest => (.ok byte, rest)

/-- `read_u32`, which is big-endian. -/
def readU32 : Read Nat := do
  let header ← readExact 4
  pure (fromBeBytes header)

/-- `vec![0u8; len]`, which panics if that is more than `isize::MAX` bytes. -/
def allocate (host : Host) (len : Nat) : Read Unit :=
  if len ≤ host.isizeMax then pure () else Read.fail .panic

/-- The data behind a header: `read_u32`, the buffer, and `read_exact`. -/
def readData (host : Host) : Read Bytes := do
  let len ← readU32
  allocate host len
  readExact len

/-- `String::from_utf8(buf)?`. -/
def readText (buf : Bytes) : Read String :=
  match Codec.fromUtf8 buf with
  | .ok text => pure text
  | _ => Read.fail (.err .invalidUtf8)

section

variable {s t : Bytes}

theorem readExact_eq_ok {n : Nat} {b : Bytes} : readExact n s = (.ok b, t) ↔ b.length = n ∧ s = b ++ t := by
  unfold readExact
  split
  · rename_i hle
    constructor
    · intro h
      cases h
      exact ⟨List.length_take_of_le hle, (List.take_append_drop n s).symm⟩
    · rintro ⟨rfl, rfl⟩
      rw [List.take_left, List.drop_left]
  · rename_i hle
    refine iff_of_false nofun ?_
    rintro ⟨rfl, rfl⟩
    rw [List.length_append] at hle
    omega

theorem readU32_eq_ok {n : Nat} : readU32 s = (.ok n, t) ↔ n < 2 ^ 32 ∧ s = toBeBytes 4 n ++ t := by
  unfold readU32
  rw [Read.bind_eq_ok]
  constructor
  · rintro ⟨header, u, hheader, h⟩
    obtain ⟨rfl, rfl⟩ := Read.pure_eq_ok.mp h
    obtain ⟨hlen, rfl⟩ := readExact_eq_ok.mp hheader
    have hlt := fromBeBytes_lt header
    rw [hlen] at hlt
    exact ⟨hlt, by rw [toBeBytes_fromBeBytes_of_length hlen]⟩
  · rintro ⟨hlt, rfl⟩
    refine ⟨toBeBytes 4 n, t, readExact_eq_ok.mpr ⟨length_toBeBytes 4 n, rfl⟩, Read.pure_eq_ok.mpr ⟨?_, rfl⟩⟩
    rw [fromBeBytes_toBeBytes, Nat.mod_eq_of_lt (show n < 256 ^ 4 from hlt)]

theorem readExact_ne_panic {n : Nat} : readExact n s ≠ (.error .panic, t) := by
  unfold readExact
  split <;> nofun

theorem readU32_ne_panic : readU32 s ≠ (.error .panic, t) := by
  intro h
  obtain hheader | ⟨header, u, -, hpure⟩ := Read.bind_eq_error.mp h
  · exact readExact_ne_panic hheader
  · cases hpure

theorem allocate_eq_ok {host : Host} {len : Nat} : allocate host len s = (.ok (), t) ↔ len ≤ host.isizeMax ∧ t = s := by
  unfold allocate
  split
  · rename_i hle
    rw [Read.pure_eq_ok]
    exact ⟨fun h => ⟨hle, h.2⟩, fun h => ⟨rfl, h.2⟩⟩
  · rename_i hbig
    exact iff_of_false nofun fun h => hbig h.1

theorem allocate_eq_panic {host : Host} {len : Nat} :
    allocate host len s = (.error .panic, t) ↔ host.isizeMax < len ∧ t = s := by
  unfold allocate
  split
  · rename_i hle
    exact iff_of_false nofun fun h => absurd h.1 (Nat.not_lt.mpr hle)
  · rename_i hbig
    constructor
    · intro h
      cases h
      exact ⟨Nat.lt_of_not_le hbig, rfl⟩
    · rintro ⟨-, rfl⟩
      rfl

theorem readText_ne_panic {buf : Bytes} : readText buf s ≠ (.error .panic, t) := by
  unfold readText
  cases Codec.fromUtf8 buf <;> nofun

theorem readText_eq_ok {buf : Bytes} {text : String} : readText buf s = (.ok text, t) ↔ buf = asBytes text ∧ t = s := by
  rw [← fromUtf8_eq_ok]
  unfold readText
  cases hutf8 : Codec.fromUtf8 buf with
  | ok text' =>
    show (pure text' : Read String) s = (.ok text, t) ↔ _
    rw [Read.pure_eq_ok]
    exact and_congr_left' ⟨fun h => congrArg Res.ok h.symm, fun h => (Res.ok.inj h).symm⟩
  | err e => simp
  | panic reason => simp

end

/-! ## Frames -/

/-- A type byte, the length of the data as far as four bytes hold it, and the data. -/
def headed (msgType : UInt8) (data : Bytes) : Bytes :=
  msgType :: (toBeBytes 4 (data.length % 2 ^ 32) ++ data)

theorem headed_of_lt {data : Bytes} (msgType : UInt8) (h : data.length < 2 ^ 32) :
    headed msgType data = msgType :: (toBeBytes 4 data.length ++ data) := by
  rw [headed, Nat.mod_eq_of_lt h]

@[simp] theorem length_headed (msgType : UInt8) (data : Bytes) : (headed msgType data).length = 5 + data.length := by
  simp only [headed, List.length_cons, List.length_append, length_toBeBytes]
  omega

/-- What the sinks write for a message. -/
def sent : ConduitMessage → Bytes
  | .handshake text => headed 0 (asBytes text)
  | .content data => headed 1 data
  | .close _ => [2]

theorem Emits.headed {x y z : Write Unit} {msgType : UInt8} {data : Bytes} (hx : Emits x [msgType])
    (hy : Emits y (toBeBytes 4 (data.length % 2 ^ 32))) (hz : Emits z data) :
    Emits (do x
              y
              z
              Conduit.flush) (headed msgType data) := by
  have h := hx.bind (hy.bind (hz.bind Emits.flush))
  rw [List.append_nil] at h
  exact h

/-- What a header and its data are read from. -/
theorem readData_eq_ok {host : Host} {s t data : Bytes} : readData host s = (.ok data, t) ↔
    (data.length < 2 ^ 32 ∧ data.length ≤ host.isizeMax) ∧ s = toBeBytes 4 data.length ++ data ++ t := by
  unfold readData
  rw [Read.bind_eq_ok]
  constructor
  · rintro ⟨len, u, hlen, h⟩
    obtain ⟨hlt, rfl⟩ := readU32_eq_ok.mp hlen
    obtain ⟨⟨⟩, v, hallocate, hdata⟩ := Read.bind_eq_ok.mp h
    obtain ⟨hle, rfl⟩ := allocate_eq_ok.mp hallocate
    obtain ⟨rfl, rfl⟩ := readExact_eq_ok.mp hdata
    exact ⟨⟨hlt, hle⟩, (List.append_assoc _ _ _).symm⟩
  · rintro ⟨⟨hlt, hle⟩, rfl⟩
    rw [List.append_assoc]
    exact ⟨data.length, data ++ t, readU32_eq_ok.mpr ⟨hlt, rfl⟩,
      Read.bind_eq_ok.mpr ⟨(), data ++ t, allocate_eq_ok.mpr ⟨hle, rfl⟩, readExact_eq_ok.mpr ⟨rfl, rfl⟩⟩⟩

/-- **Reading panics exactly where a header asks for more than can be allocated.** -/
theorem readData_eq_panic {host : Host} {s t : Bytes} : readData host s = (.error .panic, t) ↔
    ∃ len, host.isizeMax < len ∧ len < 2 ^ 32 ∧ s = toBeBytes 4 len ++ t := by
  unfold readData
  rw [Read.bind_eq_error]
  constructor
  · rintro (h | ⟨len, u, hlen, h⟩)
    · exact absurd h readU32_ne_panic
    · obtain ⟨hlt, rfl⟩ := readU32_eq_ok.mp hlen
      obtain hallocate | ⟨⟨⟩, v, -, hdata⟩ := Read.bind_eq_error.mp h
      · obtain ⟨hbig, rfl⟩ := allocate_eq_panic.mp hallocate
        exact ⟨len, hbig, hlt, rfl⟩
      · exact absurd hdata readExact_ne_panic
  · rintro ⟨len, hbig, hlt, rfl⟩
    exact .inr ⟨len, t, readU32_eq_ok.mpr ⟨hlt, rfl⟩, Read.bind_eq_error.mpr (.inl (allocate_eq_panic.mpr ⟨hbig, rfl⟩))⟩

end Conduit
end Wormhole
