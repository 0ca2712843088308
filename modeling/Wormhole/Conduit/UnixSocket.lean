import Wormhole.Conduit.ReceiveLoop

/-!
# `Conduit.UnixSocket` — the framing of the Unix-socket transport

`create_sink` and `create_source`, which `unix_socket/server.rs` and `unix_socket/client.rs` have word for
word. The source reads exactly the frames at the front of its bytes; it allocates what a header asks for before it
reads on, and panics if that is too much for the host. The sink writes the frame of every message whose payload has a
length that fits the header, and of a longer one a header that is too small.
-/

namespace Wormhole
namespace Conduit
namespace UnixSocket

open LittleEndian BigEndian Codec

/-- `create_sink`: a message is written and flushed. -/
def createSink : ConduitMessage → Write Unit
  | .handshake text => do
    let data := asBytes text
    (writeU8 0).orFail .messageType
    (writeU32 data.length).orFail .messageLength
    (writeAll data).orFail .messageData
    flush
  | .content bin => do
    (writeU8 1).orFail .messageType
    (writeU32 bin.length).orFail .messageLength
    (writeAll bin).orFail .messageData
    flush
  | .close _ => do
    (writeU8 2).orFail .closeMessage
    flush

/-- The next message of `create_source`. -/
def readMessage (host : Host) : Read ConduitMessage := do
  let msgType ← readU8
  if msgType = 0 then
    let buf ← readData host
    let text ← readText buf
    pure (.handshake text)
  else if msgType = 1 then
    let buf ← readData host
    pure (.content buf)
  else if msgType = 2 then
    pure (.close none)
  else
    Read.fail (.err (.unknownMessageType msgType))

/-! ## Frames -/

/-- The bytes are the frame of the message. -/
def IsFrame (host : Host) : ConduitMessage → Bytes → Prop
  | .handshake text, f => (ConduitMessage.handshake text).Fits host ∧ f = headed 0 (asBytes text)
  | .content data, f => (ConduitMessage.content data).Fits host ∧ f = headed 1 data
  | .close reason, f => reason = none ∧ f = [2]

variable {host : Host}

/-- The byte that tells the kind of the message. -/
theorem readMessage_cons (msgType : UInt8) (s : Bytes) : readMessage host (msgType :: s) =
    (if msgType = 0 then do
        let buf ← readData host
        let text ← readText buf
        pure (.handshake text)
      else if msgType = 1 then do
        let buf ← readData host
        pure (.content buf)
      else if msgType = 2 then pure (.close none)
      else Read.fail (.err (.unknownMessageType msgType)) : Read ConduitMessage) s := rfl

/-- **A message is read exactly where its frame stands.** -/
theorem readMessage_eq_ok {s t : Bytes} {m : ConduitMessage} :
    readMessage host s = (.ok m, t) ↔ ∃ f, IsFrame host m f ∧ s = f ++ t := by
  constructor
  · intro h
    cases s with
    | nil => cases h
    | cons msgType s =>
      rw [readMessage_cons] at h
      split at h
      · rename_i hkind
        subst hkind
        obtain ⟨data, u, hread, htext⟩ := Read.bind_eq_ok.mp h
        obtain ⟨hfits, rfl⟩ := readData_eq_ok.mp hread
        obtain ⟨text, v, htext, hdone⟩ := Read.bind_eq_ok.mp htext
        obtain ⟨hdata, hv⟩ := readText_eq_ok.mp htext
        obtain ⟨hm, ht⟩ := Read.pure_eq_ok.mp hdone
        subst hdata hv hm ht
        exact ⟨_, ⟨hfits, rfl⟩, by rw [headed_of_lt 0 hfits.1, List.cons_append]⟩
      · split at h
        · rename_i hkind
          subst hkind
          obtain ⟨data, u, hread, hdone⟩ := Read.bind_eq_ok.mp h
          obtain ⟨hfits, rfl⟩ := readData_eq_ok.mp hread
          obtain ⟨hm, ht⟩ := Read.pure_eq_ok.mp hdone
          subst hm ht
          exact ⟨_, ⟨hfits, rfl⟩, by rw [headed_of_lt 1 hfits.1, List.cons_append]⟩
        · split at h
          · rename_i hkind
            subst hkind
            obtain ⟨rfl, rfl⟩ := Read.pure_eq_ok.mp h
            -- a `Close` has no length: the byte is the frame
            exact ⟨[2], ⟨rfl, rfl⟩, rfl⟩
          · cases h
  · rintro ⟨f, hf, rfl⟩
    cases m with
    | handshake text =>
      obtain ⟨hfits, rfl⟩ := hf
      have hlt : (asBytes text).length < 2 ^ 32 := hfits.1
      rw [headed_of_lt 0 hlt, List.cons_append, readMessage_cons, if_pos rfl]
      exact Read.bind_eq_ok.mpr ⟨asBytes text, t, readData_eq_ok.mpr ⟨hfits, rfl⟩,
        Read.bind_eq_ok.mpr ⟨text, t, readText_eq_ok.mpr ⟨rfl, rfl⟩, rfl⟩⟩
    | content data =>
      obtain ⟨hfits, rfl⟩ := hf
      have hlt : data.length < 2 ^ 32 := hfits.1
      rw [headed_of_lt 1 hlt, List.cons_append, readMessage_cons, if_neg (by decide), if_pos rfl]
      exact Read.bind_eq_ok.mpr ⟨data, t, readData_eq_ok.mpr ⟨hfits, rfl⟩, rfl⟩
    | close reason =>
      obtain ⟨rfl, rfl⟩ := hf
      rfl

/-- A header of a text or a binary message that asks for more than the host can allocate. -/
def IsOversized (host : Host) (s : Bytes) : Prop :=
  ∃ msgType len t, (msgType = 0 ∨ msgType = 1) ∧ host.isizeMax < len ∧ len < 2 ^ 32 ∧
    s = msgType :: (toBeBytes 4 len ++ t)

/-- **Reading panics exactly at such a header.** -/
theorem readMessage_eq_panic {s : Bytes} : (∃ t, readMessage host s = (.error .panic, t)) ↔ IsOversized host s := by
  constructor
  · rintro ⟨t, h⟩
    cases s with
    | nil => cases h
    | cons msgType s =>
      rw [readMessage_cons] at h
      split at h
      · rename_i hkind
        obtain hread | ⟨data, u, -, hrest⟩ := Read.bind_eq_error.mp h
        · obtain ⟨len, hbig, hlt, rfl⟩ := readData_eq_panic.mp hread
          exact ⟨msgType, len, t, .inl hkind, hbig, hlt, rfl⟩
        · obtain htext | ⟨text, v, -, hdone⟩ := Read.bind_eq_error.mp hrest
          · exact absurd htext readText_ne_panic
          · cases hdone
      · split at h
        · rename_i hkind
          obtain hread | ⟨data, u, -, hdone⟩ := Read.bind_eq_error.mp h
          · obtain ⟨len, hbig, hlt, rfl⟩ := readData_eq_panic.mp hread
            exact ⟨msgType, len, t, .inr hkind, hbig, hlt, rfl⟩
          · cases hdone
        · split at h <;> cases h
  · rintro ⟨msgType, len, t, hkind, hbig, hlt, rfl⟩
    have hread : readData host (toBeBytes 4 len ++ t) = (.error .panic, t) :=
      readData_eq_panic.mpr ⟨len, hbig, hlt, rfl⟩
    refine ⟨t, ?_⟩
    rw [readMessage_cons]
    obtain rfl | rfl := hkind
    · exact Read.bind_eq_error.mpr (.inl hread)
    · exact Read.bind_eq_error.mpr (.inl hread)

theorem IsFrame.ne_nil {m : ConduitMessage} {f : Bytes} (h : IsFrame host m f) : f ≠ [] := by
  cases m with
  | handshake text =>
    rw [h.2]
    nofun
  | content data =>
    rw [h.2]
    nofun
  | close reason =>
    rw [h.2]
    nofun

/-- `create_source`: the stream has no end, it fails at the end of the bytes. -/
def createSource (host : Host) : ConduitSource UInt8 where
  next s := some (readMessage host s)
  shrinks h := by
    obtain ⟨f, hf, rfl⟩ := readMessage_eq_ok.mp (Option.some.inj h)
    rw [List.length_append]
    have := List.length_pos_iff.mpr hf.ne_nil
    omega

theorem decodes (host : Host) : (createSource host).Decodes (IsFrame host) where
  reads hf _ := congrArg some (readMessage_eq_ok.mpr ⟨_, hf, rfl⟩)
  only h := readMessage_eq_ok.mp (Option.some.inj h)

/-! ## What is sent and what is read -/

theorem createSink_emits (m : ConduitMessage) : Emits (createSink m) (sent m) := by
  cases m with
  | handshake text =>
    apply Emits.headed
    · exact (Emits.writeAll _).orFail nofun
    · exact (Emits.writeAll _).orFail nofun
    · exact (Emits.writeAll _).orFail nofun
  | content data =>
    apply Emits.headed
    · exact (Emits.writeAll _).orFail nofun
    · exact (Emits.writeAll _).orFail nofun
    · exact (Emits.writeAll _).orFail nofun
  | close reason =>
    have hclose : Emits ((writeU8 2).orFail .closeMessage) [2] := (Emits.writeAll [2]).orFail nofun
    exact hclose.bind Emits.flush

theorem sendAll_emits (ms : List ConduitMessage) : Emits (sendAll createSink ms) (ms.flatMap sent) :=
  Emits.sendAll fun m _ => createSink_emits m

/-- The frame of a message is what the sink writes for it. -/
theorem IsFrame.eq_sent {m : ConduitMessage} {f : Bytes} (h : IsFrame host m f) : f = sent m := by
  cases m with
  | handshake text => exact h.2
  | content data => exact h.2
  | close reason => exact h.2

theorem IsFrame.fits {m : ConduitMessage} {f : Bytes} (h : IsFrame host m f) : m.Fits host := by
  cases m with
  | handshake text => exact h.1
  | content data => exact h.1
  | close reason => exact ConduitMessage.fits_close host reason

theorem isFrame_sent {m : ConduitMessage} (h : m.Fits host) : IsFrame host m.withoutReason (sent m) := by
  cases m with
  | handshake text => exact ⟨h, rfl⟩
  | content data => exact ⟨h, rfl⟩
  | close reason => exact ⟨rfl, rfl⟩

/-- Frames of a list of messages, one by one. -/
theorem frames_eq_sent {ms : List ConduitMessage} {fs : List Bytes} (h : List.Forall₂ (IsFrame host) ms fs) :
    (∀ m ∈ ms, m.Fits host) ∧ fs = ms.map sent := by
  induction h with
  | nil => exact ⟨nofun, rfl⟩
  | cons hf _ ih =>
    obtain ⟨hfits, rfl⟩ := ih
    rw [hf.eq_sent]
    exact ⟨List.forall_mem_cons.mpr ⟨hf.fits, hfits⟩, rfl⟩

/-- What is read has a length that fits the header. -/
theorem fits_of_mem_run {s : Bytes} : ∀ m ∈ ((createSource host).run s).messages, m.Fits host := by
  obtain ⟨⟨fs, hfs, -⟩, -⟩ := (decodes host).run_splits s
  exact (frames_eq_sent hfs).1

/-- **Messages with short payloads are read back.** -/
theorem run_sent {ms : List ConduitMessage} (hfits : ∀ m ∈ ms, m.Fits host) :
    ((createSource host).run (ms.flatMap sent)).messages = ms.map ConduitMessage.withoutReason ∧
      ((createSource host).run (ms.flatMap sent)).rest = [] := by
  have hfs : List.Forall₂ (IsFrame host) (ms.map ConduitMessage.withoutReason) (ms.map sent) := by
    rw [List.forall₂_map_left_iff, List.forall₂_map_right_iff]
    exact List.forall₂_same.mpr fun m hm => isFrame_sent (hfits m hm)
  have h := (decodes host).run_unique (t := []) hfs
    fun m f t hf heq => hf.ne_nil (List.append_eq_nil_iff.mp heq.symm).1
  rw [List.append_nil] at h
  exact h

/-- **A list of messages that the sink takes is read back exactly if every payload is shorter than 2³² bytes** (and
    has a length that the host can allocate, as that of every message of the host): of a longer one the header says
    too little, and what is over is read as the messages after it. -/
theorem read_back_iff (host : Host) {ms : List ConduitMessage} {w w' : Writer} (hnew : w.written = [])
    (hsent : sendAll createSink ms w = (.ok (), w')) :
    (((createSource host).run w'.written).messages = ms.map ConduitMessage.withoutReason ∧
        ((createSource host).run w'.written).rest = []) ↔
      ∀ m ∈ ms, m.payload.length < 2 ^ 32 ∧ m.payload.length ≤ host.isizeMax := by
  have hwritten : w'.written = ms.flatMap sent := by
    rw [(sendAll_emits ms).written hsent, hnew, List.nil_append]
  rw [hwritten]
  constructor
  · rintro ⟨hmessages, -⟩ m hm
    have hread : m.withoutReason ∈ ((createSource host).run (ms.flatMap sent)).messages := by
      rw [hmessages]
      exact List.mem_map_of_mem hm
    have hfits := fits_of_mem_run _ hread
    cases m with
    | handshake text => exact hfits
    | content data => exact hfits
    | close reason => exact hfits
  · exact run_sent

/-- A text and a `Close` with a reason, which is lost. -/
theorem read_back_iff_hello :
    (((createSource .sixtyFour).run (sent (.handshake "hi") ++ sent (.close (some "bye")))).messages =
          [.handshake "hi", .close none] ∧
        ((createSource .sixtyFour).run (sent (.handshake "hi") ++ sent (.close (some "bye")))).rest = []) ↔
      ∀ m ∈ [ConduitMessage.handshake "hi", .close (some "bye")],
        m.payload.length < 2 ^ 32 ∧ m.payload.length ≤ Host.sixtyFour.isizeMax :=
  @read_back_iff .sixtyFour [.handshake "hi", .close (some "bye")] Writer.sound
    { Writer.sound with written := sent (.handshake "hi") ++ sent (.close (some "bye")) } rfl
    ((sendAll_emits [.handshake "hi", .close (some "bye")]).sound rfl rfl)

/-- **A payload of 2³² bytes is not read back**, although the sink takes it. -/
theorem four_gib_not_read_back :
    ∃ ms w', sendAll createSink ms Writer.sound = (.ok (), w') ∧
      ((createSource .sixtyFour).run w'.written).messages ≠ ms.map ConduitMessage.withoutReason := by
  refine ⟨[.content (List.replicate (2 ^ 32) 0)], _, (sendAll_emits _).sound rfl rfl, ?_⟩
  intro hmessages
  have hfits := fits_of_mem_run (.content (List.replicate (2 ^ 32) 0)) (by
    rw [hmessages]
    exact List.mem_singleton_self _)
  apply Nat.lt_irrefl (2 ^ 32)
  calc 2 ^ 32 = (List.replicate (2 ^ 32) (0 : UInt8)).length := List.length_replicate.symm
    _ < 2 ^ 32 := hfits.1

/-! ## Any stream -/

/-- The stream comes to a header that asks for too much, and no `Close` before it. -/
def Oversized (host : Host) (s : Bytes) : Prop :=
  ∃ ms fs rest, List.Forall₂ (IsFrame host) ms fs ∧ (∀ m ∈ ms, m.isClose = false) ∧ IsOversized host rest ∧
    s = fs.flatten ++ rest

/-- **The loop panics on exactly these streams.** -/
theorem panics_iff {s : Bytes} : Panics (createSource host) s ↔ Oversized host s := by
  have hnext (s : Bytes) : (∃ t, (createSource host).next s = some (.error .panic, t)) ↔ IsOversized host s := by
    rw [← readMessage_eq_panic]
    exact exists_congr fun t => Option.some_inj
  constructor
  · rintro ⟨hstop, hopen⟩
    obtain ⟨⟨fs, hfs, hs⟩, -⟩ := (decodes host).run_splits s
    exact ⟨_, fs, _, hfs, hopen, (hnext _).mp (Reader.stop_eq_some.mp hstop), hs⟩
  · rintro ⟨ms, fs, rest, hfs, hopen, hbig, rfl⟩
    have hstop := (hnext rest).mpr hbig
    -- no frame stands there, so the frames before it are all that the source reads
    have hfront (m : ConduitMessage) (f t : Bytes) (hf : IsFrame host m f) : rest ≠ f ++ t := by
      rintro rfl
      obtain ⟨t', ht'⟩ := hstop
      rw [(decodes host).reads hf t] at ht'
      cases ht'
    obtain ⟨hmessages, hrest⟩ := (decodes host).run_unique hfs hfront
    rw [Panics, Reader.stop_eq_some, hmessages, hrest]
    exact ⟨hstop, hopen⟩

/-- **The source reads the frames at the front of the stream, nothing else reaches the portal than those before
    the first `Close`, then one `Close`, and sending what was read gives the bytes it was read from.** -/
def Exact (host : Host) (s : Bytes) : Prop :=
  ∃ fs, List.Forall₂ (IsFrame host) ((createSource host).run s).messages fs ∧
    s = fs.flatten ++ ((createSource host).run s).rest ∧
    (∀ m f t, IsFrame host m f → ((createSource host).run s).rest ≠ f ++ t) ∧
    (∀ alive : Nat → Bool, (∀ k, alive k = true) →
      receiveLoop (createSource host) alive 0 s = passed ((createSource host).run s).messages ++ [.close]) ∧
    ∀ k, sendAll createSink (((createSource host).run s).messages.take k) Writer.sound =
      (.ok (), { Writer.sound with written := (fs.take k).flatten })

/-- **So it is for every stream that asks for no more than can be allocated**, whatever its bytes are, and wherever
    they end; and for no other, where the task of the loop panics and the portal gets no `Close`. -/
theorem exact_iff (host : Host) (s : Bytes) : Exact host s ↔ ¬Oversized host s := by
  rw [← panics_iff]
  constructor
  · rintro ⟨-, -, -, -, hloop, -⟩ hpanics
    have hclose := hloop (fun _ => true) fun _ => rfl
    -- the panic ends the task before its last line, which casts the `Close`
    rw [receiveLoop_of_panics (fun _ => rfl) 0 hpanics, List.self_eq_append_right] at hclose
    cases hclose
  · intro hreads
    obtain ⟨⟨fs, hfs, hs⟩, hrest⟩ := (decodes host).run_splits s
    refine ⟨fs, hfs, hs, hrest, fun alive halive => receiveLoop_eq halive 0 hreads, fun k => ?_⟩
    obtain ⟨-, htake⟩ := frames_eq_sent (List.forall₂_take k hfs)
    rw [(sendAll_emits _).sound rfl rfl, htake]
    rfl

/-- On a host of 64 bits, so it is for every stream. -/
theorem exact_of_wide (host : Host) (h : 33 ≤ host.bits) (s : Bytes) : Exact host s := by
  rw [exact_iff]
  rintro ⟨-, -, rest, -, -, ⟨msgType, len, t, -, hbig, hlt, -⟩, -⟩
  exact absurd (host.u32_le h hlt) (Nat.not_le.mpr hbig)

/-- A header of 2³¹ bytes, on a host of 32 bits. -/
theorem not_exact_thirtyTwo : ¬Exact .thirtyTwo [1, 0x80, 0, 0, 0] := by
  rw [exact_iff, not_not]
  exact ⟨[], [], _, .nil, nofun, ⟨1, 2 ^ 31, [], .inr rfl, by decide, by decide, by decide⟩, rfl⟩

end UnixSocket
end Conduit
end Wormhole
