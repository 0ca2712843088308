import Wormhole.Conduit.UnixSocket

/-!
# `Conduit.Ssh` — the framing of the SSH transport

`create_sink` and `create_source` of `ssh/client.rs`. They are meant for the same bytes as those of the
Unix-socket transport, to which an SSH tunnel leads. Texts and binary messages are framed alike; a `Close` is
one byte on both writing sides and on the reading side of the Unix-socket transport, but has a header and data
for this source.
-/

namespace Wormhole
namespace Conduit
namespace Ssh

open LittleEndian BigEndian Codec

/-- `create_sink`: for a `Close` the type byte is written if that is possible, and the sink fails. -/
def createSink : ConduitMessage → Write Unit
  | .handshake text => do
    let data := asBytes text
    writeU8 0
    writeU32 data.length
    writeAll data
    flush
  | .content data => do
    writeU8 1
    writeU32 data.length
    writeAll data
    flush
  | .close _ => do
    (writeU8 2).ignore
    flush.ignore
    Write.fail .connectionClosed

/-- `String::from_utf8(buffer).ok()`. -/
def textOf? (buffer : Bytes) : Option String :=
  match fromUtf8 buffer with
  | .ok text => some text
  | _ => none

/-- What follows the type byte. -/
def readMessage (host : Host) (msgType : UInt8) : Read ConduitMessage := do
  let buffer ← readData host
  if msgType = 0 then
    let text ← readText buffer
    pure (.handshake text)
  else if msgType = 1 then
    pure (.content buffer)
  else if msgType = 2 then
    pure (.close (textOf? buffer))
  else
    Read.fail (.err (.unknownMessageType msgType))

/-! ## Frames -/

/-- The bytes are the frame of the message, for the source. -/
def IsFrame (host : Host) : ConduitMessage → Bytes → Prop
  | .close reason, f => ∃ data : Bytes, (data.length < 2 ^ 32 ∧ data.length ≤ host.isizeMax) ∧ reason = textOf? data ∧
      f = headed 2 data
  | m, f => UnixSocket.IsFrame host m f

variable {host : Host}

/-- **A message is read exactly where its frame stands.** -/
theorem readMessage_eq_ok {msgType : UInt8} {s t : Bytes} {m : ConduitMessage} :
    readMessage host msgType s = (.ok m, t) ↔ ∃ f, IsFrame host m f ∧ msgType :: s = f ++ t := by
  -- the length and the data are read before the type is looked at, for a `Close` too
  unfold readMessage
  rw [Read.bind_eq_ok]
  constructor
  · rintro ⟨data, u, hread, h⟩
    obtain ⟨hfits, rfl⟩ := readData_eq_ok.mp hread
    have hframe : msgType :: (toBeBytes 4 data.length ++ data ++ u) = headed msgType data ++ u := by
      rw [headed_of_lt msgType hfits.1, List.cons_append]
    rw [hframe]
    split at h
    · rename_i hkind
      obtain ⟨text, v, htext, hdone⟩ := Read.bind_eq_ok.mp h
      obtain ⟨hdata, hv⟩ := readText_eq_ok.mp htext
      obtain ⟨hm, ht⟩ := Read.pure_eq_ok.mp hdone
      subst hkind hdata hv hm ht
      exact ⟨_, ⟨hfits, rfl⟩, rfl⟩
    · split at h
      · rename_i hkind
        obtain ⟨hm, ht⟩ := Read.pure_eq_ok.mp h
        subst hkind hm ht
        exact ⟨_, ⟨hfits, rfl⟩, rfl⟩
      · split at h
        · rename_i hkind
          obtain ⟨hm, ht⟩ := Read.pure_eq_ok.mp h
          subst hkind hm ht
          exact ⟨_, ⟨data, hfits, rfl, rfl⟩, rfl⟩
        · exact absurd h Read.fail_ne_ok
  · rintro ⟨f, hf, hs⟩
    cases m with
    | handshake text =>
      obtain ⟨hfits, rfl⟩ := hf
      have hlt : (asBytes text).length < 2 ^ 32 := hfits.1
      rw [headed_of_lt 0 hlt, List.cons_append, List.cons.injEq] at hs
      obtain ⟨rfl, rfl⟩ := hs
      refine ⟨asBytes text, t, readData_eq_ok.mpr ⟨hfits, rfl⟩, ?_⟩
      rw [if_pos rfl]
      exact Read.bind_eq_ok.mpr ⟨text, t, readText_eq_ok.mpr ⟨rfl, rfl⟩, rfl⟩
    | content data =>
      obtain ⟨hfits, rfl⟩ := hf
      have hlt : data.length < 2 ^ 32 := hfits.1
      rw [headed_of_lt 1 hlt, List.cons_append, List.cons.injEq] at hs
      obtain ⟨rfl, rfl⟩ := hs
      exact ⟨data, t, readData_eq_ok.mpr ⟨hfits, rfl⟩, rfl⟩
    | close reason =>
      obtain ⟨data, hfits, rfl, rfl⟩ := hf
      rw [headed_of_lt 2 hfits.1, List.cons_append, List.cons.injEq] at hs
      obtain ⟨rfl, rfl⟩ := hs
      exact ⟨data, t, readData_eq_ok.mpr ⟨hfits, rfl⟩, rfl⟩

/-- `create_source`: the stream ends where a type byte is missing. -/
def next (host : Host) (s : Bytes) : Option (Except Failure ConduitMessage × Bytes) :=
  match readU8 s with
  | (.error _, _) => none
  | (.ok msgType, rest) => some (readMessage host msgType rest)

theorem next_eq_ok {s t : Bytes} {m : ConduitMessage} :
    next host s = some (.ok m, t) ↔ ∃ f, IsFrame host m f ∧ s = f ++ t := by
  cases s with
  | nil =>
    refine iff_of_false nofun ?_
    rintro ⟨f, hf, hs⟩
    obtain ⟨rfl, -⟩ := List.append_eq_nil_iff.mp hs.symm
    cases m with
    | handshake text => exact absurd hf.2 nofun
    | content data => exact absurd hf.2 nofun
    | close reason =>
      obtain ⟨data, -, -, hframe⟩ := hf
      exact absurd hframe nofun
  | cons msgType s => exact Option.some_inj.trans readMessage_eq_ok

/-- A frame is a type byte, four bytes of length, and the data. -/
theorem IsFrame.five_add_length_le {m : ConduitMessage} {f : Bytes} (h : IsFrame host m f) :
    5 + m.payload.length ≤ f.length := by
  cases m with
  | handshake text =>
    rw [h.2, length_headed]
    rfl
  | content data =>
    rw [h.2, length_headed]
    rfl
  | close reason =>
    obtain ⟨data, -, -, rfl⟩ := h
    rw [length_headed]
    exact Nat.le_add_right 5 _

def createSource (host : Host) : ConduitSource UInt8 where
  next := next host
  shrinks h := by
    obtain ⟨f, hf, rfl⟩ := next_eq_ok.mp h
    rw [List.length_append]
    have := hf.five_add_length_le
    omega

theorem decodes (host : Host) : (createSource host).Decodes (IsFrame host) where
  reads hf _ := next_eq_ok.mpr ⟨_, hf, rfl⟩
  only h := next_eq_ok.mp h

/-! ## Messages without a `Close` -/

variable {ms : List ConduitMessage}

theorem isFrame_sent {m : ConduitMessage} (hfits : m.Fits host) (hopen : m.isClose = false) : IsFrame host m (sent m) := by
  cases m with
  | handshake text => exact ⟨hfits, rfl⟩
  | content data => exact ⟨hfits, rfl⟩
  | close reason => cases hopen

theorem IsFrame.fits {m : ConduitMessage} {f : Bytes} (h : IsFrame host m f) : m.Fits host := by
  cases m with
  | handshake text => exact h.1
  | content data => exact h.1
  | close reason => exact ConduitMessage.fits_close host _

theorem withoutReason_of_open {m : ConduitMessage} (hopen : m.isClose = false) : m.withoutReason = m := by
  cases m with
  | handshake text => rfl
  | content data => rfl
  | close reason => cases hopen

theorem map_withoutReason (hopen : ∀ m ∈ ms, m.isClose = false) : ms.map ConduitMessage.withoutReason = ms := by
  rw [List.map_congr_left fun m hm => withoutReason_of_open (hopen m hm), List.map_id']

/-- **Short messages without a `Close` are read back.** -/
theorem run_sent (hfits : ∀ m ∈ ms, m.Fits host) (hopen : ∀ m ∈ ms, m.isClose = false) :
    ((createSource host).run (ms.flatMap sent)).messages = ms := by
  have hfs : List.Forall₂ (IsFrame host) ms (ms.map sent) := by
    rw [List.forall₂_map_right_iff]
    exact List.forall₂_same.mpr fun m hm => isFrame_sent (hfits m hm) (hopen m hm)
  have hnil : ∀ m f t, IsFrame host m f → ([] : Bytes) ≠ f ++ t := by
    intro m f t hf heq
    have hlong := hf.five_add_length_le
    rw [(List.append_eq_nil_iff.mp heq.symm).1, List.length_nil] at hlong
    omega
  have h := ((decodes host).run_unique hfs hnil).1
  rw [List.append_nil] at h
  exact h

theorem fits_of_mem_run {s : Bytes} : ∀ m ∈ ((createSource host).run s).messages, m.Fits host := by
  obtain ⟨⟨fs, hfs, -⟩, -⟩ := (decodes host).run_splits s
  intro m hm
  obtain ⟨i, hi, rfl⟩ := List.getElem_of_mem hm
  exact (hfs.get hi (hfs.length_eq ▸ hi)).fits

/-! ## How many bytes messages take -/

/-- The bytes that the source takes for a message, at least. -/
def cost (m : ConduitMessage) : Nat := 5 + m.payload.length

theorem cost_withoutReason (m : ConduitMessage) : cost m.withoutReason = cost m := by
  cases m with
  | handshake text => rfl
  | content data => rfl
  | close reason => rfl

theorem sum_cost_withoutReason (ms : List ConduitMessage) :
    ((ms.map ConduitMessage.withoutReason).map cost).sum = (ms.map cost).sum := by
  rw [List.map_map]
  exact congrArg List.sum (List.map_congr_left fun m _ => cost_withoutReason m)

theorem sum_cost_le_of_frames {fs : List Bytes} (h : List.Forall₂ (IsFrame host) ms fs) :
    (ms.map cost).sum ≤ fs.flatten.length := by
  induction h with
  | nil => exact Nat.le_refl 0
  | cons hf _ ih =>
    rw [List.map_cons, List.sum_cons, List.flatten_cons, List.length_append]
    exact Nat.add_le_add hf.five_add_length_le ih

/-- No more messages are read than there are bytes for. -/
theorem sum_cost_le (s : Bytes) : (((createSource host).run s).messages.map cost).sum ≤ s.length := by
  obtain ⟨⟨fs, hfs, hs⟩, -⟩ := (decodes host).run_splits s
  calc (((createSource host).run s).messages.map cost).sum ≤ fs.flatten.length := sum_cost_le_of_frames hfs
    _ ≤ fs.flatten.length + ((createSource host).run s).rest.length := Nat.le_add_right _ _
    _ = s.length := by rw [← List.length_append, ← hs]

theorem length_sent_le (m : ConduitMessage) : (sent m).length ≤ cost m := by
  cases m with
  | handshake text => exact (length_headed 0 _).le
  | content data => exact (length_headed 1 _).le
  | close reason => exact (by decide : 1 ≤ 5)

theorem length_flatMap_sent_le (ms : List ConduitMessage) : (ms.flatMap sent).length ≤ (ms.map cost).sum := by
  induction ms with
  | nil => exact Nat.le_refl 0
  | cons m ms ih =>
    rw [List.flatMap_cons, List.length_append, List.map_cons, List.sum_cons]
    exact Nat.add_le_add (length_sent_le m) ih

/-- The sinks write fewer bytes for a `Close` than the source takes for it. -/
theorem open_of_cost_le (h : (ms.map cost).sum ≤ (ms.flatMap sent).length) : ∀ m ∈ ms, m.isClose = false := by
  induction ms with
  | nil => nofun
  | cons m ms ih =>
    rw [List.flatMap_cons, List.length_append, List.map_cons, List.sum_cons] at h
    have hhead := length_sent_le m
    have htail := length_flatMap_sent_le ms
    refine List.forall_mem_cons.mpr ⟨?_, ih (by omega)⟩
    cases m with
    | handshake text => rfl
    | content data => rfl
    | close reason =>
      have hclose : (sent (.close reason)).length + 4 = cost (.close reason) := rfl
      omega

/-- **Bytes that the source reads the messages from hold no `Close`**, if they are as many as the sinks write. -/
theorem open_of_read {s : Bytes} (hlen : s.length = (ms.flatMap sent).length)
    (hread : ((createSource host).run s).messages.map ConduitMessage.withoutReason =
      ms.map ConduitMessage.withoutReason) : ∀ m ∈ ms, m.isClose = false := by
  apply open_of_cost_le
  calc (ms.map cost).sum = ((ms.map ConduitMessage.withoutReason).map cost).sum :=
        (sum_cost_withoutReason ms).symm
    _ = ((((createSource host).run s).messages.map ConduitMessage.withoutReason).map cost).sum := by rw [hread]
    _ = (((createSource host).run s).messages.map cost).sum := sum_cost_withoutReason _
    _ ≤ s.length := sum_cost_le s
    _ = (ms.flatMap sent).length := hlen

/-! ## The two transports -/

theorem createSink_emits {m : ConduitMessage} (hopen : m.isClose = false) : Emits (createSink m) (sent m) := by
  cases m with
  | handshake text => exact Emits.headed (Emits.writeAll _) (Emits.writeAll _) (Emits.writeAll _)
  | content data => exact Emits.headed (Emits.writeAll _) (Emits.writeAll _) (Emits.writeAll _)
  | close reason => cases hopen

theorem sendAll_emits (hopen : ∀ m ∈ ms, m.isClose = false) : Emits (sendAll createSink ms) (ms.flatMap sent) :=
  Emits.sendAll fun m hm => createSink_emits (hopen m hm)

/-- The list ends in at most one `Close`: none stands before the last message. -/
def EndsInAtMostOneClose (ms : List ConduitMessage) : Prop := ∀ m ∈ ms.dropLast, m.isClose = false

/-- On a connection that does not break, such a list is written to its end, and not more. -/
theorem sendAll_sound (hends : EndsInAtMostOneClose ms) :
    ∃ r w', sendAll createSink ms Writer.sound = (r, w') ∧ w'.written = ms.flatMap sent ∧
      (r = .ok () ∨ r = .error .connectionClosed) := by
  rcases List.eq_nil_or_concat' ms with rfl | ⟨init, last, rfl⟩
  · exact ⟨.ok (), Writer.sound, rfl, rfl, .inl rfl⟩
  · unfold EndsInAtMostOneClose at hends
    rw [List.dropLast_concat] at hends
    rw [sendAll_append ((sendAll_emits hends).sound rfl rfl), List.flatMap_append]
    cases hlast : last.isClose with
    | false =>
      have hone : ∀ m ∈ [last], m.isClose = false := fun m hm => List.mem_singleton.mp hm ▸ hlast
      exact ⟨_, _, (sendAll_emits hone).sound rfl rfl, rfl, .inl rfl⟩
    | true =>
      cases last with
      | handshake text => cases hlast
      | content data => cases hlast
      | close reason => exact ⟨_, _, rfl, rfl, .inr rfl⟩

/-- What the sink of the Unix-socket transport writes is read alike by the two sources. -/
def ReadAlike (host : Host) (ms : List ConduitMessage) : Prop :=
  ∀ w w', w.written = [] → sendAll UnixSocket.createSink ms w = (.ok (), w') →
    ((createSource host).run w'.written).messages.map ConduitMessage.withoutReason =
      ((UnixSocket.createSource host).run w'.written).messages.map ConduitMessage.withoutReason

/-- What the SSH sink writes, until it is told to close the connection, is read back. -/
def ReadBack (host : Host) (ms : List ConduitMessage) : Prop :=
  ∀ w r w', w.written = [] → sendAll createSink ms w = (r, w') → r = .ok () ∨ r = .error .connectionClosed →
    ((createSource host).run w'.written).messages.map ConduitMessage.withoutReason =
      ms.map ConduitMessage.withoutReason

theorem readAlike (hfits : ∀ m ∈ ms, m.Fits host) (hopen : ∀ m ∈ ms, m.isClose = false) : ReadAlike host ms := by
  intro w w' hnew hsent
  rw [(UnixSocket.sendAll_emits ms).written hsent, hnew, List.nil_append, run_sent hfits hopen,
    (UnixSocket.run_sent hfits).1, map_withoutReason hopen, map_withoutReason hopen]

theorem readBack (hfits : ∀ m ∈ ms, m.Fits host) (hopen : ∀ m ∈ ms, m.isClose = false) : ReadBack host ms := by
  intro w r w' hnew hsent hr
  rcases hr with rfl | rfl
  · rw [(sendAll_emits hopen).written hsent, hnew, List.nil_append, run_sent hfits hopen]
  · exact absurd hsent (sendAll_emits hopen).not_closed

theorem ReadAlike.open (h : ReadAlike host ms) (hfits : ∀ m ∈ ms, m.Fits host) : ∀ m ∈ ms, m.isClose = false := by
  have halike : ((createSource host).run (ms.flatMap sent)).messages.map ConduitMessage.withoutReason =
      ((UnixSocket.createSource host).run (ms.flatMap sent)).messages.map ConduitMessage.withoutReason :=
    h Writer.sound _ rfl ((UnixSocket.sendAll_emits ms).sound rfl rfl)
  rw [(UnixSocket.run_sent hfits).1] at halike
  apply open_of_read rfl
  rw [halike, List.map_map]
  refine List.map_congr_left fun m _ => ?_
  cases m with
  | handshake text => rfl
  | content data => rfl
  | close reason => rfl

theorem ReadBack.fits_open (h : ReadBack host ms) (hends : EndsInAtMostOneClose ms) :
    (∀ m ∈ ms, m.Fits host) ∧ ∀ m ∈ ms, m.isClose = false := by
  obtain ⟨r, w', hsent, hwritten, hr⟩ := sendAll_sound hends
  have hback := h Writer.sound r w' rfl hsent hr
  have hopen := open_of_read (congrArg List.length hwritten) hback
  refine ⟨fun m hm => ?_, hopen⟩
  have hread : m ∈ ((createSource host).run w'.written).messages.map ConduitMessage.withoutReason := by
    rw [hback, map_withoutReason hopen]
    exact hm
  obtain ⟨m', hm', rfl⟩ := List.mem_map.mp hread
  have hfits := fits_of_mem_run m' hm'
  cases m' with
  | handshake text => exact hfits
  | content data => exact hfits
  | close reason => exact hfits

/-- A payload of 2³² bytes is read as an empty one, and then by what it looks like: if that is no message, no
    source comes to the `Close` after it. -/
theorem readAlike_of_long {data : Bytes} (hlen : data.length + 1 = 2 ^ 32) :
    ReadAlike host [.content (7 :: data), .close none, .content []] := by
  intro w w' hnew hsent
  obtain ⟨more, hmore⟩ : ∃ more, w'.written = [headed 1 []].flatten ++ 7 :: more := by
    refine ⟨data ++ (sent (.close none) ++ sent (.content [])), ?_⟩
    rw [(UnixSocket.sendAll_emits _).written hsent, hnew]
    simp [sent, headed, hlen]
  have hempty : UnixSocket.IsFrame host (.content []) (headed 1 []) := ⟨⟨(by decide : 0 < 2 ^ 32), Nat.zero_le _⟩, rfl⟩
  have hunix : ∀ m f t, UnixSocket.IsFrame host m f → 7 :: more ≠ f ++ t := by
    intro m f t hf heq
    cases m with
    | handshake text => cases hf.2 ▸ heq
    | content data => cases hf.2 ▸ heq
    | close reason => cases hf.2 ▸ heq
  have hssh : ∀ m f t, IsFrame host m f → 7 :: more ≠ f ++ t := by
    intro m f t hf heq
    cases m with
    | handshake text => exact hunix (.handshake text) f t hf heq
    | content data => exact hunix (.content data) f t hf heq
    | close reason =>
      obtain ⟨data, -, -, rfl⟩ := hf
      cases heq
  have hfs : List.Forall₂ (UnixSocket.IsFrame host) [.content []] [headed 1 []] := .cons hempty .nil
  have hfs' : List.Forall₂ (IsFrame host) [.content []] [headed 1 []] := .cons hempty .nil
  rw [hmore, ((decodes host).run_unique hfs' hssh).1, ((UnixSocket.decodes host).run_unique hfs hunix).1]

/-- **The transports speak the same framing exactly without a `Close`** and with payloads shorter than 2³² bytes.
    A list with a longer payload as well as a `Close` before its end is read as whatever its bytes look like; there
    the sources may agree by accident, `readAlike_of_long`, and the converse leaves it out. -/
theorem same_framing_iff (host : Host) (ms : List ConduitMessage) :
    ((∀ m ∈ ms, (m.payload.length < 2 ^ 32 ∧ m.payload.length ≤ host.isizeMax) ∧ m.isClose = false) →
        ReadAlike host ms ∧ (EndsInAtMostOneClose ms → ReadBack host ms)) ∧
      ((∀ m ∈ ms, m.payload.length < 2 ^ 32 ∧ m.payload.length ≤ host.isizeMax) ∨ EndsInAtMostOneClose ms →
        ReadAlike host ms → (EndsInAtMostOneClose ms → ReadBack host ms) →
          ∀ m ∈ ms, (m.payload.length < 2 ^ 32 ∧ m.payload.length ≤ host.isizeMax) ∧ m.isClose = false) := by
  constructor
  · intro h
    have hfits : ∀ m ∈ ms, m.Fits host := fun m hm => (h m hm).1
    have hopen : ∀ m ∈ ms, m.isClose = false := fun m hm => (h m hm).2
    exact ⟨readAlike hfits hopen, fun _ => readBack hfits hopen⟩
  · rintro (hfits | hends) halike hback m hm
    · exact ⟨hfits m hm, halike.open hfits m hm⟩
    · obtain ⟨hfits, hopen⟩ := (hback hends).fits_open hends
      exact ⟨hfits m hm, hopen m hm⟩

/-- **A single `Close` is read by the source of the Unix-socket transport, and not by this one**, whichever of
    the sinks wrote it. -/
theorem close_not_read : ¬ ReadAlike .sixtyFour [.close none] ∧ ¬ ReadBack .sixtyFour [.close none] := by
  have hfits : ∀ m ∈ [ConduitMessage.close none], m.Fits .sixtyFour := fun m hm => by
    rw [List.mem_singleton.mp hm]
    exact ConduitMessage.fits_close .sixtyFour none
  constructor
  · intro h
    cases h.open hfits _ (List.mem_singleton_self _)
  · intro h
    cases (h.fits_open nofun).2 _ (List.mem_singleton_self _)

end Ssh
end Conduit
end Wormhole
