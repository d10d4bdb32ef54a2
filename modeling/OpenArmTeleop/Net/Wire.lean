import OpenArmTeleop.Lib.Crc
import OpenArmTeleop.Net.Codec

/-!
# Datagrams on the wire

The packed structs as bytes, and the receive paths of `udp_receiver.cpp` and of the feedback
callback in `wifi_bimanual_leader.cpp`.
-/

open Bytes

namespace OpenArmTeleop.Net

/-! ## Numbers in memory -/

theorem value_littleEndian (n x : ℕ) : value (littleEndian n x) = x % 256 ^ n := by
  induction n generalizing x with
  | zero => simp [littleEndian, value, Nat.mod_one]
  | succ n ih =>
    rw [littleEndian, value, ih, UInt8.toNat_ofNat']
    change x % 256 + 256 * (x / 256 % 256 ^ n) = x % 256 ^ (n + 1)
    rw [pow_succ', Nat.mod_mul]

theorem littleEndian_value (bs : List UInt8) : littleEndian bs.length (value bs) = bs := by
  apply value_inj (length_littleEndian _ _)
  rw [value_littleEndian, Nat.mod_eq_of_lt (value_lt bs)]

/-- An unsigned integer of `n` bytes, least significant first. -/
def unsigned {α : Type} (n : ℕ) (toNat : α → ℕ) (ofNat : ℕ → α) (hof : ∀ a, ofNat (toNat a) = a)
    (hlt : ∀ a, toNat a < 256 ^ n) (hto : ∀ x < 256 ^ n, toNat (ofNat x) = x) : Layout α where
  size := n
  put a := littleEndian n (toNat a)
  get bs := ofNat (value bs)
  length_put _ := length_littleEndian _ _
  get_put a := by rw [value_littleEndian, Nat.mod_eq_of_lt (hlt a), hof]
  put_get bs h := by
    subst h
    rw [hto _ (value_lt bs), littleEndian_value]

def uint16 : Layout UInt16 :=
  unsigned 2 UInt16.toNat UInt16.ofNat (fun _ => UInt16.ofNat_toNat) UInt16.toNat_lt
    fun _ h => UInt16.toNat_ofNat_of_lt' h

def uint32 : Layout UInt32 :=
  unsigned 4 UInt32.toNat UInt32.ofNat (fun _ => UInt32.ofNat_toNat) UInt32.toNat_lt
    fun _ h => UInt32.toNat_ofNat_of_lt' h

def uint64 : Layout UInt64 :=
  unsigned 8 UInt64.toNat UInt64.ofNat (fun _ => UInt64.ofNat_toNat) UInt64.toNat_lt
    fun _ h => UInt64.toNat_ofNat_of_lt' h

/-! ## The structs in memory -/

namespace TeleopPacket

/-- The fields in the order of the struct. -/
def fields :
    UInt32 × UInt16 × UInt16 × UInt32 × UInt64 ×
      UInt8 × UInt8 × UInt8 × UInt8 × UInt8 × UInt8 × UInt8 × UInt8 ×
      Vector UInt64 8 × Vector UInt64 8 × Vector UInt64 4 × Vector UInt64 4 × UInt32 ≃
    TeleopPacket UInt64 where
  toFun := fun (magic, version, packetSize, seq, sendTimeNs, armSide, mode, enable, estop, armDof,
      handDof, reserved0, reserved1, armPos, armVel, handPos, handVel, crc32) =>
    { magic, version, packetSize, seq, sendTimeNs, armSide, mode, enable, estop, armDof,
      handDof, reserved0, reserved1, armPos, armVel, handPos, handVel, crc32 }
  invFun p := (p.magic, p.version, p.packetSize, p.seq, p.sendTimeNs, p.armSide, p.mode, p.enable,
    p.estop, p.armDof, p.handDof, p.reserved0, p.reserved1, p.armPos, p.armVel, p.handPos,
    p.handVel, p.crc32)
  left_inv _ := rfl
  right_inv _ := rfl

def layout : Layout (TeleopPacket UInt64) :=
  (uint32.pair <| uint16.pair <| uint16.pair <| uint32.pair <| uint64.pair <|
    .pair .byte <| .pair .byte <| .pair .byte <| .pair .byte <| .pair .byte <| .pair .byte <|
    .pair .byte <| .pair .byte <| .pair (uint64.array 8) <| .pair (uint64.array 8) <|
    .pair (uint64.array 4) <| .pair (uint64.array 4) uint32).iso fields

theorem layout_size : layout.size = size := rfl

theorem layout_put (p : TeleopPacket UInt64) :
    layout.put p = p.body ++ littleEndian 4 p.crc32.toNat := by
  simp [layout, Layout.iso, Layout.pair, Layout.array, Layout.byte, fields, uint16, uint32, uint64,
    unsigned, body, doubles]

/-- `PacketCodec::decode_and_validate`, with what it leaves in the packet. -/
def decodeInPlace (packet : TeleopPacket UInt64) : Bool × TeleopPacket UInt64 :=
  if packet.magic ≠ teleopMagic then (false, packet)
  else if packet.version ≠ teleopVersion then (false, packet)
  else if packet.packetSize ≠ UInt16.ofNat size then (false, packet)
  else
    let receivedCrc := packet.crc32
    let packet := { packet with crc32 := 0 }
    let calculatedCrc := calculateCrc32 ((layout.put packet).take (size - 4))
    let packet := { packet with crc32 := receivedCrc }
    (calculatedCrc == receivedCrc, packet)

theorem take_put (p : TeleopPacket UInt64) : (layout.put p).take (size - 4) = p.body := by
  rw [layout_put, ← Nat.eq_sub_of_add_eq p.length_body, List.take_left]

theorem decodeInPlace_eq (p : TeleopPacket UInt64) : p.decodeInPlace = (p.decodeAndValidate, p) := by
  simp only [decodeInPlace, decodeAndValidate, take_put]
  (repeat' split) <;> rfl

/-- A packet that is accepted is what the encoder makes of it. -/
theorem encode_of_valid {p : TeleopPacket UInt64} (h : p.decodeAndValidate = true) :
    p.encode p.sendTimeNs = p := by
  obtain ⟨hmagic, hversion, hsize, hcrc⟩ := (decodeAndValidate_iff p).mp h
  simp only [encode, ← hmagic, ← hversion, ← hsize, body_crc32, hcrc]

end TeleopPacket

namespace FeedbackPacket

def fields :
    UInt32 × UInt16 × UInt16 × UInt32 × UInt64 ×
      UInt8 × UInt8 × UInt8 × UInt8 × UInt8 × UInt8 × UInt8 × UInt8 × UInt32 × UInt64 × UInt64 ×
      Vector UInt64 8 × Vector UInt64 8 × Vector UInt64 8 ×
      Vector UInt64 4 × Vector UInt64 4 × Vector UInt64 4 × UInt32 ≃
    FeedbackPacket UInt64 where
  toFun := fun (magic, version, packetSize, seq, sendTimeNs, armSide, mode, enabled, estop, armDof,
      handDof, safetyState, linkOk, echoCmdSeq, echoCmdSendTimeNs, cmdHoldNs, armPos, armVel, armTau,
      handPos, handVel, handTau, crc32) =>
    { magic, version, packetSize, seq, sendTimeNs, armSide, mode, enabled, estop, armDof,
      handDof, safetyState, linkOk, echoCmdSeq, echoCmdSendTimeNs, cmdHoldNs, armPos, armVel, armTau,
      handPos, handVel, handTau, crc32 }
  invFun p := (p.magic, p.version, p.packetSize, p.seq, p.sendTimeNs, p.armSide, p.mode, p.enabled,
    p.estop, p.armDof, p.handDof, p.safetyState, p.linkOk, p.echoCmdSeq, p.echoCmdSendTimeNs,
    p.cmdHoldNs, p.armPos, p.armVel, p.armTau, p.handPos, p.handVel, p.handTau, p.crc32)
  left_inv _ := rfl
  right_inv _ := rfl

def layout : Layout (FeedbackPacket UInt64) :=
  (uint32.pair <| uint16.pair <| uint16.pair <| uint32.pair <| uint64.pair <|
    .pair .byte <| .pair .byte <| .pair .byte <| .pair .byte <| .pair .byte <| .pair .byte <|
    .pair .byte <| .pair .byte <| uint32.pair <| uint64.pair <| uint64.pair <|
    .pair (uint64.array 8) <| .pair (uint64.array 8) <| .pair (uint64.array 8) <|
    .pair (uint64.array 4) <| .pair (uint64.array 4) <| .pair (uint64.array 4) uint32).iso fields

theorem layout_size : layout.size = size := rfl

theorem layout_put (p : FeedbackPacket UInt64) :
    layout.put p = p.body ++ littleEndian 4 p.crc32.toNat := by
  simp [layout, Layout.iso, Layout.pair, Layout.array, Layout.byte, fields, uint16, uint32, uint64,
    unsigned, body, doubles]

def decodeInPlace (packet : FeedbackPacket UInt64) : Bool × FeedbackPacket UInt64 :=
  if packet.magic ≠ feedbackMagic then (false, packet)
  else if packet.version ≠ feedbackVersion then (false, packet)
  else if packet.packetSize ≠ UInt16.ofNat size then (false, packet)
  else
    let receivedCrc := packet.crc32
    let packet := { packet with crc32 := 0 }
    let calculatedCrc := calculateCrc32 ((layout.put packet).take (size - 4))
    let packet := { packet with crc32 := receivedCrc }
    (calculatedCrc == receivedCrc, packet)

theorem take_put (p : FeedbackPacket UInt64) : (layout.put p).take (size - 4) = p.body := by
  rw [layout_put, ← Nat.eq_sub_of_add_eq p.length_body, List.take_left]

theorem decodeInPlace_eq (p : FeedbackPacket UInt64) :
    p.decodeInPlace = (p.decodeAndValidate, p) := by
  simp only [decodeInPlace, decodeAndValidate, take_put]
  (repeat' split) <;> rfl

theorem encode_of_valid {p : FeedbackPacket UInt64} (h : p.decodeAndValidate = true) :
    p.encode p.sendTimeNs = p := by
  obtain ⟨hmagic, hversion, hsize, hcrc⟩ := (decodeAndValidate_iff p).mp h
  simp only [encode, ← hmagic, ← hversion, ← hsize, body_crc32, hcrc]

end FeedbackPacket

/-! ## The receive paths -/

/-- The buffer of `receive_loop` holds 4096 bytes; the rest of a datagram is lost. -/
def recvfrom (datagram : List UInt8) : List UInt8 := datagram.take 4096

/-- The check of the size, `memcpy`, and the validation of the packet. -/
def receive {P : Type} (layout : Layout P) (decode : P → Bool × P) (datagram : List UInt8) :
    Option P :=
  let buffer := recvfrom datagram
  if buffer.length = layout.size then
    let (ok, packet) := decode (layout.get buffer)
    if ok then some packet else none
  else none

/-- `UdpReceiver::receive_loop` with a packet callback. -/
def receiveTeleop : List UInt8 → Option (TeleopPacket UInt64) :=
  receive TeleopPacket.layout TeleopPacket.decodeInPlace

/-- `make_feedback_callback`, behind a receiver of raw datagrams. -/
def receiveFeedback : List UInt8 → Option (FeedbackPacket UInt64) :=
  receive FeedbackPacket.layout FeedbackPacket.decodeInPlace

section Receive

variable {P : Type} {layout : Layout P} {decode : P → Bool × P} {valid : P → Bool}

theorem receive_iff (hsize : layout.size < 4096) (hdecode : ∀ p, decode p = (valid p, p))
    (datagram : List UInt8) (p : P) :
    receive layout decode datagram = some p ↔ datagram = layout.put p ∧ valid p = true := by
  unfold receive recvfrom
  simp only [hdecode]
  constructor
  · intro h
    split at h
    · rename_i hlen
      split at h
      · rename_i hvalid
        obtain rfl := Option.some.inj h
        have hall : datagram.take 4096 = datagram := by
          rw [List.length_take] at hlen
          exact List.take_of_length_le (by omega)
        rw [hall] at hlen hvalid ⊢
        exact ⟨(layout.put_get _ hlen).symm, hvalid⟩
      · cases h
    · cases h
  · rintro ⟨rfl, hvalid⟩
    have hall : (layout.put p).take 4096 = layout.put p :=
      List.take_of_length_le (by rw [layout.length_put]; omega)
    rw [hall, if_pos (layout.length_put p), layout.get_put, if_pos hvalid]

end Receive

theorem receiveTeleop_iff (datagram : List UInt8) (p : TeleopPacket UInt64) :
    receiveTeleop datagram = some p ↔
      datagram = TeleopPacket.layout.put p ∧ p.decodeAndValidate = true :=
  receive_iff (by decide) TeleopPacket.decodeInPlace_eq datagram p

theorem receiveFeedback_iff (datagram : List UInt8) (p : FeedbackPacket UInt64) :
    receiveFeedback datagram = some p ↔
      datagram = FeedbackPacket.layout.put p ∧ p.decodeAndValidate = true :=
  receive_iff (by decide) FeedbackPacket.decodeInPlace_eq datagram p

/-! ## Round trips -/

/-- What is encoded is delivered, what is delivered was encoded, and decoding changes nothing. -/
structure RoundTrip {P : Type} (encode : P → UInt64 → P) (put : P → List UInt8)
    (receive : List UInt8 → Option P) (decode : P → Bool × P) (sendTimeNs : P → UInt64)
    (SameData : P → P → Prop) : Prop where
  delivered : ∀ p systemNowNs,
    receive (put (encode p systemNowNs)) = some (encode p systemNowNs)
  data : ∀ p systemNowNs, SameData p (encode p systemNowNs)
  accepted : ∀ datagram p, receive datagram = some p → datagram = put (encode p (sendTimeNs p))
  unchanged : ∀ p, (decode p).2 = p

/-- The packets differ at most in what the encoder fills in. -/
def TeleopPacket.SameData (p q : TeleopPacket UInt64) : Prop :=
  { p with
    magic := q.magic
    version := q.version
    packetSize := q.packetSize
    sendTimeNs := q.sendTimeNs
    crc32 := q.crc32 } = q

def FeedbackPacket.SameData (p q : FeedbackPacket UInt64) : Prop :=
  { p with
    magic := q.magic
    version := q.version
    packetSize := q.packetSize
    sendTimeNs := q.sendTimeNs
    crc32 := q.crc32 } = q

/-- **The wire format round trips.** Each encoded packet of either format is delivered as it was
encoded, and each accepted datagram is the encoding of the packet that it delivers. -/
theorem wire_round_trip :
    RoundTrip TeleopPacket.encode TeleopPacket.layout.put receiveTeleop TeleopPacket.decodeInPlace
        (·.sendTimeNs) TeleopPacket.SameData ∧
      RoundTrip FeedbackPacket.encode FeedbackPacket.layout.put receiveFeedback
        FeedbackPacket.decodeInPlace (·.sendTimeNs) FeedbackPacket.SameData := by
  refine ⟨⟨fun p now => ?_, fun _ _ => rfl, fun datagram p h => ?_, fun p => ?_⟩,
    ⟨fun p now => ?_, fun _ _ => rfl, fun datagram p h => ?_, fun p => ?_⟩⟩
  · exact (receiveTeleop_iff _ _).mpr ⟨rfl, p.decode_encode now⟩
  · obtain ⟨rfl, hvalid⟩ := (receiveTeleop_iff _ _).mp h
    rw [TeleopPacket.encode_of_valid hvalid]
  · rw [TeleopPacket.decodeInPlace_eq]
  · exact (receiveFeedback_iff _ _).mpr ⟨rfl, p.decode_encode now⟩
  · obtain ⟨rfl, hvalid⟩ := (receiveFeedback_iff _ _).mp h
    rw [FeedbackPacket.encode_of_valid hvalid]
  · rw [FeedbackPacket.decodeInPlace_eq]

/-! ## Corruption -/

def crcPolynomial : BitVec 32 := 0xEDB88320#32

theorem crcBit_toBitVec (crc : UInt32) : (crcBit crc).toBitVec = Crc.bit crcPolynomial crc.toBitVec := by
  have hmask : ∀ x : BitVec 32, crcPolynomial &&& -(x &&& 1#32) =
      if x.getLsbD 0 then crcPolynomial else 0#32 := by
    intro x
    rw [BitVec.and_one_eq_setWidth_ofBool_getLsbD]
    cases x.getLsbD 0 <;> rfl
  unfold crcBit Crc.bit
  rw [← hmask]
  rfl

theorem crcByte_toBitVec (crc : UInt32) (b : UInt8) :
    (crcByte crc b).toBitVec = Crc.byte crcPolynomial crc.toBitVec b := by
  have hbits : ∀ n x, (crcBit^[n] x).toBitVec = (Crc.bit crcPolynomial)^[n] x.toBitVec := by
    intro n
    induction n with
    | zero => exact fun _ => rfl
    | succ n ih =>
      intro x
      rw [Function.iterate_succ_apply, Function.iterate_succ_apply, ih, crcBit_toBitVec]
  have hbyte : b.toUInt32.toBitVec = BitVec.ofNat 32 b.toNat := by
    apply BitVec.eq_of_toNat_eq
    rw [BitVec.toNat_ofNat, Nat.mod_eq_of_lt (b.toNat_lt.trans (by decide))]
    exact UInt8.toNat_toUInt32 b
  unfold crcByte Crc.byte
  rw [hbits, UInt32.toBitVec_xor, hbyte]

theorem calculateCrc32_toBitVec (data : List UInt8) :
    (calculateCrc32 data).toBitVec = ~~~ Crc.feed crcPolynomial (.allOnes 32) data := by
  have hfold : ∀ crc, (data.foldl crcByte crc).toBitVec =
      Crc.feed crcPolynomial crc.toBitVec data := by
    induction data with
    | nil => exact fun _ => rfl
    | cons b data ih =>
      intro crc
      rw [List.foldl_cons, ih, crcByte_toBitVec]
      rfl
  unfold calculateCrc32
  rw [UInt32.toBitVec_not, hfold]
  rfl

/-- What the checksum leaves in the register, whatever the packet. -/
def residue : BitVec 32 := (Crc.bit crcPolynomial)^[32] (.allOnes 32)

theorem feed_of_crc {body : List UInt8} {crc : UInt32} (h : calculateCrc32 body = crc) :
    Crc.feed crcPolynomial (.allOnes 32) (body ++ littleEndian 4 crc.toNat) = residue := by
  refine (Crc.feed_complement crcPolynomial rfl _ _ _ (by simp)).mpr ?_
  have hcrc : crc.toNat < 256 ^ 4 := crc.toNat_lt
  rw [← calculateCrc32_toBitVec, h, value_littleEndian, Nat.mod_eq_of_lt hcrc]
  exact BitVec.eq_of_toNat_eq (Nat.mod_eq_of_lt hcrc)

theorem receiveTeleop_feed {datagram : List UInt8} {p : TeleopPacket UInt64}
    (h : receiveTeleop datagram = some p) :
    Crc.feed crcPolynomial (.allOnes 32) datagram = residue := by
  obtain ⟨rfl, hvalid⟩ := (receiveTeleop_iff _ _).mp h
  rw [TeleopPacket.layout_put]
  exact feed_of_crc ((TeleopPacket.decodeAndValidate_iff p).mp hvalid).2.2.2

theorem receiveFeedback_feed {datagram : List UInt8} {p : FeedbackPacket UInt64}
    (h : receiveFeedback datagram = some p) :
    Crc.feed crcPolynomial (.allOnes 32) datagram = residue := by
  obtain ⟨rfl, hvalid⟩ := (receiveFeedback_iff _ _).mp h
  rw [FeedbackPacket.layout_put]
  exact feed_of_crc ((FeedbackPacket.decodeAndValidate_iff p).mp hvalid).2.2.2

/-- Different datagrams of the same length, with the same bytes outside four of them in a row. -/
structure Corrupted (datagram datagram' : List UInt8) : Prop where
  length : datagram'.length = datagram.length
  ne : datagram' ≠ datagram
  outside : ∃ i, ∀ j, j < i ∨ i + 4 ≤ j → datagram'[j]? = datagram[j]?

theorem Corrupted.feed_ne {datagram datagram' : List UInt8} (h : Corrupted datagram datagram')
    (crc : BitVec 32) :
    Crc.feed crcPolynomial crc datagram' ≠ Crc.feed crcPolynomial crc datagram := by
  obtain ⟨hlen, hne, i, houtside⟩ := h
  have hsplit : ∀ d : List UInt8, d = d.take i ++ (d.drop i).take 4 ++ d.drop (i + 4) := by
    intro d
    rw [List.append_assoc, ← List.drop_drop, List.take_append_drop, List.take_append_drop]
  have hbefore : datagram'.take i = datagram.take i := by
    apply List.ext_getElem?
    intro j
    rw [List.getElem?_take, List.getElem?_take]
    split
    · exact houtside j (.inl (by assumption))
    · rfl
  have hafter : datagram'.drop (i + 4) = datagram.drop (i + 4) := by
    apply List.ext_getElem?
    intro j
    rw [List.getElem?_drop, List.getElem?_drop]
    exact houtside _ (.inr (by omega))
  have hword : (datagram'.drop i).take 4 ≠ (datagram.drop i).take 4 := by
    intro hword
    refine hne ?_
    rw [hsplit datagram', hbefore, hword, hafter, ← hsplit]
  rw [hsplit datagram', hsplit datagram, hbefore, hafter]
  refine Crc.feed_burst crcPolynomial rfl crc _ _ ?_ ?_ hword
  · rw [List.length_take, List.length_take, List.length_drop, List.length_drop, hlen]
  · rw [List.length_take]
    omega

/-- **Corruption is detected.** A datagram that differs from an accepted one of the same length
only within four bytes in a row is rejected. -/
theorem corruption_detected {datagram datagram' : List UInt8} (h : Corrupted datagram datagram') :
    ((receiveTeleop datagram).isSome = true → receiveTeleop datagram' = none) ∧
      ((receiveFeedback datagram).isSome = true → receiveFeedback datagram' = none) := by
  have hne := h.feed_ne (.allOnes 32)
  constructor
  · intro hsome
    obtain ⟨p, hp⟩ := Option.isSome_iff_exists.mp hsome
    rw [Option.eq_none_iff_forall_not_mem]
    intro q hq
    exact hne ((receiveTeleop_feed hq).trans (receiveTeleop_feed hp).symm)
  · intro hsome
    obtain ⟨p, hp⟩ := Option.isSome_iff_exists.mp hsome
    rw [Option.eq_none_iff_forall_not_mem]
    intro q hq
    exact hne ((receiveFeedback_feed hq).trans (receiveFeedback_feed hp).symm)

theorem corrupted_set {datagram : List UInt8} {i : ℕ} {b : UInt8} (hi : i < datagram.length)
    (hne : datagram[i]? ≠ some b) : Corrupted datagram (datagram.set i b) := by
  refine ⟨List.length_set, fun h => hne ?_, i, fun j hj => ?_⟩
  · rw [← h, List.getElem?_set_self hi]
  · exact List.getElem?_set_ne (by omega)

/-- A byte of the checksum, in a packet of each format. -/
theorem corruption_detected_checksum :
    ∃ command feedback : List UInt8,
      (receiveTeleop command).isSome = true ∧ receiveTeleop (command.set 222 0) = none ∧
        (receiveFeedback feedback).isSome = true ∧ receiveFeedback (feedback.set 338 0) = none := by
  have hcommand : (receiveTeleop (TeleopPacket.layout.put (TeleopPacket.zero.encode 1))).isSome = true := by
    rw [(receiveTeleop_iff _ _).mpr ⟨rfl, TeleopPacket.zero.decode_encode 1⟩]
    rfl
  have hfeedback :
      (receiveFeedback (FeedbackPacket.layout.put (FeedbackPacket.zero.encode 1))).isSome = true := by
    rw [(receiveFeedback_iff _ _).mpr ⟨rfl, FeedbackPacket.zero.decode_encode 1⟩]
    rfl
  exact ⟨_, _, hcommand,
    (corruption_detected (corrupted_set (by decide +kernel) (by decide +kernel))).1 hcommand,
    hfeedback,
    (corruption_detected (corrupted_set (by decide +kernel) (by decide +kernel))).2 hfeedback⟩

end OpenArmTeleop.Net
