import OpenArmTeleop.Net.Packet

/-!
# Encoding and validation

`packet_codec.cpp`. The checksum covers the bytes of the struct before its last field, in the
order they have on a little-endian host.
-/

namespace OpenArmTeleop.Net

/-! ## The checksum -/

def crcBit (crc : UInt32) : UInt32 := (crc >>> 1) ^^^ (0xEDB88320 &&& (-(crc &&& 1)))

def crcByte (crc : UInt32) (byte : UInt8) : UInt32 := crcBit^[8] (crc ^^^ byte.toUInt32)

def calculateCrc32 (data : List UInt8) : UInt32 := ~~~ (data.foldl crcByte 0xFFFFFFFF)

/-! ## The bytes of a packet -/

/-- The `n` low bytes of `x`, least significant first. -/
def littleEndian : ℕ → ℕ → List UInt8
  | 0, _ => []
  | n + 1, x => UInt8.ofNat x :: littleEndian n (x / 256)

@[simp] theorem length_littleEndian (n x : ℕ) : (littleEndian n x).length = n := by
  induction n generalizing x with
  | zero => rfl
  | succ n ih => simp [littleEndian, ih]

def doubles {n : ℕ} (xs : Vector UInt64 n) : List UInt8 :=
  xs.toList.flatMap fun x => littleEndian 8 x.toNat

@[simp] theorem length_doubles {n : ℕ} (xs : Vector UInt64 n) : (doubles xs).length = 8 * n := by
  simp [doubles, List.length_flatMap, Nat.mul_comm]

/-! ## The header -/

theorem header_iff (magic magic' : UInt32) (version version' packetSize packetSize' : UInt16)
    (crcOk : Bool) :
    (if magic ≠ magic' then false
      else if version ≠ version' then false
      else if packetSize ≠ packetSize' then false
      else crcOk) = true ↔
      magic = magic' ∧ version = version' ∧ packetSize = packetSize' ∧ crcOk = true := by
  split_ifs with hm hv hs
  · simp [hm]
  · simp [hv]
  · simp [hs]
  · simp only [not_not] at hm hv hs
    simp [hm, hv, hs]

namespace TeleopPacket

def teleopMagic : UInt32 := 0x4F415754
def teleopVersion : UInt16 := 1

def size : ℕ := 224

/-- The struct up to its checksum. -/
def body (p : TeleopPacket UInt64) : List UInt8 :=
  littleEndian 4 p.magic.toNat ++ littleEndian 2 p.version.toNat ++
    littleEndian 2 p.packetSize.toNat ++ littleEndian 4 p.seq.toNat ++
    littleEndian 8 p.sendTimeNs.toNat ++
    [p.armSide, p.mode, p.enable, p.estop, p.armDof, p.handDof, p.reserved0, p.reserved1] ++
    doubles p.armPos ++ doubles p.armVel ++ doubles p.handPos ++ doubles p.handVel

theorem length_body (p : TeleopPacket UInt64) : p.body.length + 4 = size := by
  simp [body, size]

@[simp] theorem body_crc32 (p : TeleopPacket UInt64) (crc : UInt32) :
    { p with crc32 := crc }.body = p.body := rfl

/-- `PacketCodec::encode`, at a reading of the system clock. -/
def encode (p : TeleopPacket UInt64) (systemNowNs : UInt64) : TeleopPacket UInt64 :=
  let p := { p with
    magic := teleopMagic
    version := teleopVersion
    packetSize := UInt16.ofNat size
    sendTimeNs := systemNowNs
    crc32 := 0 }
  { p with crc32 := calculateCrc32 p.body }

def decodeAndValidate (p : TeleopPacket UInt64) : Bool :=
  if p.magic ≠ teleopMagic then false
  else if p.version ≠ teleopVersion then false
  else if p.packetSize ≠ UInt16.ofNat size then false
  else calculateCrc32 { p with crc32 := 0 }.body == p.crc32

theorem decodeAndValidate_iff (p : TeleopPacket UInt64) :
    p.decodeAndValidate = true ↔
      p.magic = teleopMagic ∧ p.version = teleopVersion ∧ p.packetSize = UInt16.ofNat size ∧
        calculateCrc32 p.body = p.crc32 := by
  rw [decodeAndValidate, header_iff, body_crc32, beq_iff_eq]

/-- Whatever the fields of a packet, the encoded packet is accepted. -/
theorem decode_encode (p : TeleopPacket UInt64) (systemNowNs : UInt64) :
    (p.encode systemNowNs).decodeAndValidate = true := by
  rw [decodeAndValidate_iff]
  exact ⟨rfl, rfl, rfl, rfl⟩

end TeleopPacket

namespace FeedbackPacket

def feedbackMagic : UInt32 := 0x4246414F
def feedbackVersion : UInt16 := 1

def size : ℕ := 340

def body (p : FeedbackPacket UInt64) : List UInt8 :=
  littleEndian 4 p.magic.toNat ++ littleEndian 2 p.version.toNat ++
    littleEndian 2 p.packetSize.toNat ++ littleEndian 4 p.seq.toNat ++
    littleEndian 8 p.sendTimeNs.toNat ++
    [p.armSide, p.mode, p.enabled, p.estop, p.armDof, p.handDof, p.safetyState, p.linkOk] ++
    littleEndian 4 p.echoCmdSeq.toNat ++ littleEndian 8 p.echoCmdSendTimeNs.toNat ++
    littleEndian 8 p.cmdHoldNs.toNat ++
    doubles p.armPos ++ doubles p.armVel ++ doubles p.armTau ++
    doubles p.handPos ++ doubles p.handVel ++ doubles p.handTau

theorem length_body (p : FeedbackPacket UInt64) : p.body.length + 4 = size := by
  simp [body, size]

@[simp] theorem body_crc32 (p : FeedbackPacket UInt64) (crc : UInt32) :
    { p with crc32 := crc }.body = p.body := rfl

def encode (p : FeedbackPacket UInt64) (systemNowNs : UInt64) : FeedbackPacket UInt64 :=
  let p := { p with
    magic := feedbackMagic
    version := feedbackVersion
    packetSize := UInt16.ofNat size
    sendTimeNs := systemNowNs
    crc32 := 0 }
  { p with crc32 := calculateCrc32 p.body }

def decodeAndValidate (p : FeedbackPacket UInt64) : Bool :=
  if p.magic ≠ feedbackMagic then false
  else if p.version ≠ feedbackVersion then false
  else if p.packetSize ≠ UInt16.ofNat size then false
  else calculateCrc32 { p with crc32 := 0 }.body == p.crc32

theorem decodeAndValidate_iff (p : FeedbackPacket UInt64) :
    p.decodeAndValidate = true ↔
      p.magic = feedbackMagic ∧ p.version = feedbackVersion ∧
        p.packetSize = UInt16.ofNat size ∧ calculateCrc32 p.body = p.crc32 := by
  rw [decodeAndValidate, header_iff, body_crc32, beq_iff_eq]

theorem decode_encode (p : FeedbackPacket UInt64) (systemNowNs : UInt64) :
    (p.encode systemNowNs).decodeAndValidate = true := by
  rw [decodeAndValidate_iff]
  exact ⟨rfl, rfl, rfl, rfl⟩

end FeedbackPacket

end OpenArmTeleop.Net
