import OpenArmTeleop.Lib.Num
import OpenArmTeleop.Net.Packet

/-!
# The bilateral gate

`bilateral_gate.cpp`, with what `wifi_bimanual_leader.cpp` and `wifi_bimanual_follower.cpp` do
around it.
-/

open Num OpenArmTeleop.Net

namespace OpenArmTeleop.Safety

/-! ## The link -/

structure LinkInfo where
  resolved : Bool := false
  ifname : String := ""
  isLoopback : Bool := false
  isWireless : Bool := false
  hasDevice : Bool := false
  carrier : Bool := false
  speedMbps : ℤ := -1
  error : String := ""

structure BilateralGateConfig where
  requireWired : Bool := true
  allowLoopback : Bool := false
  minLinkSpeedMbps : ℤ := 100
  minFeedbackRateHz : Double := 400.0
  maxFeedbackAgeMs : Double := 20.0
  maxRttP95Ms : Double := 8.0
  maxLossPercent : Double := 1.0
  requireFollowerLinkOk : Bool := true

structure BilateralGateResult where
  ok : Bool := false
  reasons : List String := []

/-- The reason that a failed check adds. -/
def reason (failed : Bool) (text : String) : List String := if failed then [text] else []

def BilateralGateConfig.checkLink (config : BilateralGateConfig) (link : LinkInfo) :
    BilateralGateResult :=
  if !link.resolved then { ok := false, reasons := ["link unresolved: " ++ link.error] }
  else
    let reasons :=
      if link.isLoopback then
        reason (!config.allowLoopback) "peer is reached over loopback (set AllowLoopback for tests)"
      else if config.requireWired then
        reason link.isWireless ("interface " ++ link.ifname ++ " is wireless") ++
        reason (!link.hasDevice)
          ("interface " ++ link.ifname ++ " is virtual (no physical device)") ++
        reason (!link.carrier) ("interface " ++ link.ifname ++ " has no carrier") ++
        reason (link.speedMbps < config.minLinkSpeedMbps)
          ("interface " ++ link.ifname ++ " speed " ++ toString link.speedMbps ++ " Mbps < " ++
            toString config.minLinkSpeedMbps ++ " Mbps")
      else []
    { ok := reasons.isEmpty, reasons := reasons }

/-- `refresh_link` of the leader. -/
def BilateralGateConfig.refreshLink (config : BilateralGateConfig) (peerIp : String)
    (queryLinkTo : String → LinkInfo) : LinkInfo × BilateralGateResult :=
  let link : LinkInfo :=
    if peerIp.isEmpty then { error := "BilateralLink.PeerIp is not set" } else queryLinkTo peerIp
  (link, config.checkLink link)

/-! ## The follower's side -/

structure FeedbackSettings where
  requireWired : Bool := true
  allowLoopback : Bool := false
  minLinkSpeedMbps : ℤ := 100

def followerLinkOk (fs : FeedbackSettings) (info : LinkInfo) : Bool :=
  if !info.resolved then false
  else if info.isLoopback then fs.allowLoopback
  else if !fs.requireWired then true
  else !info.isWireless && info.hasDevice && info.carrier &&
    decide (fs.minLinkSpeedMbps ≤ info.speedMbps)

/-- What `fill_feedback` writes about the link. -/
def reportLink {F : Type} (fs : FeedbackSettings) (info : LinkInfo) (fb : FeedbackPacket F) :
    FeedbackPacket F :=
  { fb with linkOk := if followerLinkOk fs info then 1 else 0 }

/-! ## The feedback -/

/-- The statistics of a feedback buffer that the gate reads. -/
structure Stats where
  hasData : Bool := false
  ageMs : Double := -1.0
  rateHz : Double := 0.0
  lossPercent : Double := 0.0
  rttP95Ms : Double := -1.0

section Check

variable {F : Type}

def BilateralGateConfig.checkFeedback (config : BilateralGateConfig) (armName : String)
    (s : Stats) (latest : Option (FeedbackPacket F)) : BilateralGateResult :=
  match s.hasData, latest with
  | false, _ | _, none => { ok := false, reasons := [armName ++ ": no feedback received"] }
  | true, some latest =>
    let reasons :=
      reason (config.maxFeedbackAgeMs < s.ageMs)
        (armName ++ ": feedback age " ++ s.ageMs.fixed2 ++ " ms > " ++
          config.maxFeedbackAgeMs.fixed2) ++
      reason (s.rateHz < config.minFeedbackRateHz)
        (armName ++ ": feedback rate " ++ s.rateHz.fixed2 ++ " Hz < " ++
          config.minFeedbackRateHz.fixed2) ++
      (if s.rttP95Ms < 0 then
        [armName ++ ": no round-trip samples (follower not echoing commands)"]
      else
        reason (config.maxRttP95Ms < s.rttP95Ms)
          (armName ++ ": rtt p95 " ++ s.rttP95Ms.fixed2 ++ " ms > " ++
            config.maxRttP95Ms.fixed2)) ++
      reason (config.maxLossPercent < s.lossPercent)
        (armName ++ ": loss " ++ s.lossPercent.fixed2 ++ " % > " ++ config.maxLossPercent.fixed2) ++
      reason (config.requireFollowerLinkOk && latest.linkOk == 0)
        (armName ++ ": follower reports its own link is not wired/fast enough") ++
      reason (latest.estop != 0) (armName ++ ": follower in ESTOP")
    { ok := reasons.isEmpty, reasons := reasons }

/-- `evaluate_gate` of the leader, with the stored result of its link check. -/
def evaluateGate (feedbackEnabled : Bool) (config : BilateralGateConfig)
    (linkResult : BilateralGateResult) (stats : ArmSide → Stats)
    (latest : ArmSide → Option (FeedbackPacket F)) : BilateralGateResult :=
  if !feedbackEnabled then
    { reasons := ["BilateralFeedback.Enabled is false in config/leader.yaml"] }
  else
    let rr := config.checkFeedback "right" (stats .right) (latest .right)
    let rl := config.checkFeedback "left" (stats .left) (latest .left)
    let reasons := linkResult.reasons ++ rr.reasons ++ rl.reasons
    { ok := reasons.isEmpty, reasons := reasons }

end Check

/-! ## What the gate checks -/

/-- A link that either end accepts. -/
@[mk_iff]
structure LinkOk (requireWired allowLoopback : Bool) (minLinkSpeedMbps : ℤ) (link : LinkInfo) :
    Prop where
  resolved : link.resolved = true
  loopback : link.isLoopback = true → allowLoopback = true
  wired : link.isLoopback = false → requireWired = true →
    link.isWireless = false ∧ link.hasDevice = true ∧ link.carrier = true ∧
      minLinkSpeedMbps ≤ link.speedMbps

/-- The statistics are within the limits. -/
@[mk_iff]
structure StatsOk (config : BilateralGateConfig) (s : Stats) : Prop where
  data : s.hasData = true
  age : s.ageMs.AtMost config.maxFeedbackAgeMs
  rate : config.minFeedbackRateHz.AtMost s.rateHz
  sample : Double.AtMost 0 s.rttP95Ms
  rtt : s.rttP95Ms.AtMost config.maxRttP95Ms
  loss : s.lossPercent.AtMost config.maxLossPercent

@[simp] theorem reason_eq_nil (failed : Bool) (text : String) :
    reason failed text = [] ↔ failed = false := by
  unfold reason
  split <;> simp_all

theorem checkLink_reasons (config : BilateralGateConfig) (link : LinkInfo) :
    (config.checkLink link).reasons = [] ↔
      LinkOk config.requireWired config.allowLoopback config.minLinkSpeedMbps link := by
  rw [linkOk_iff]
  unfold BilateralGateConfig.checkLink
  cases hresolved : link.resolved with
  | false => simp
  | true =>
    cases hloopback : link.isLoopback with
    | true => simp
    | false =>
      cases hwired : config.requireWired with
      | false => simp
      | true => simp

/-- The follower's copy of the check accepts the same links. -/
theorem followerLinkOk_iff (fs : FeedbackSettings) (info : LinkInfo) :
    followerLinkOk fs info = true ↔
      LinkOk fs.requireWired fs.allowLoopback fs.minLinkSpeedMbps info := by
  rw [linkOk_iff]
  unfold followerLinkOk
  cases hresolved : info.resolved with
  | false => simp
  | true =>
    cases hloopback : info.isLoopback with
    | true => simp
    | false =>
      cases hwired : fs.requireWired with
      | false => simp
      | true => simp [and_assoc]

section Check

variable {F : Type}

theorem reportLink_linkOk (fs : FeedbackSettings) (info : LinkInfo) (fb : FeedbackPacket F) :
    (reportLink fs info fb).linkOk = 0 ↔ ¬ followerLinkOk fs info = true := by
  unfold reportLink
  split <;> simp_all

theorem checkFeedback_reasons (config : BilateralGateConfig) (armName : String) (s : Stats)
    (latest : Option (FeedbackPacket F)) :
    (config.checkFeedback armName s latest).reasons = [] ↔
      StatsOk config s ∧ ∃ fb, latest = some fb ∧ fb.estop = 0 ∧
        (config.requireFollowerLinkOk = true → fb.linkOk ≠ 0) := by
  rw [statsOk_iff]
  unfold BilateralGateConfig.checkFeedback
  cases hdata : s.hasData with
  | false => simp
  | true =>
    cases latest with
    | none => simp
    | some fb =>
      have hrtt : ∀ missing high : String,
          (if s.rttP95Ms < 0 then [missing]
            else reason (decide (config.maxRttP95Ms < s.rttP95Ms)) high) = [] ↔
            ¬ s.rttP95Ms < 0 ∧ ¬ config.maxRttP95Ms < s.rttP95Ms := by
        intro missing high
        split <;> simp_all
      simp only [List.append_eq_nil_iff, reason_eq_nil, hrtt, Double.atMost_iff,
        decide_eq_false_iff_not, bne_eq_false_iff_eq, Bool.and_eq_false_imp, beq_eq_false_iff_ne,
        Option.some.injEq, exists_eq_left', true_and, ne_eq]
      tauto

/-- An arm whose feedback lets the gate open, when its follower reports on the link `info`. -/
structure ArmOk (config : BilateralGateConfig) (fs : FeedbackSettings) (info : LinkInfo)
    (s : Stats) (latest : Option (FeedbackPacket F)) : Prop where
  stats : StatsOk config s
  received : latest.isSome = true
  estop : ∀ fb ∈ latest, fb.estop = 0
  link : config.requireFollowerLinkOk = true →
    LinkOk fs.requireWired fs.allowLoopback fs.minLinkSpeedMbps info

theorem armOk_iff (config : BilateralGateConfig) (fs : FeedbackSettings) (armName : String)
    (info : LinkInfo) (s : Stats) (latest : Option (FeedbackPacket F)) :
    (config.checkFeedback armName s (latest.map (reportLink fs info))).reasons = [] ↔
      ArmOk config fs info s latest := by
  rw [checkFeedback_reasons]
  constructor
  · rintro ⟨hs, fb', hfb, hestop, hlink⟩
    obtain ⟨fb, rfl, rfl⟩ := Option.map_eq_some_iff.mp hfb
    refine ⟨hs, rfl, ?_, fun hreq => ?_⟩
    · rintro _ ⟨⟩
      exact hestop
    · have hok := hlink hreq
      rw [Ne, reportLink_linkOk, not_not] at hok
      exact (followerLinkOk_iff fs info).mp hok
  · rintro ⟨hs, hreceived, hestop, hlink⟩
    obtain ⟨fb, rfl⟩ := Option.isSome_iff_exists.mp hreceived
    refine ⟨hs, _, rfl, hestop fb rfl, fun hreq => ?_⟩
    rw [Ne, reportLink_linkOk, not_not]
    exact (followerLinkOk_iff fs info).mpr (hlink hreq)

theorem evaluateGate_reasons (feedbackEnabled : Bool) (config : BilateralGateConfig)
    (linkResult : BilateralGateResult) (stats : ArmSide → Stats)
    (latest : ArmSide → Option (FeedbackPacket F)) :
    (evaluateGate feedbackEnabled config linkResult stats latest).reasons = [] ↔
      feedbackEnabled = true ∧ linkResult.reasons = [] ∧
        (config.checkFeedback "right" (stats .right) (latest .right)).reasons = [] ∧
        (config.checkFeedback "left" (stats .left) (latest .left)).reasons = [] := by
  unfold evaluateGate
  cases feedbackEnabled <;> simp

theorem evaluateGate_ok (feedbackEnabled : Bool) (config : BilateralGateConfig)
    (linkResult : BilateralGateResult) (stats : ArmSide → Stats)
    (latest : ArmSide → Option (FeedbackPacket F)) :
    (evaluateGate feedbackEnabled config linkResult stats latest).ok = true ↔
      (evaluateGate feedbackEnabled config linkResult stats latest).reasons = [] := by
  unfold evaluateGate
  cases feedbackEnabled <;> simp

/-- **The gate is exact on both ends.** It opens exactly when feedback is enabled, the leader
accepts its link, and for each arm the statistics are within the limits, the follower is not in
estop and accepts its own link; and it opens exactly when it gives no reason. -/
theorem gate_exact (feedbackEnabled : Bool) (config : BilateralGateConfig)
    (fs : FeedbackSettings) (peerIp : String) (queryLinkTo : String → LinkInfo)
    (info : ArmSide → LinkInfo) (stats : ArmSide → Stats)
    (latest : ArmSide → Option (FeedbackPacket F)) :
    let refreshed := config.refreshLink peerIp queryLinkTo
    let gate := evaluateGate feedbackEnabled config refreshed.2 stats
      fun a => (latest a).map (reportLink fs (info a))
    (gate.ok = true ↔ feedbackEnabled = true ∧
      LinkOk config.requireWired config.allowLoopback config.minLinkSpeedMbps refreshed.1 ∧
      ∀ a, ArmOk config fs (info a) (stats a) (latest a)) ∧
    (gate.ok = true ↔ gate.reasons = []) := by
  intro refreshed gate
  have hok : gate.ok = true ↔ gate.reasons = [] := evaluateGate_ok _ _ _ _ _
  refine ⟨?_, hok⟩
  have hlink : refreshed.2.reasons = [] ↔
      LinkOk config.requireWired config.allowLoopback config.minLinkSpeedMbps refreshed.1 :=
    checkLink_reasons config refreshed.1
  rw [hok, evaluateGate_reasons, hlink, armOk_iff, armOk_iff]
  constructor
  · rintro ⟨henabled, hl, hright, hleft⟩
    refine ⟨henabled, hl, fun a => ?_⟩
    cases a with
    | right => exact hright
    | left => exact hleft
  · rintro ⟨henabled, hl, harms⟩
    exact ⟨henabled, hl, harms .right, harms .left⟩

/-- A limit that is no number lets feedback of any age through. -/
theorem gate_without_limit :
    ∃ (config : BilateralGateConfig) (stats : ArmSide → Stats)
      (latest : ArmSide → Option (FeedbackPacket Double)),
      (evaluateGate true config (config.checkLink { resolved := true, isLoopback := true }) stats
        latest).ok = true ∧ ∀ a, ¬ (stats a).ageMs ≤ config.maxFeedbackAgeMs :=
  ⟨{ allowLoopback := true, maxFeedbackAgeMs := .nan },
    fun _ => { hasData := true, ageMs := 1000.0, rateHz := 500.0, rttP95Ms := 2.0 },
    fun _ => some { FeedbackPacket.zero with linkOk := 1 }, by decide +kernel,
    fun _ => Double.not_le_nan _⟩

end Check

end OpenArmTeleop.Safety
