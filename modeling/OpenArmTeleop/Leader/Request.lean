import OpenArmTeleop.Leader.Align

/-!
# A bilateral request needs an enabled leader

What the handlers and the periodic gate do to `bilateral_requested` and `command_enabled`.
-/

open Num Run OpenArmTeleop.Net OpenArmTeleop.Core OpenArmTeleop.Control OpenArmTeleop.Controller

namespace OpenArmTeleop.Leader

/-! ## What decides about the request -/

inductive RequestEvent
  | received (c : Command)
  /-- The handler of `bilateral_enable` has evaluated the gate. -/
  | gate (ok : Bool)
  | set (requested : Bool)
  /-- The control loop has evaluated the gate. -/
  | periodic (ok : Bool)
  deriving DecidableEq

def mark (cfg : Config) (s : State) : Action → Option RequestEvent
  | .receive c => some (.received c)
  | .control gateOk =>
    match s.control with
    | .checkGate :: _ => some (.gate (cfg.bi.feedbackEnabled && gateOk))
    | .setBilateral b :: _ => some (.set b)
    | _ => none
  | .loop env => if s.loop.pc = .checkGate then some (.periodic !env.gateFails) else none
  | _ => none

def RequestEvent.isReceived : RequestEvent → Bool
  | .received _ => true
  | _ => false

/-- After it the leader is unilateral. -/
def RequestEvent.drops : RequestEvent → Bool
  | .received c => c = .disable ∨ c = .estop ∨ c = .shutdown ∨ c = .bilateralDisable
  | .periodic ok => !ok
  | _ => false

/-- A running `bilateral_enable` has passed the gate. -/
def Granted (h : List RequestEvent) : Prop :=
  Since (· = .gate true) (·.isReceived) h ∧ Since (· = .received .bilateralEnable) (·.isReceived) h

/-- Only a granted command sets the request. -/
def SetGranted (e : RequestEvent) (h : List RequestEvent) : Prop := e = .set true → Granted h

/-- A handler or the loop is about to drop the request. -/
def Dropping (s : State) : Prop := s.loop.pc = .dropBilateral ∨ .setBilateral false ∈ s.control

/-- A request comes from an enabled leader, and nothing has dropped it since. -/
def RequestEnabled (s : State) (h : List RequestEvent) : Prop :=
  s.bilateralRequested = true → ¬ Dropping s →
    s.commandEnabled = true ∧ Since (· = .set true) (·.drops) h

instance (s : State) : Decidable (Dropping s) := inferInstanceAs (Decidable (_ ∨ _))

instance (s : State) (h : List RequestEvent) : Decidable (RequestEnabled s h) :=
  inferInstanceAs (Decidable (_ → _ → _ ∧ _))

/-- A shutdown comes when nothing is requested, or the loop is about to drop the request. -/
def ShutsDownUnilateral (s : State) (_ : List RequestEvent) : Action → Prop
  | .receive c => c = .shutdown → s.bilateralRequested = true → s.loop.pc = .dropBilateral
  | _ => True

instance (s : State) (h : List RequestEvent) (act : Action) :
    Decidable (ShutsDownUnilateral s h act) :=
  match act with
  | .receive _ => inferInstanceAs (Decidable (_ → _ → _))
  | .control _ | .sigint | .feedback .. | .motion .. | .loop _ => isTrue trivial

/-! ## Steps -/

/-- What a handler has left to do after an access. -/
def Leaves (c : Command) : Access → List Access → Prop
  | .checkEnabled, rest => rest = [.checkGate, .setBilateral true]
  | .checkGate, rest => rest = [.setBilateral true]
  | .setEnabled false, rest =>
    .setBilateral true ∉ rest ∧ (.setBilateral false ∈ rest ∨ rest = [.stop])
  | .setBilateral true, rest => c = .bilateralEnable ∧ rest = []
  | _, rest => .setBilateral true ∉ rest

theorem handler_leaves {c : Command} {x : Access} {rest : List Access} (h : x :: rest <:+ handler c) :
    Leaves c x rest ∧ rest ≠ [.setEnabled false, .stop] := by
  cases c with
  | gotoPose values =>
    simp only [handler] at h
    split at h
    · simp only [List.suffix_cons_iff, List.cons.injEq, List.suffix_nil] at h
      rcases h with ⟨rfl, rfl⟩ | ⟨rfl, rfl⟩ | h
      · simp [Leaves]
      · simp [Leaves]
      · cases h
    · simp at h
  | enable | bilateralDisable | initPosition =>
    simp only [handler, List.suffix_cons_iff, List.cons.injEq, List.suffix_nil] at h
    rcases h with ⟨rfl, rfl⟩ | h
    · simp [Leaves]
    · cases h
  | disable | shutdown =>
    simp only [handler, List.suffix_cons_iff, List.cons.injEq, List.suffix_nil] at h
    rcases h with ⟨rfl, rfl⟩ | ⟨rfl, rfl⟩ | h
    · simp [Leaves]
    · simp [Leaves]
    · cases h
  | bilateralEnable | estop =>
    simp only [handler, List.suffix_cons_iff, List.cons.injEq, List.suffix_nil] at h
    rcases h with ⟨rfl, rfl⟩ | ⟨rfl, rfl⟩ | ⟨rfl, rfl⟩ | h
    · simp [Leaves]
    · simp [Leaves]
    · simp [Leaves]
    · cases h

section Machine

variable [Rounding]

theorem loopStep_request (cfg : Config) (s : State) (env : Env) :
    (loopStep cfg s env).1.control = s.control ∧
      (loopStep cfg s env).1.commandEnabled = s.commandEnabled ∧
      (loopStep cfg s env).1.bilateralRequested =
        (decide (s.loop.pc ≠ .dropBilateral) && s.bilateralRequested) ∧
      ((loopStep cfg s env).1.loop.pc = .dropBilateral ↔
        s.loop.pc = .checkGate ∧ env.gateFails = true) := by
  cases hpc : s.loop.pc <;> simp only [loopStep, hpc, afterGoto] <;> (repeat' split) <;>
    simp_all [State.goto, State.setRobot]

theorem motionStep_request {s : State} {a : ArmSide} {measured : Measured Double} {s' : State}
    {e : Option Event} (h : s.motionStep a measured = some (s', e)) :
    s'.control = s.control ∧ s'.commandEnabled = s.commandEnabled ∧
      s'.bilateralRequested = s.bilateralRequested ∧ s'.loop = s.loop := by
  simp only [State.motionStep] at h
  (repeat' split at h) <;> cases h <;> exact ⟨rfl, rfl, rfl, rfl⟩

end Machine

/-! ## The invariant -/

structure RequestInv (s : State) (h : List RequestEvent) : Prop where
  request : RequestEnabled s h
  handler : s.control ≠ [] →
    ∃ c, s.control <:+ handler c ∧ Since (· = .received c) (·.isReceived) h
  enabled : .setBilateral true ∈ s.control → .checkEnabled ∉ s.control → s.commandEnabled = true
  gate : .setBilateral true ∈ s.control → .checkGate ∉ s.control →
    Since (· = .gate true) (·.isReceived) h
  shutdown : s.control = [.setEnabled false, .stop] → s.bilateralRequested = true →
    s.loop.pc = .dropBilateral

/-- Nothing has happened to the request. -/
theorem RequestEnabled.keep {s s' : State} {h : List RequestEvent} (hr : RequestEnabled s h)
    (e : Option RequestEvent) (hrequested : s'.bilateralRequested = s.bilateralRequested)
    (henabled : s.commandEnabled = true → s'.commandEnabled = true)
    (hdropping : Dropping s → Dropping s') (he : ∀ x, e = some x → x.drops = false) :
    RequestEnabled s' (e.toList ++ h) := by
  intro hreq hnot
  obtain ⟨hcmd, hsince⟩ := hr (hrequested ▸ hreq) fun hd => hnot (hdropping hd)
  refine ⟨henabled hcmd, hsince.append e fun x hx => ?_⟩
  simp [he x hx]

theorem requestInv_idle {s : State} {h : List RequestEvent} (hr : RequestEnabled s h)
    (hc : s.control = []) : RequestInv s h := by
  refine ⟨hr, fun hne => absurd hc hne, ?_, ?_, ?_⟩ <;> simp [hc]

/-- The handler goes on with the rest of its accesses. -/
theorem RequestInv.rest {s s' : State} {h : List RequestEvent} (hI : RequestInv s h)
    {x : Access} {rest : List Access} (hc : s.control = x :: rest) (hc' : s'.control = rest)
    (e : Option RequestEvent) (he : ∀ y, e = some y → y.isReceived = false)
    (hr : RequestEnabled s' (e.toList ++ h))
    (henabled : .setBilateral true ∈ rest → .checkEnabled ∉ rest → s'.commandEnabled = true)
    (hgate : .setBilateral true ∈ rest → .checkGate ∉ rest →
      Since (· = .gate true) (·.isReceived) (e.toList ++ h)) :
    RequestInv s' (e.toList ++ h) := by
  obtain ⟨c, hsuffix, hsince⟩ := hI.handler (by simp [hc])
  rw [hc] at hsuffix
  refine ⟨hr, fun _ => ⟨c, ?_, hsince.append e fun y hy => by simp [he y hy]⟩, ?_, ?_, ?_⟩ <;>
    rw [hc']
  · exact (List.suffix_cons x rest).trans hsuffix
  · exact henabled
  · exact hgate
  · exact fun hrest => absurd hrest (handler_leaves hsuffix).2

/-- What is left of the handler does not set the request. -/
theorem RequestInv.restUnset {s s' : State} {h : List RequestEvent} (hI : RequestInv s h)
    {x : Access} {rest : List Access} (hc : s.control = x :: rest) (hc' : s'.control = rest)
    (hunset : .setBilateral true ∉ rest) (e : Option RequestEvent)
    (he : ∀ y, e = some y → y.isReceived = false) (hr : RequestEnabled s' (e.toList ++ h)) :
    RequestInv s' (e.toList ++ h) :=
  hI.rest hc hc' e he hr (fun hmem => absurd hmem hunset) fun hmem => absurd hmem hunset

theorem requestInv_control (cfg : Config) {s : State} {h : List RequestEvent}
    (hI : RequestInv s h) {x : Access} {rest : List Access} (hc : s.control = x :: rest)
    (gateOk : Bool) :
    RequestInv ({ s with control := rest }.access cfg gateOk x)
      ((mark cfg s (.control gateOk)).toList ++ h) := by
  obtain ⟨c, hsuffix, hsince⟩ := hI.handler (by simp [hc])
  rw [hc] at hsuffix
  obtain ⟨hleaves, -⟩ := handler_leaves hsuffix
  cases x with
  | checkEnabled =>
    obtain rfl : rest = [.checkGate, .setBilateral true] := hleaves
    simp only [State.access, mark, hc]
    split
    · rename_i hcmd
      refine hI.rest hc rfl none (by simp) (hI.request.keep none rfl id ?_ (by simp)) ?_ ?_
      · simp [Dropping, hc]
      · exact fun _ _ => hcmd
      · simp
    · refine requestInv_idle (hI.request.keep none rfl id ?_ (by simp)) rfl
      simp [Dropping, hc]
  | checkGate =>
    obtain rfl : rest = [.setBilateral true] := hleaves
    simp only [State.access, mark, hc]
    split
    · rename_i hok
      refine hI.rest hc rfl _ (by simp [RequestEvent.isReceived])
        (hI.request.keep _ rfl id ?_ ?_) ?_ ?_
      · simp [Dropping, hc]
      · simp [RequestEvent.drops]
      · exact fun _ _ => hI.enabled (by simp [hc]) (by simp [hc])
      · exact fun _ _ => .inl (by simp [hok])
    · refine requestInv_idle (hI.request.keep _ rfl id ?_ ?_) rfl
      · simp [Dropping, hc]
      · simp [RequestEvent.drops]
  | setBilateral b =>
    simp only [State.access, mark, hc]
    cases b with
    | false =>
      refine hI.restUnset hc rfl hleaves _ (by simp [RequestEvent.isReceived]) fun hreq => ?_
      cases hreq
    | true =>
      obtain ⟨rfl, rfl⟩ : c = .bilateralEnable ∧ rest = [] := hleaves
      have hcmd := hI.enabled (by simp [hc]) (by simp [hc])
      exact requestInv_idle (fun _ _ => ⟨hcmd, .inl rfl⟩) rfl
  | setEnabled b =>
    simp only [State.access, mark, hc]
    cases b with
    | true =>
      refine hI.restUnset hc rfl hleaves none (by simp) ?_
      exact hI.request.keep none rfl (fun _ => rfl) (by simp [Dropping, hc]) (by simp)
    | false =>
      obtain ⟨hunset, hdrop⟩ := hleaves
      -- the command is disabled, so the request has to be on its way out
      refine hI.restUnset hc rfl hunset none (by simp) fun hreq hnot => ?_
      rcases hdrop with hmem | rfl
      · exact absurd (.inr hmem) hnot
      · exact absurd (.inl (hI.shutdown hc hreq)) hnot
  | requestInit | storeTarget | requestGoto | stop =>
    simp only [State.access, mark, hc]
    refine hI.restUnset hc rfl hleaves none (by simp) ?_
    exact hI.request.keep none rfl id (by simp [Dropping, hc]) (by simp)

theorem requestInv_receive {s : State} {h : List RequestEvent} (hI : RequestInv s h) {c : Command}
    (hidle : s.control = []) (hok : ShutsDownUnilateral s h (.receive c)) :
    RequestInv { s with control := handler c } (.received c :: h) := by
  refine ⟨fun hreq hnot => ?_, fun _ => ⟨c, List.suffix_refl _, .inl rfl⟩, ?_, ?_, ?_⟩
  · have hold : ¬ Dropping s := fun hd => by
      rcases hd with hpc | hmem
      · exact hnot (.inl hpc)
      · simp [hidle] at hmem
    obtain ⟨hcmd, hsince⟩ := hI.request hreq hold
    refine ⟨hcmd, .inr ⟨?_, hsince⟩⟩
    cases c with
    | shutdown => exact absurd (.inl (hok rfl hreq)) hold
    | disable | bilateralDisable | estop => exact absurd (.inr (by simp [handler])) hnot
    | _ => simp [RequestEvent.drops]
  · cases c with
    | gotoPose values =>
      simp only [handler]
      split <;> simp
    | _ => simp [handler]
  · cases c with
    | gotoPose values =>
      simp only [handler]
      split <;> simp
    | _ => simp [handler]
  · intro hc hreq
    cases c with
    | shutdown => exact hok rfl hreq
    | gotoPose values =>
      simp only [handler] at hc
      split at hc <;> simp at hc
    | _ => simp [handler] at hc

theorem requestInv_same {s s' : State} {h : List RequestEvent} (hI : RequestInv s h)
    (hcontrol : s'.control = s.control) (henabled : s'.commandEnabled = s.commandEnabled)
    (hrequested : s'.bilateralRequested = s.bilateralRequested) (hloop : s'.loop = s.loop) :
    RequestInv s' h := by
  obtain ⟨hrequest, hhandler, hcmd, hgate, hshutdown⟩ := hI
  refine ⟨?_, ?_, ?_, ?_, ?_⟩
  · unfold RequestEnabled Dropping at hrequest ⊢
    rwa [hcontrol, henabled, hrequested, hloop]
  · rwa [hcontrol]
  · rwa [hcontrol, henabled]
  · rwa [hcontrol]
  · rwa [hcontrol, hrequested, hloop]

/-- Only the handler of `bilateral_enable` sets the request. -/
theorem RequestInv.granted {s : State} {h : List RequestEvent} (hI : RequestInv s h)
    (cfg : Config) {act : Action} (hset : mark cfg s act = some (.set true)) : Granted h := by
  cases act with
  | control gateOk =>
    simp only [mark] at hset
    split at hset
    · cases hset
    · rename_i b rest hc
      obtain rfl : b = true := RequestEvent.set.inj (Option.some.inj hset)
      obtain ⟨c, hsuffix, hsince⟩ := hI.handler (by simp [hc])
      rw [hc] at hsuffix
      obtain ⟨rfl, rfl⟩ : c = .bilateralEnable ∧ rest = [] := (handler_leaves hsuffix).1
      exact ⟨hI.gate (by simp [hc]) (by simp [hc]), hsince⟩
    · cases hset
  | loop env =>
    simp only [mark] at hset
    split at hset <;> cases hset
  | receive c => cases hset
  | sigint | feedback | motion => cases hset

/-! ## Runs -/

section Machine

variable [Rounding]

def requests (cfg : Config) : Machine State Action RequestEvent :=
  (machine cfg).relabel (mark cfg)

theorem requestInv_start (cfg : Config) : RequestInv (State.start cfg) [] :=
  ⟨nofun, fun h => absurd rfl h, nofun, nofun, nofun⟩

theorem requestInv_loop (cfg : Config) {s : State} {h : List RequestEvent} (hI : RequestInv s h)
    (env : Env) :
    RequestInv (loopStep cfg s env).1 ((mark cfg s (.loop env)).toList ++ h) := by
  obtain ⟨hcontrol, henabled, hrequested, hpc⟩ := loopStep_request cfg s env
  have hreceived : ∀ x, mark cfg s (.loop env) = some x → x.isReceived = false := by
    intro x hx
    simp only [mark] at hx
    split at hx <;> cases hx
    rfl
  refine ⟨fun hreq hnot => ?_, fun hne => ?_, ?_, ?_, fun hc hreq => ?_⟩
  · rw [hrequested, Bool.and_eq_true, decide_eq_true_eq] at hreq
    have hold : ¬ Dropping s := fun hd => by
      rcases hd with hd | hd
      · exact hreq.1 hd
      · exact hnot (.inr (hcontrol ▸ hd))
    obtain ⟨hcmd, hsince⟩ := hI.request hreq.2 hold
    refine ⟨henabled ▸ hcmd, hsince.append _ fun x hx => ?_⟩
    simp only [mark] at hx
    split at hx
    · rename_i hgate
      cases hx
      -- a gate that fails leads to the drop
      have hpass : env.gateFails = false := by
        by_contra hfail
        exact hnot (.inl (hpc.mpr ⟨hgate, by simpa using hfail⟩))
      simp [RequestEvent.drops, hpass]
    · cases hx
  · obtain ⟨c, hsuffix, hsince⟩ := hI.handler (hcontrol ▸ hne)
    refine ⟨c, hcontrol.symm ▸ hsuffix, hsince.append _ fun x hx => by simp [hreceived x hx]⟩
  · rw [hcontrol, henabled]
    exact hI.enabled
  · rw [hcontrol]
    intro hset hgate
    exact (hI.gate hset hgate).append _ fun x hx => by simp [hreceived x hx]
  · rw [hrequested, Bool.and_eq_true, decide_eq_true_eq] at hreq
    exact absurd (hI.shutdown (hcontrol ▸ hc) hreq.2) hreq.1

theorem requestInv_step (cfg : Config) {s s' : State} {h : List RequestEvent} {act : Action}
    {e : Option Event} (hI : RequestInv s h) (hok : ShutsDownUnilateral s h act)
    (hs : (machine cfg).step s act = some (s', e)) :
    RequestInv s' ((mark cfg s act).toList ++ h) := by
  cases step_cases cfg s hs with
  | receive c hidle => exact requestInv_receive hI hidle hok
  | control gateOk x rest hc => exact requestInv_control cfg hI hc gateOk
  | sigint | feedback | drop => exact requestInv_same hI rfl rfl rfl rfl
  | motion a measured _ _ hm =>
    obtain ⟨hcontrol, henabled, hrequested, hloop⟩ := motionStep_request hm
    exact requestInv_same hI hcontrol henabled hrequested hloop
  | loop env => exact requestInv_loop cfg hI env

/-- **A bilateral request needs an enabled leader.** When no shutdown comes during a request, an
enabled leader stands behind each request that is not being dropped, and since the granted
`bilateral_enable` that set it no command and no periodic gate has dropped it. -/
theorem request_enabled (cfg : Config) (s : State) (h : List RequestEvent)
    (hr : (requests cfg).RunWhere ShutsDownUnilateral s h) :
    RequestEnabled s h ∧ Always SetGranted h := by
  have hrun := hr.always (I := RequestInv) (P := SetGranted) (requestInv_start cfg) ?_ ?_
  · exact ⟨hrun.1.request, hrun.2⟩
  · intro s h act s' x hI hok hs
    obtain ⟨⟨e, hstep⟩, rfl⟩ := Machine.relabel_step hs
    exact requestInv_step cfg hI hok hstep
  · rintro s h act s' x hI - hs rfl
    obtain ⟨-, hx⟩ := Machine.relabel_step hs
    exact hI.granted cfg hx.symm

end Machine

section Witness

attribute [local instance] Rounding.exact

/-- A mock leader takes a bilateral command and keeps it through a periodic gate. -/
def request : List Action :=
  loops 1 0 0 ++ .receive .bilateralEnable :: List.replicate 3 (.control true) ++ loops 5 0 0

theorem request_enabled_gate :
    ∃ s h, (requests { leader with mock := true }).RunWhere ShutsDownUnilateral s h ∧
      (s.bilateralRequested = true ∧ .periodic true ∈ h) ∧
      RequestEnabled s h ∧ Always SetGranted h := by
  obtain ⟨s, h, hr, hq⟩ := (requests { leader with mock := true }).exists_runWhere
    ShutsDownUnilateral request (fun s h => s.bilateralRequested = true ∧ .periodic true ∈ h)
    (by decide +kernel)
  exact ⟨s, h, hr, hq, request_enabled _ s h hr⟩

/-- A shutdown in bilateral mode leaves the request behind. -/
theorem shutdown_keeps_request :
    ∃ s h, (requests { leader with mock := true }).Runs s h ∧ s.control = [] ∧
      s.loop.pc = .head ∧ s.commandEnabled = false ∧ ¬ RequestEnabled s h :=
  (requests { leader with mock := true }).exists_runWhere _
    (request ++ [.receive .shutdown, .control true, .control true])
    (fun s h => s.control = [] ∧ s.loop.pc = .head ∧ s.commandEnabled = false ∧
      ¬ RequestEnabled s h) (by decide +kernel)

end Witness

end OpenArmTeleop.Leader
