import OpenArmTeleop.Lib.Run
import OpenArmTeleop.Net.Wire

/-!
# The life of a receiver

`udp_receiver.cpp`: the thread that owns a receiver and the thread that receives. One action is one
access to what they share.
-/

open Run

namespace OpenArmTeleop.Net

/-- Where the owner is. -/
inductive OwnerPc
  | outside
  | startInternal
  | join
  deriving DecidableEq

/-- Where the thread is in `receive_loop`. -/
inductive ThreadPc
  | head
  | poll
  | received (buffer : List UInt8)
  | callback
  | ended
  deriving DecidableEq

/-- How many steps the thread takes to its end once it is told to stop. -/
def ThreadPc.rank : ThreadPc → ℕ
  | .poll => 4
  | .received _ => 3
  | .callback => 2
  | .head => 1
  | .ended => 0

/-- Callbacks are known by a number. -/
structure UdpReceiver where
  /-- The socket is bound. -/
  socket : Bool
  running : Bool
  callback : Option ℕ
  rawCallback : Option ℕ
  receivedCount : UInt32
  invalidCount : UInt32
  owner : OwnerPc
  /-- `recv_thread_`, if it is joinable. -/
  recvThread : Option ThreadPc
  /-- A joinable thread was assigned to. -/
  terminated : Bool

namespace UdpReceiver

/-- What became of the bytes of a datagram. -/
inductive Outcome
  | raw (callback : ℕ)
  | packet (callback : ℕ) (packet : TeleopPacket UInt64)
  | invalid
  | dropped
  deriving DecidableEq

inductive Event
  | started
  | received (buffer : List UInt8)
  | handled (buffer : List UInt8) (outcome : Outcome)
  | stopped
  deriving DecidableEq

inductive Action
  | start (callback : ℕ)
  | startRaw (callback : ℕ)
  | stop
  /-- The owner goes on. -/
  | owner
  /-- The thread goes on, with what `poll` and `recvfrom` bring. -/
  | thread (datagram : Option (List UInt8))

def new (socket : Bool) : UdpReceiver where
  socket := socket
  running := false
  callback := none
  rawCallback := none
  receivedCount := 0
  invalidCount := 0
  owner := .outside
  recvThread := none
  terminated := false

/-- The callback that gets the bytes, if any. -/
def outcome (r : UdpReceiver) (buffer : List UInt8) : Outcome :=
  match r.rawCallback, r.callback with
  | some callback, _ => .raw callback
  | none, some callback =>
    match receiveTeleop buffer with
    | some packet => .packet callback packet
    | none => .invalid
  | none, none => .dropped

def stepOwner (r : UdpReceiver) : Option (UdpReceiver × Option Event) :=
  match r.owner with
  | .outside => none
  | .startInternal =>
    if !r.socket || r.running then some ({ r with owner := .outside }, none)
    else
      some ({ r with
        running := true
        recvThread := some .head
        owner := .outside
        terminated := r.terminated || r.recvThread.isSome }, some .started)
  | .join =>
    match r.recvThread with
    | none | some .ended => some ({ r with recvThread := none, owner := .outside }, some .stopped)
    | _ => none

/-- `receive_loop`. -/
def stepThread (r : UdpReceiver) (datagram : Option (List UInt8)) :
    Option (UdpReceiver × Option Event) :=
  match r.recvThread with
  | none | some .ended => none
  | some .head => some ({ r with recvThread := some (if r.running then .poll else .ended) }, none)
  | some .poll =>
    match datagram.map recvfrom with
    | none | some [] => some ({ r with recvThread := some .head }, none)
    | some buffer =>
      some ({ r with
        receivedCount := r.receivedCount + 1
        recvThread := some (.received buffer) }, some (.received buffer))
  | some (.received buffer) =>
    let outcome := r.outcome buffer
    some ({ r with
      invalidCount := if outcome = .invalid then r.invalidCount + 1 else r.invalidCount
      recvThread := some .callback }, some (.handled buffer outcome))
  | some .callback => some ({ r with recvThread := some .head }, none)

def step (r : UdpReceiver) : Action → Option (UdpReceiver × Option Event)
  | .start callback =>
    if r.owner = .outside then
      some ({ r with callback := some callback, owner := .startInternal }, none)
    else none
  | .startRaw callback =>
    if r.owner = .outside then
      some ({ r with rawCallback := some callback, owner := .startInternal }, none)
    else none
  | .stop =>
    if r.owner = .outside then
      if r.running then some ({ r with running := false, owner := .join }, none)
      else some (r, some .stopped)
    else none
  | .owner => r.stepOwner
  | .thread datagram => r.stepThread datagram

def machine (socket : Bool) : Machine UdpReceiver Action Event where
  init := .new socket
  step := step

/-! ## What one step can do -/

inductive Step (r : UdpReceiver) : UdpReceiver → Option Event → Prop
  | setCallback (callback rawCallback : Option ℕ) : r.owner = .outside →
      Step r { r with callback := callback, rawCallback := rawCallback, owner := .startInternal }
        none
  | refuse : r.owner = .startInternal → Step r { r with owner := .outside } none
  | start : r.owner = .startInternal → r.running = false →
      Step r { r with
        running := true
        recvThread := some .head
        owner := .outside
        terminated := r.terminated || r.recvThread.isSome } (some .started)
  | requestStop : r.owner = .outside → r.running = true →
      Step r { r with running := false, owner := .join } none
  | idleStop : r.owner = .outside → r.running = false → Step r r (some .stopped)
  | joined : r.owner = .join → r.recvThread = none ∨ r.recvThread = some .ended →
      Step r { r with recvThread := none, owner := .outside } (some .stopped)
  | head : r.recvThread = some .head →
      Step r { r with recvThread := some (if r.running then .poll else .ended) } none
  | back (pc : ThreadPc) : r.recvThread = some pc → pc = .poll ∨ pc = .callback →
      Step r { r with recvThread := some .head } none
  | receive (buffer : List UInt8) : r.recvThread = some .poll →
      Step r { r with
        receivedCount := r.receivedCount + 1
        recvThread := some (.received buffer) } (some (.received buffer))
  | handle (buffer : List UInt8) : r.recvThread = some (.received buffer) →
      Step r { r with
        invalidCount := if r.outcome buffer = .invalid then r.invalidCount + 1 else r.invalidCount
        recvThread := some .callback } (some (.handled buffer (r.outcome buffer)))

theorem step_cases {r r' : UdpReceiver} {act : Action} {e : Option Event}
    (h : r.step act = some (r', e)) : Step r r' e := by
  cases act with
  | start callback =>
    simp only [step] at h
    split at h <;> cases h
    exact .setCallback _ _ (by assumption)
  | startRaw callback =>
    simp only [step] at h
    split at h <;> cases h
    exact .setCallback _ _ (by assumption)
  | stop =>
    simp only [step] at h
    split at h
    · split at h <;> cases h
      · exact .requestStop (by assumption) (by assumption)
      · exact .idleStop (by assumption) (Bool.eq_false_of_not_eq_true (by assumption))
    · cases h
  | owner =>
    simp only [step, stepOwner] at h
    split at h
    · cases h
    · split at h <;> cases h
      · exact .refuse (by assumption)
      · rename_i hno
        simp only [Bool.or_eq_true, Bool.not_eq_true', not_or, Bool.not_eq_true] at hno
        exact .start (by assumption) hno.2
    · split at h <;> cases h
      · exact .joined (by assumption) (.inl (by assumption))
      · exact .joined (by assumption) (.inr (by assumption))
  | thread datagram =>
    simp only [step, stepThread] at h
    split at h
    · cases h
    · cases h
    · cases h
      exact .head (by assumption)
    · rename_i hpoll
      split at h <;> cases h
      · exact .back _ hpoll (.inl rfl)
      · exact .back _ hpoll (.inl rfl)
      · exact .receive _ hpoll
    · cases h
      exact .handle _ (by assumption)
    · cases h
      exact .back _ (by assumption) (.inr rfl)

/-! ## Whole lives -/

def Event.received? : Event → Option (List UInt8)
  | .received buffer => some buffer
  | _ => none

def Event.handled? : Event → Option (List UInt8)
  | .handled buffer _ => some buffer
  | _ => none

def Event.isInvalid : Event → Bool
  | .handled _ .invalid => true
  | _ => false

/-- The datagrams that came in, newest first. -/
def received (h : List Event) : List (List UInt8) := h.filterMap Event.received?

def handled (h : List Event) : List (List UInt8) := h.filterMap Event.handled?

/-- The datagram that is received and not yet handled. -/
def inFlight (r : UdpReceiver) : List (List UInt8) :=
  match r.recvThread with
  | some (.received buffer) => [buffer]
  | _ => []

/-- The receiver was started and has not stopped since. -/
def Open (h : List Event) : Prop := Since (· = .started) (· = .stopped) h

structure LifeInv (r : UdpReceiver) (h : List Event) : Prop where
  terminated : r.terminated = false
  joining : r.owner = .join → r.running = false ∧ r.recvThread.isSome = true
  outside : r.owner ≠ .join → r.running = r.recvThread.isSome
  ended : r.recvThread = some .ended → r.running = false
  opened : r.recvThread.isSome = true → Open h
  order : received h = r.inFlight ++ handled h
  receivedCount : r.receivedCount = UInt32.ofNat (received h).length
  invalidCount : r.invalidCount = UInt32.ofNat (h.countP Event.isInvalid)

theorem lifeInv_new (socket : Bool) : LifeInv (new socket) [] :=
  ⟨rfl, nofun, fun _ => rfl, nofun, nofun, rfl, rfl, rfl⟩

theorem ofNat_succ (n : ℕ) : UInt32.ofNat (n + 1) = UInt32.ofNat n + 1 := by
  rw [UInt32.ofNat_add]
  rfl

theorem LifeInv.step {r r' : UdpReceiver} {h : List Event} {e : Option Event}
    (hI : LifeInv r h) (hs : Step r r' e) : LifeInv r' (e.toList ++ h) := by
  have hopened : ∀ x : Event, x ≠ .stopped → r.recvThread.isSome = true → Open (x :: h) :=
    fun x hx hsome => .inr ⟨hx, hI.opened hsome⟩
  cases hs with
  | setCallback callback rawCallback howner =>
    exact ⟨hI.terminated, nofun, fun _ => hI.outside (by rw [howner]; decide), hI.ended, hI.opened,
      hI.order, hI.receivedCount, hI.invalidCount⟩
  | refuse howner =>
    exact ⟨hI.terminated, nofun, fun _ => hI.outside (by rw [howner]; decide), hI.ended, hI.opened,
      hI.order, hI.receivedCount, hI.invalidCount⟩
  | start howner hrunning =>
    have hnone : r.recvThread = none := by
      have hsame := hI.outside (by rw [howner]; decide)
      rw [hrunning] at hsame
      simpa using hsame.symm
    refine ⟨by simp [hI.terminated, hnone], nofun, fun _ => rfl, nofun, fun _ => .inl rfl, ?_,
      hI.receivedCount, ?_⟩
    · have horder := hI.order
      rw [inFlight, hnone] at horder
      exact horder
    · exact hI.invalidCount
  | requestStop howner hrunning =>
    have hsome : r.recvThread.isSome = true := by
      rw [← hI.outside (by rw [howner]; decide), hrunning]
    exact ⟨hI.terminated, fun _ => ⟨rfl, hsome⟩, fun hne => absurd rfl hne, fun _ => rfl, hI.opened,
      hI.order, hI.receivedCount, hI.invalidCount⟩
  | idleStop howner hrunning =>
    have hnone : r.recvThread.isSome = false := by
      rw [← hI.outside (by rw [howner]; decide), hrunning]
    exact ⟨hI.terminated, hI.joining, hI.outside, hI.ended, fun hsome => by simp [hnone] at hsome,
      hI.order, hI.receivedCount, hI.invalidCount⟩
  | joined howner hended =>
    have hflight : r.inFlight = [] := by
      unfold inFlight
      rcases hended with hended | hended <;> rw [hended]
    refine ⟨hI.terminated, nofun, fun _ => (hI.joining howner).1, nofun, nofun, ?_, hI.receivedCount,
      hI.invalidCount⟩
    have horder := hI.order
    rw [hflight] at horder
    exact horder
  | head hhead =>
    have hflight : r.inFlight = [] := by rw [inFlight, hhead]
    refine ⟨hI.terminated, fun hjoin => ⟨(hI.joining hjoin).1, rfl⟩, fun hne => ?_, fun hended => ?_,
      fun _ => hI.opened (by rw [hhead]; rfl), ?_, hI.receivedCount, hI.invalidCount⟩
    · have hsame := hI.outside hne
      rw [hhead] at hsame
      exact hsame
    · by_contra hrunning
      have htrue : r.running = true := by simpa using hrunning
      simp [htrue] at hended
    · have horder := hI.order
      rw [hflight] at horder
      refine horder.trans ?_
      cases hrunning : r.running <;> rfl
  | back pc hpc hback =>
    have hflight : r.inFlight = [] := by
      unfold inFlight
      rcases hback with rfl | rfl <;> rw [hpc]
    refine ⟨hI.terminated, fun hjoin => ⟨(hI.joining hjoin).1, rfl⟩, fun hne => ?_, nofun,
      fun _ => hI.opened (by rw [hpc]; rfl), ?_, hI.receivedCount, hI.invalidCount⟩
    · have hsame := hI.outside hne
      rw [hpc] at hsame
      exact hsame
    · have horder := hI.order
      rw [hflight] at horder
      exact horder
  | receive buffer hpoll =>
    have hflight : r.inFlight = [] := by rw [inFlight, hpoll]
    refine ⟨hI.terminated, fun hjoin => ⟨(hI.joining hjoin).1, rfl⟩, fun hne => ?_, nofun,
      fun _ => hopened _ nofun (by rw [hpoll]; rfl), ?_, ?_, hI.invalidCount⟩
    · have hsame := hI.outside hne
      rw [hpoll] at hsame
      exact hsame
    · have horder := hI.order
      rw [hflight] at horder
      exact congrArg (buffer :: ·) horder
    · change r.receivedCount + 1 = UInt32.ofNat ((received h).length + 1)
      rw [ofNat_succ, hI.receivedCount]
  | handle buffer hreceived =>
    have hflight : r.inFlight = [buffer] := by rw [inFlight, hreceived]
    refine ⟨hI.terminated, fun hjoin => ⟨(hI.joining hjoin).1, rfl⟩, fun hne => ?_, nofun,
      fun _ => hopened _ nofun (by rw [hreceived]; rfl), ?_, hI.receivedCount, ?_⟩
    · have hsame := hI.outside hne
      rw [hreceived] at hsame
      exact hsame
    · have horder := hI.order
      rw [hflight] at horder
      exact horder
    · rw [Option.toList_some, List.singleton_append, List.countP_cons, hI.invalidCount]
      cases houtcome : r.outcome buffer with
      | invalid =>
        rw [if_pos rfl]
        exact (ofNat_succ _).symm
      | _ => rfl

/-! ### Stopping -/

/-- The thread takes a step, or has ended. -/
def threadStep (r : UdpReceiver) (datagram : Option (List UInt8)) : UdpReceiver :=
  ((r.stepThread datagram).map Prod.fst).getD r

def threadSteps (r : UdpReceiver) (datagrams : List (Option (List UInt8))) : UdpReceiver :=
  datagrams.foldl threadStep r

theorem threadStep_stopping {r : UdpReceiver} {pc : ThreadPc} (hrunning : r.running = false)
    (hpc : r.recvThread = some pc) (datagram : Option (List UInt8)) :
    (r.threadStep datagram).running = false ∧ (r.threadStep datagram).owner = r.owner ∧
      ∃ pc', (r.threadStep datagram).recvThread = some pc' ∧ pc'.rank ≤ pc.rank - 1 := by
  unfold threadStep stepThread
  rw [hpc]
  cases pc with
  | head => exact ⟨hrunning, rfl, .ended, by simp [hrunning], by decide⟩
  | poll =>
    dsimp only
    split
    · exact ⟨hrunning, rfl, .head, rfl, by decide⟩
    · exact ⟨hrunning, rfl, .head, rfl, by decide⟩
    · exact ⟨hrunning, rfl, _, rfl, by simp [ThreadPc.rank]⟩
  | received buffer => exact ⟨hrunning, rfl, .callback, rfl, by simp [ThreadPc.rank]⟩
  | callback => exact ⟨hrunning, rfl, .head, rfl, by decide⟩
  | ended => exact ⟨hrunning, rfl, .ended, hpc, by decide⟩

theorem threadSteps_stopping (datagrams : List (Option (List UInt8))) {r : UdpReceiver}
    {pc : ThreadPc} (hrunning : r.running = false) (hpc : r.recvThread = some pc)
    (hlen : pc.rank ≤ datagrams.length) :
    (r.threadSteps datagrams).owner = r.owner ∧
      (r.threadSteps datagrams).recvThread = some .ended := by
  induction datagrams generalizing r pc with
  | nil =>
    cases pc with
    | ended => exact ⟨rfl, hpc⟩
    | _ => simp [ThreadPc.rank] at hlen
  | cons datagram datagrams ih =>
    obtain ⟨hstill, howner, pc', hpc', hrank⟩ := threadStep_stopping hrunning hpc datagram
    rw [List.length_cons] at hlen
    obtain ⟨howner', hended⟩ := ih hstill hpc' (by omega)
    exact ⟨howner'.trans howner, hended⟩

def Outcome.Fits (buffer : List UInt8) : Outcome → Prop
  | .packet _ got => receiveTeleop buffer = some got
  | .invalid => receiveTeleop buffer = none
  | .raw _ => True
  | .dropped => True

theorem outcome_fits (r : UdpReceiver) (buffer : List UInt8) :
    (r.outcome buffer).Fits buffer := by
  unfold outcome
  split
  · trivial
  · split
    · assumption
    · assumption
  · trivial

/-- The bytes go where they belong, while the receiver is open. -/
def Delivered : Event → List Event → Prop
  | .handled buffer outcome, h => Open h ∧ buffer ∈ received h ∧ outcome.Fits buffer
  | _, _ => True

/-- What a receiver guarantees its owner at any time. -/
structure Lifecycle (r : UdpReceiver) (h : List Event) : Prop where
  /-- A joinable thread is never assigned to. -/
  terminated : r.terminated = false
  delivered : Always Delivered h
  /-- Each datagram is handled once, in the order of arrival, and before `stop` returns. -/
  order : received h = r.inFlight ++ handled h
  complete : r.recvThread = none → received h = handled h
  receivedCount : r.receivedCount = UInt32.ofNat (received h).length
  invalidCount : r.invalidCount = UInt32.ofNat (h.countP Event.isInvalid)
  /-- Whatever comes in, a `stop` does not wait for more than four steps of the thread. -/
  stops : r.owner = .join → ∀ datagrams : List (Option (List UInt8)), 4 ≤ datagrams.length →
    ∃ r', (r.threadSteps datagrams).stepOwner = some (r', some .stopped)

theorem lifecycle (socket : Bool) {r : UdpReceiver} {h : List Event}
    (hr : (machine socket).Runs r h) : Lifecycle r h := by
  obtain ⟨hI, hdelivered⟩ : LifeInv r h ∧ Always Delivered h := by
    refine hr.always (I := LifeInv) (lifeInv_new socket) ?_ ?_
    · intro r h act r' e hI _ hs
      exact hI.step (step_cases hs)
    · intro r h act r' e hI _ hs
      generalize hx : some e = x at hs
      cases step_cases hs with
      | handle buffer hreceived =>
        cases hx
        have hflight : r.inFlight = [buffer] := by rw [inFlight, hreceived]
        refine ⟨hI.opened (by rw [hreceived]; rfl), ?_, r.outcome_fits buffer⟩
        rw [hI.order, hflight]
        exact List.mem_cons_self
      | _ => cases hx <;> trivial
  refine ⟨hI.terminated, hdelivered, hI.order, fun hnone => ?_, hI.receivedCount, hI.invalidCount,
    fun howner datagrams hlen => ?_⟩
  · have horder := hI.order
    rw [inFlight, hnone] at horder
    exact horder
  · obtain ⟨hrunning, hsome⟩ := hI.joining howner
    obtain ⟨pc, hpc⟩ := Option.isSome_iff_exists.mp hsome
    have hrank : pc.rank ≤ datagrams.length := by cases pc <;> simp only [ThreadPc.rank] <;> omega
    obtain ⟨howner', hended⟩ := threadSteps_stopping datagrams hrunning hpc hrank
    refine ⟨{ r.threadSteps datagrams with recvThread := none, owner := .outside }, ?_⟩
    simp only [stepOwner, howner', howner, hended]

end UdpReceiver

end OpenArmTeleop.Net
