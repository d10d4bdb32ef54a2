import OpenArmTeleop.Safety.Gate

/-!
# Which links the gate lets through

`link_check.cpp` over what the operating system answers, and the checks of both ends on top of it.
-/

namespace OpenArmTeleop.Safety

/-! ## The operating system -/

/-- An entry of `getifaddrs`, with its address if that is one of `AF_INET`. -/
structure IfAddr where
  addr : Option UInt32
  name : String
  isLoopback : Bool

/-- What the system calls answer. An error is the text of `strerror`. -/
structure Host where
  inetPton : String → Option UInt32
  inetNtop : UInt32 → String
  socket : Except String Unit
  connect : UInt32 → Except String Unit
  getsockname : UInt32 → Except String UInt32
  getifaddrs : Except String (List IfAddr)
  pathExists : String → Bool
  /-- What `getline` reads from a file that opens. -/
  getline : String → Option String
  ioctlIsWireless : String → Bool

/-- `std::stol`, or nothing where it throws. -/
def stol (line : String) : Option ℤ :=
  let text := line.toList.dropWhile (· ∈ [' ', '\t', '\n', '\x0b', '\x0c', '\r'])
  let (negative, text) : Bool × List Char :=
    match text with
    | '-' :: rest => (true, rest)
    | '+' :: rest => (false, rest)
    | _ => (false, text)
  let digits := text.takeWhile Char.isDigit
  let n : ℕ := digits.foldl (fun n c => 10 * n + (c.toNat - '0'.toNat)) 0
  let v : ℤ := if negative then -n else n
  if digits.isEmpty then none else if -2 ^ 63 ≤ v ∧ v < 2 ^ 63 then some v else none

/-- A `long` as an `int`. -/
def toInt (v : ℤ) : ℤ := v.bmod (2 ^ 32)

namespace Host

variable (host : Host)

def readSysfsInt (path : String) : Option ℤ := (host.getline path).bind stol

/-- The source address of the route to the peer. -/
def localAddress (peerIp : String) : Except String UInt32 := do
  let some peer := host.inetPton peerIp | throw ("invalid peer ip: " ++ peerIp)
  host.socket.mapError ("socket: " ++ ·)
  (host.connect peer).mapError ("no route to " ++ peerIp ++ ": " ++ ·)
  (host.getsockname peer).mapError ("getsockname: " ++ ·)

def sys (ifname : String) : String := "/sys/class/net/" ++ ifname

def queryLinkTo (peerIp : String) : LinkInfo :=
  match host.localAddress peerIp with
  | .error e => { error := e }
  | .ok source =>
    match host.getifaddrs with
    | .error e => { error := "getifaddrs: " ++ e }
    | .ok ifs =>
      let info : LinkInfo :=
        match ifs.find? (·.addr = some source) with
        | some i => { ifname := i.name, isLoopback := i.isLoopback }
        | none => {}
      if info.ifname.isEmpty then
        { info with error := "no interface owns " ++ host.inetNtop source }
      else
        { info with
          isWireless := host.pathExists (sys info.ifname ++ "/wireless") ||
            host.pathExists (sys info.ifname ++ "/phy80211") || host.ioctlIsWireless info.ifname
          hasDevice := host.pathExists (sys info.ifname ++ "/device")
          carrier := host.readSysfsInt (sys info.ifname ++ "/carrier") == some 1 || info.isLoopback
          speedMbps := ((host.readSysfsInt (sys info.ifname ++ "/speed")).map toInt).getD (-1)
          resolved := true }

/-! ## The links that pass -/

/-- The interface that owns the source address of the route to the peer. -/
structure Routed (peerIp : String) (i : IfAddr) : Prop where
  route : ∃ peer source ifs, host.inetPton peerIp = some peer ∧ host.socket = .ok () ∧
    host.connect peer = .ok () ∧ host.getsockname peer = .ok source ∧
    host.getifaddrs = .ok ifs ∧ ifs.find? (·.addr = some source) = some i
  named : i.name ≠ ""

/-- A device with a cable in it, and nothing says that it is a wireless one. -/
structure Wired (ifname : String) : Prop where
  wireless : host.pathExists (sys ifname ++ "/wireless") = false
  phy : host.pathExists (sys ifname ++ "/phy80211") = false
  ioctl : host.ioctlIsWireless ifname = false
  device : host.pathExists (sys ifname ++ "/device") = true
  carrier : ∃ line, host.getline (sys ifname ++ "/carrier") = some line ∧ stol line = some 1

/-- The speed can be read and is high enough, or no speed is asked for. -/
def Fast (ifname : String) (minLinkSpeedMbps : ℤ) : Prop :=
  (∃ line v, host.getline (sys ifname ++ "/speed") = some line ∧ stol line = some v ∧
    minLinkSpeedMbps ≤ toInt v) ∨
  (host.readSysfsInt (sys ifname ++ "/speed") = none ∧ minLinkSpeedMbps < 0)

/-- The peer is reached over a link that the settings allow. -/
structure Reached (requireWired allowLoopback : Bool) (minLinkSpeedMbps : ℤ) (peerIp : String)
    (i : IfAddr) : Prop where
  routed : host.Routed peerIp i
  loopback : i.isLoopback = true → allowLoopback = true
  wired : i.isLoopback = false → requireWired = true →
    host.Wired i.name ∧ host.Fast i.name minLinkSpeedMbps

end Host

open Host

variable (host : Host)

theorem localAddress_eq_ok (peerIp : String) (source : UInt32) :
    host.localAddress peerIp = .ok source ↔ ∃ peer, host.inetPton peerIp = some peer ∧
      host.socket = .ok () ∧ host.connect peer = .ok () ∧ host.getsockname peer = .ok source := by
  unfold localAddress
  cases hpeer : host.inetPton peerIp with
  | none => simp [throw, throwThe, MonadExceptOf.throw]
  | some peer =>
    cases hsocket : host.socket with
    | error e => simp [Except.mapError, bind, Except.bind]
    | ok =>
      cases hconnect : host.connect peer with
      | error e => simp [Except.mapError, bind, Except.bind, hconnect]
      | ok =>
        cases hname : host.getsockname peer with
        | error e => simp [Except.mapError, bind, Except.bind, hconnect, hname]
        | ok address => simp [Except.mapError, bind, Except.bind, hconnect, hname]

theorem Host.Routed.unique {host : Host} {peerIp : String} {i j : IfAddr}
    (hi : host.Routed peerIp i) (hj : host.Routed peerIp j) : i = j := by
  obtain ⟨peer, source, ifs, hpeer, -, -, hsource, hifs, hfind⟩ := hi.route
  obtain ⟨peer', source', ifs', hpeer', -, -, hsource', hifs', hfind'⟩ := hj.route
  obtain rfl : peer = peer' := by simpa [hpeer] using hpeer'
  obtain rfl : source = source' := by simpa [hsource] using hsource'
  obtain rfl : ifs = ifs' := by simpa [hifs] using hifs'
  simpa [hfind] using hfind'

theorem carrier_iff (ifname : String) :
    host.readSysfsInt (sys ifname ++ "/carrier") = some 1 ↔
      ∃ line, host.getline (sys ifname ++ "/carrier") = some line ∧ stol line = some 1 := by
  simp [readSysfsInt, Option.bind_eq_some_iff]

theorem speed_iff (ifname : String) (minLinkSpeedMbps : ℤ) :
    minLinkSpeedMbps ≤ ((host.readSysfsInt (sys ifname ++ "/speed")).map toInt).getD (-1) ↔
      host.Fast ifname minLinkSpeedMbps := by
  unfold Fast readSysfsInt
  cases hline : host.getline (sys ifname ++ "/speed") with
  | none =>
    simp
    omega
  | some line =>
    cases hspeed : stol line with
    | none =>
      simp [hspeed]
      omega
    | some v => simp [hspeed]

/-- What is found out about the interface of a route. -/
theorem queryLinkTo_routed {peerIp : String} {i : IfAddr} (hi : host.Routed peerIp i) :
    (host.queryLinkTo peerIp).resolved = true ∧
      (host.queryLinkTo peerIp).isLoopback = i.isLoopback ∧
      (i.isLoopback = false → ((host.queryLinkTo peerIp).isWireless = false ∧
        (host.queryLinkTo peerIp).hasDevice = true ∧ (host.queryLinkTo peerIp).carrier = true ↔
          host.Wired i.name)) ∧
      ∀ minLinkSpeedMbps, minLinkSpeedMbps ≤ (host.queryLinkTo peerIp).speedMbps ↔
        host.Fast i.name minLinkSpeedMbps := by
  obtain ⟨peer, source, ifs, hpeer, hsocket, hconnect, hsource, hifs, hfind⟩ := hi.route
  have hlocal : host.localAddress peerIp = .ok source :=
    (localAddress_eq_ok host peerIp source).mpr ⟨peer, hpeer, hsocket, hconnect, hsource⟩
  have hname : i.name.isEmpty = false := by simpa using hi.named
  simp only [queryLinkTo, hlocal, hifs, hfind, hname, Bool.false_eq_true, if_false]
  refine ⟨trivial, trivial, fun hloopback => ?_, speed_iff host i.name⟩
  rw [hloopback]
  simp only [Bool.or_false, Bool.or_eq_false_iff, beq_iff_eq, carrier_iff]
  constructor
  · rintro ⟨⟨⟨hwireless, hphy⟩, hioctl⟩, hdevice, hcarrier⟩
    exact ⟨hwireless, hphy, hioctl, hdevice, hcarrier⟩
  · rintro ⟨hwireless, hphy, hioctl, hdevice, hcarrier⟩
    exact ⟨⟨⟨hwireless, hphy⟩, hioctl⟩, hdevice, hcarrier⟩

/-- Without a route the link stays unresolved. -/
theorem queryLinkTo_resolved {peerIp : String}
    (hresolved : (host.queryLinkTo peerIp).resolved = true) : ∃ i, host.Routed peerIp i := by
  unfold queryLinkTo at hresolved
  cases hlocal : host.localAddress peerIp with
  | error e => simp [hlocal] at hresolved
  | ok source =>
    cases hifs : host.getifaddrs with
    | error e => simp [hlocal, hifs] at hresolved
    | ok ifs =>
      cases hfind : ifs.find? (·.addr = some source) with
      | none => simp [hlocal, hifs, hfind] at hresolved
      | some i =>
        obtain ⟨peer, hpeer, hsocket, hconnect, hsource⟩ :=
          (localAddress_eq_ok host peerIp source).mp hlocal
        refine ⟨i, ⟨peer, source, ifs, hpeer, hsocket, hconnect, hsource, hifs, hfind⟩, ?_⟩
        rintro hname
        simp [hlocal, hifs, hfind, hname] at hresolved

theorem linkOk_queryLinkTo (requireWired allowLoopback : Bool) (minLinkSpeedMbps : ℤ)
    (peerIp : String) :
    LinkOk requireWired allowLoopback minLinkSpeedMbps (host.queryLinkTo peerIp) ↔
      ∃ i, host.Reached requireWired allowLoopback minLinkSpeedMbps peerIp i := by
  constructor
  · intro hok
    obtain ⟨i, hi⟩ := queryLinkTo_resolved host hok.resolved
    obtain ⟨-, hloopback, hwired, hfast⟩ := queryLinkTo_routed host hi
    refine ⟨i, hi, fun h => hok.loopback (hloopback.trans h), fun h hreq => ?_⟩
    obtain ⟨hwireless, hdevice, hcarrier, hspeed⟩ := hok.wired (hloopback.trans h) hreq
    exact ⟨(hwired h).mp ⟨hwireless, hdevice, hcarrier⟩, (hfast _).mp hspeed⟩
  · rintro ⟨i, hi⟩
    obtain ⟨hresolved, hloopback, hwired, hfast⟩ := queryLinkTo_routed host hi.routed
    refine ⟨hresolved, fun h => hi.loopback (hloopback ▸ h), fun h hreq => ?_⟩
    rw [hloopback] at h
    obtain ⟨hcable, hspeed⟩ := hi.wired h hreq
    obtain ⟨hwireless, hdevice, hcarrier⟩ := (hwired h).mpr hcable
    exact ⟨hwireless, hdevice, hcarrier, (hfast _).mpr hspeed⟩

theorem checkLink_ok (config : BilateralGateConfig) (link : LinkInfo) :
    (config.checkLink link).ok = true ↔ (config.checkLink link).reasons = [] := by
  unfold BilateralGateConfig.checkLink
  cases link.resolved <;> simp

end OpenArmTeleop.Safety
