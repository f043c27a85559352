import Letmein.Conf
import Letmein.Lib.Run

/-!
# The sockets of the daemons (`letmein-systemd/src/lib.rs`, `Server::new`, `FirewallServer::new`)

systemd hands over open sockets, or a daemon binds its own. letmeind takes a socket from systemd only for a protocol of
the control port, and it binds only if it has got none that way; so one socket from systemd leaves the other protocol
of the control port without a listener. letmeinfwd does not fall back to binding at all.
-/

namespace Letmein

/-! ## Sockets from systemd -/

/-- A file descriptor: what `fstat64`, `getsockopt` and `getsockname` give for it if they do not fail (the last two
with a length), and whether it can be made non-blocking and a socket of tokio. -/
structure Fd where
  mode : Option Nat
  soType : Option (Int × Nat)
  sockName : Option (Int × Nat)
  setNonblocking : Bool
  fromStd : Bool
deriving DecidableEq, Repr

namespace Fd

def isSocket (fd : Fd) : Bool :=
  match fd.mode with
  | some mode => mode &&& 0o170000 = 0o140000
  | none => false

def getSocketType (fd : Fd) : Option Int :=
  match fd.soType with
  | some (soType, len) => if 4 ≤ len then some soType else none
  | none => none

def getSocketFamily (fd : Fd) : Option Int :=
  match fd.sockName with
  | some (family, len) => if 16 ≤ len then some family else none
  | none => none

def isInet46 (fd : Fd) : Bool := fd.getSocketFamily = some 2 ∨ fd.getSocketFamily = some 10

def isUdpSocket (fd : Fd) : Bool := fd.isSocket ∧ fd.getSocketType = some 2 ∧ fd.isInet46

def isTcpSocket (fd : Fd) : Bool := fd.isSocket ∧ fd.getSocketType = some 1 ∧ fd.isInet46

def isUnixSocket (fd : Fd) : Bool := fd.isSocket ∧ fd.getSocketType = some 1 ∧ fd.getSocketFamily = some 1

end Fd

inductive SystemdSocket where
  | udp (fd : Fd)
  | tcp (fd : Fd)
  | unix (fd : Fd)
deriving DecidableEq, Repr

/-- The features of the crate that are built. -/
structure Features where
  udp : Bool
  tcp : Bool
  unix : Bool

/-- What systemd answers. -/
structure SystemdEnv where
  booted : Except String Bool
  listenFds : Except String (List Fd)
  notifyReady : Except String Unit

namespace SystemdSocket

def ofFd (features : Features) (fd : Fd) : Except String SystemdSocket :=
  if features.udp ∧ fd.isUdpSocket then .ok (.udp fd)
  else if features.tcp ∧ fd.isTcpSocket then .ok (.tcp fd)
  else if features.unix ∧ fd.isUnixSocket then .ok (.unix fd)
  else .error "Received unknown socket from systemd"

def getAll (features : Features) (env : SystemdEnv) : Except String (List SystemdSocket) :=
  match env.booted with
  | .ok true => do
    let fds ← env.listenFds.mapError fun _ => "Systemd listen_fds"
    fds.mapM (ofFd features)
  | _ => .ok []

def tcp? : SystemdSocket → Option Fd
  | .tcp fd => some fd
  | _ => none

def udp? : SystemdSocket → Option Fd
  | .udp fd => some fd
  | _ => none

end SystemdSocket

/-! ## letmeind -/

/-- Where a listener comes from. -/
inductive Listener where
  | systemd (fd : Fd)
  | bound
deriving DecidableEq, Repr

structure Server where
  tcp : Option Listener
  udp : Option Listener
deriving DecidableEq, Repr

/-- What happens to a socket from systemd of one protocol, where `old` is what is there already. -/
def takeSocket (multiple convert : String) (configured : Bool) (old : Option Listener) (fd : Fd) :
    Except String (Option Listener) :=
  if old.isSome then .error multiple
  else if configured = false then .ok old
  else if fd.setNonblocking = false then .error "Set socket non-blocking"
  else if fd.fromStd = false then .error convert
  else .ok (some (.systemd fd))

namespace Server

def useSocket (port : ControlPort) (srv : Server) : SystemdSocket → Except String Server
  | .tcp fd => (fun tcp => { srv with tcp := tcp }) <$> takeSocket "Received multiple TCP sockets from systemd."
      "Convert std TcpListener to tokio TcpListener" port.tcp srv.tcp fd
  | .udp fd => (fun udp => { srv with udp := udp }) <$> takeSocket "Received multiple UDP sockets from systemd."
      "Convert std UdpSocket to tokio UdpSocket" port.udp srv.udp fd
  | .unix _ => .error "Received an unusable socket from systemd."

def isEmpty (srv : Server) : Bool := srv.tcp.isNone ∧ srv.udp.isNone

/-- The listeners that come from systemd. -/
def fromSystemd (port : ControlPort) (features : Features) (env : SystemdEnv) : Except String Server := do
  let sockets ← SystemdSocket.getAll features env
  let srv ← sockets.foldlM (useSocket port) ⟨none, none⟩
  if srv.isEmpty then .ok srv else (fun _ => srv) <$> env.notifyReady

/-- Bind one protocol of the control port, if it is configured. -/
def bind (configured works : Bool) : Except String (Option Listener) :=
  if configured then if works then .ok (some .bound) else .error "Bind"
  else .ok none

/-- What there is from systemd, if it is asked. -/
def received (port : ControlPort) (noSystemd : Bool) (features : Features) (env : SystemdEnv) : Except String Server :=
  if noSystemd then .ok ⟨none, none⟩ else fromSystemd port features env

def bindAll (port : ControlPort) (bindTcp bindUdp : Bool) : Except String Server := do
  let tcp ← bind port.tcp bindTcp
  let udp ← bind port.udp bindUdp
  return ⟨tcp, udp⟩

/-- `bindTcp` and `bindUdp` say whether binding works. -/
def new (port : ControlPort) (noSystemd : Bool) (features : Features) (env : SystemdEnv) (bindTcp bindUdp : Bool) :
    Except String Server := do
  let srv ← received port noSystemd features env
  if srv.isEmpty then bindAll port bindTcp bindUdp else .ok srv

/-! ### What comes from systemd -/

/-- The listener of a protocol for which systemd has handed over these sockets: none if the protocol is not configured,
otherwise the socket, of which there is at most one. -/
inductive Taken (configured : Bool) (fds : List Fd) : Option Listener → Prop
  | unconfigured (h : configured = false) : Taken configured fds none
  | none (h : fds = []) : Taken configured fds none
  | one {fd : Fd} (hconf : configured = true) (h : fds = [fd]) (hnonblocking : fd.setNonblocking = true)
      (hstd : fd.fromStd = true) : Taken configured fds (some (.systemd fd))

variable {port : ControlPort} {features : Features} {env : SystemdEnv} {srv : Server} {sockets : List SystemdSocket}

theorem taken_concat {multiple convert : String} {configured : Bool} {fds : List Fd} {fd : Fd} {l : Option Listener} :
    Taken configured (fds ++ [fd]) l ↔
      ∃ old, Taken configured fds old ∧ takeSocket multiple convert configured old fd = .ok l := by
  constructor
  · intro h
    cases h with
    | unconfigured hconf =>
      refine ⟨none, .unconfigured hconf, ?_⟩
      simp [takeSocket, hconf]
    | none h => simp at h
    | @one fd' hconf h hnonblocking hstd =>
      obtain ⟨rfl, rfl⟩ : fds = [] ∧ fd = fd' := by simpa [List.append_eq_cons_iff] using h
      refine ⟨none, .none rfl, ?_⟩
      simp [takeSocket, hconf, hnonblocking, hstd]
  · rintro ⟨old, hold, h⟩
    unfold takeSocket at h
    split_ifs at h with hsome hconf hnonblocking hstd
    · cases h
      cases hold with
      | unconfigured => exact .unconfigured hconf
      | none => exact .unconfigured hconf
      | one hconf' => rw [hconf] at hconf'; cases hconf'
    · cases h
      cases hold with
      | unconfigured hconf' => exact absurd hconf' hconf
      | none hnil => exact .one (by simpa using hconf) (by rw [hnil]; rfl) (by simpa using hnonblocking) (by simpa using hstd)
      | one => exact absurd rfl hsome

/-- No socket is unusable, and for each protocol at most one is taken. -/
structure TakenFrom (port : ControlPort) (sockets : List SystemdSocket) (srv : Server) : Prop where
  usable : ∀ fd, SystemdSocket.unix fd ∉ sockets
  tcp : Taken port.tcp (sockets.filterMap SystemdSocket.tcp?) srv.tcp
  udp : Taken port.udp (sockets.filterMap SystemdSocket.udp?) srv.udp

theorem takenFrom_tcp {fd : Fd} : TakenFrom port (sockets ++ [.tcp fd]) srv ↔
    ∃ old, TakenFrom port sockets ⟨old, srv.udp⟩ ∧ takeSocket "Received multiple TCP sockets from systemd."
      "Convert std TcpListener to tokio TcpListener" port.tcp old fd = .ok srv.tcp := by
  have htcp : (sockets ++ [SystemdSocket.tcp fd]).filterMap SystemdSocket.tcp? =
      sockets.filterMap SystemdSocket.tcp? ++ [fd] := List.filterMap_append
  have hudp : (sockets ++ [SystemdSocket.tcp fd]).filterMap SystemdSocket.udp? = sockets.filterMap SystemdSocket.udp? :=
    List.filterMap_append.trans (List.append_nil _)
  constructor
  · rintro ⟨husable, ht, hu⟩
    rw [htcp] at ht
    rw [hudp] at hu
    obtain ⟨old, hold, htake⟩ := taken_concat.1 ht
    exact ⟨old, ⟨fun fd' hfd' => husable fd' (by simp [hfd']), hold, hu⟩, htake⟩
  · rintro ⟨old, ⟨husable, hold, hu⟩, htake⟩
    refine ⟨by simpa using husable, ?_, ?_⟩
    · rw [htcp]
      exact taken_concat.2 ⟨old, hold, htake⟩
    · rw [hudp]
      exact hu

theorem takenFrom_udp {fd : Fd} : TakenFrom port (sockets ++ [.udp fd]) srv ↔
    ∃ old, TakenFrom port sockets ⟨srv.tcp, old⟩ ∧ takeSocket "Received multiple UDP sockets from systemd."
      "Convert std UdpSocket to tokio UdpSocket" port.udp old fd = .ok srv.udp := by
  have htcp : (sockets ++ [SystemdSocket.udp fd]).filterMap SystemdSocket.tcp? = sockets.filterMap SystemdSocket.tcp? :=
    List.filterMap_append.trans (List.append_nil _)
  have hudp : (sockets ++ [SystemdSocket.udp fd]).filterMap SystemdSocket.udp? =
      sockets.filterMap SystemdSocket.udp? ++ [fd] := List.filterMap_append
  constructor
  · rintro ⟨husable, ht, hu⟩
    rw [htcp] at ht
    rw [hudp] at hu
    obtain ⟨old, hold, htake⟩ := taken_concat.1 hu
    exact ⟨old, ⟨fun fd' hfd' => husable fd' (by simp [hfd']), ht, hold⟩, htake⟩
  · rintro ⟨old, ⟨husable, ht, hold⟩, htake⟩
    refine ⟨by simpa using husable, ?_, ?_⟩
    · rw [htcp]
      exact ht
    · rw [hudp]
      exact taken_concat.2 ⟨old, hold, htake⟩

theorem useSockets_ok_iff : sockets.foldlM (useSocket port) ⟨none, none⟩ = .ok srv ↔ TakenFrom port sockets srv := by
  refine Except.foldlM_ok_iff (fun srv' => ?_) (fun l socket srv' => ?_)
  · constructor
    · rintro ⟨-, htcp, hudp⟩
      obtain ⟨tcp, udp⟩ := srv'
      cases htcp <;> cases hudp <;> simp_all
    · rintro rfl
      exact ⟨by simp, .none rfl, .none rfl⟩
  · cases socket with
    | tcp fd =>
      rw [takenFrom_tcp]
      constructor
      · rintro ⟨old, hl, htake⟩
        exact ⟨⟨old, srv'.udp⟩, hl, by rw [useSocket, htake]; rfl⟩
      · rintro ⟨srv₁, hl, htake⟩
        obtain ⟨tcp, htcp, rfl⟩ := Except.of_map_ok htake
        exact ⟨srv₁.tcp, hl, htcp⟩
    | udp fd =>
      rw [takenFrom_udp]
      constructor
      · rintro ⟨old, hl, htake⟩
        exact ⟨⟨srv'.tcp, old⟩, hl, by rw [useSocket, htake]; rfl⟩
      · rintro ⟨srv₁, hl, htake⟩
        obtain ⟨udp, hudp, rfl⟩ := Except.of_map_ok htake
        exact ⟨srv₁.udp, hl, hudp⟩
    | unix fd =>
      constructor
      · rintro ⟨husable, -, -⟩
        exact absurd (by simp) (husable fd)
      · rintro ⟨srv₁, -, htake⟩
        cases htake

/-! ### The listeners -/

theorem Taken.isSome {configured : Bool} {fds : List Fd} {l : Option Listener} (h : Taken configured fds l) :
    l.isSome = true ↔ configured = true ∧ fds ≠ [] := by
  cases h with
  | unconfigured hconf => simp [hconf]
  | none hnil => simp [hnil]
  | one hconf hfds => simp [hconf, hfds]

theorem fromSystemd_ok (h : fromSystemd port features env = .ok srv) :
    ∃ sockets, SystemdSocket.getAll features env = .ok sockets ∧ TakenFrom port sockets srv := by
  obtain ⟨sockets, hsockets, h⟩ := Except.bind_ok h
  obtain ⟨srv', hfold, h⟩ := Except.bind_ok h
  refine ⟨sockets, hsockets, ?_⟩
  split_ifs at h
  · cases h
    exact useSockets_ok_iff.1 hfold
  · obtain ⟨u, -, rfl⟩ := Except.of_map_ok h
    exact useSockets_ok_iff.1 hfold

theorem bind_ok {configured works : Bool} {l : Option Listener} (h : bind configured works = .ok l) :
    l = if configured then some .bound else none := by
  unfold bind at h
  split_ifs at h with hconf hworks
  · cases h
    rw [if_pos hconf]
  · cases h
    rw [if_neg hconf]

/-- The sockets that are handed over: none if they are not asked for. -/
def HandedOver (noSystemd : Bool) (features : Features) (env : SystemdEnv) (sockets : List SystemdSocket) : Prop :=
  if noSystemd then sockets = [] else SystemdSocket.getAll features env = .ok sockets

theorem received_ok {noSystemd : Bool} (h : received port noSystemd features env = .ok srv) :
    ∃ sockets, HandedOver noSystemd features env sockets ∧ TakenFrom port sockets srv := by
  unfold received at h
  unfold HandedOver
  split_ifs at h ⊢
  · cases h
    exact ⟨[], rfl, by simp, .none rfl, .none rfl⟩
  · exact fromSystemd_ok h

theorem bindAll_ok {bindTcp bindUdp : Bool} (h : bindAll port bindTcp bindUdp = .ok srv) :
    srv.tcp.isSome = port.tcp ∧ srv.udp.isSome = port.udp := by
  obtain ⟨tcp, htcp, h⟩ := Except.bind_ok h
  obtain ⟨udp, hudp, h⟩ := Except.bind_ok h
  cases h
  rw [bind_ok htcp, bind_ok hudp]
  cases port.tcp <;> cases port.udp <;> exact ⟨rfl, rfl⟩

/-- Systemd has handed over a socket for one of the two protocols only, and both are configured. -/
def OneOfTwo (port : ControlPort) (noSystemd : Bool) (features : Features) (env : SystemdEnv) : Prop :=
  port.tcp = true ∧ port.udp = true ∧ ∃ sockets, HandedOver noSystemd features env sockets ∧
    ¬ (sockets.filterMap SystemdSocket.tcp? = [] ↔ sockets.filterMap SystemdSocket.udp? = [])

theorem HandedOver.unique {noSystemd : Bool} {sockets sockets' : List SystemdSocket}
    (h : HandedOver noSystemd features env sockets) (h' : HandedOver noSystemd features env sockets') :
    sockets = sockets' := by
  unfold HandedOver at h h'
  split_ifs at h h'
  · rw [h, h']
  · exact Except.ok.inj (h.symm.trans h')

/-- letmeind listens on protocols of the control port only and on at least one of them. It listens on all of them
unless systemd has handed over a socket for one of two. -/
theorem listens_on_control_port {noSystemd bindTcp bindUdp : Bool} (hport : port.tcp || port.udp)
    (h : new port noSystemd features env bindTcp bindUdp = .ok srv) :
    (srv.tcp.isSome = true → port.tcp = true) ∧ (srv.udp.isSome = true → port.udp = true) ∧ srv.isEmpty = false ∧
      ((srv.tcp.isSome = port.tcp ∧ srv.udp.isSome = port.udp) ↔ ¬ OneOfTwo port noSystemd features env) := by
  obtain ⟨got, hgot, h⟩ := Except.bind_ok h
  obtain ⟨sockets, hover, htaken⟩ := received_ok hgot
  have htcp := htaken.tcp.isSome
  have hudp := htaken.udp.isSome
  split_ifs at h with hempty
  · -- Nothing was taken, so no configured protocol has a socket.
    obtain ⟨hboundTcp, hboundUdp⟩ := bindAll_ok h
    have hnone : got.tcp.isSome = false ∧ got.udp.isSome = false := by simpa [isEmpty] using hempty
    have hnot : ¬ OneOfTwo port noSystemd features env := by
      rintro ⟨ht, hu, sockets', hover', hone⟩
      obtain rfl := hover.unique hover'
      rw [hnone.1, ht] at htcp
      rw [hnone.2, hu] at hudp
      simp only [Bool.false_eq_true, true_and, ne_eq, false_iff, not_not] at htcp hudp
      exact hone (iff_of_true htcp hudp)
    refine ⟨fun hsome => hboundTcp ▸ hsome, fun hsome => hboundUdp ▸ hsome, ?_, iff_of_true ⟨hboundTcp, hboundUdp⟩ hnot⟩
    rw [← hboundTcp, ← hboundUdp] at hport
    cases htcp' : srv.tcp <;> cases hudp' : srv.udp <;> simp_all [isEmpty]
  · cases h
    refine ⟨fun hsome => (htcp.1 hsome).1, fun hsome => (hudp.1 hsome).1, by simpa using hempty, ?_⟩
    have hone : OneOfTwo port noSystemd features env ↔ port.tcp = true ∧ port.udp = true ∧
        ¬ (sockets.filterMap SystemdSocket.tcp? = [] ↔ sockets.filterMap SystemdSocket.udp? = []) := by
      constructor
      · rintro ⟨ht, hu, sockets', hover', hone⟩
        obtain rfl := hover.unique hover'
        exact ⟨ht, hu, hone⟩
      · rintro ⟨ht, hu, hone⟩
        exact ⟨ht, hu, sockets, hover, hone⟩
    have hsome : srv.tcp.isSome = true ∨ srv.udp.isSome = true := by
      by_contra hno
      rw [not_or, Bool.not_eq_true, Bool.not_eq_true] at hno
      exact hempty (by simpa [isEmpty] using hno)
    rw [hone]
    clear hone hover htaken
    rw [ne_eq] at htcp hudp
    generalize (sockets.filterMap SystemdSocket.tcp? = []) = noTcp at htcp ⊢
    generalize (sockets.filterMap SystemdSocket.udp? = []) = noUdp at hudp ⊢
    by_cases hT : noTcp <;> by_cases hU : noUdp <;> cases ht : port.tcp <;> cases hu : port.udp <;> simp_all

end Server
/-! ## letmeinfwd -/

/-- What is at the path of the Unix socket, and whether removing it, binding and setting the owner and the mode
work. -/
structure UnixEnv where
  mode : Option Nat
  removeFile : Bool
  bind : Bool
  setOwnerMode : Bool

def bindUnix (testMode : Bool) (env : UnixEnv) : Except String Listener :=
  if (env.mode.any fun mode => mode &&& 0o170000 = 0o140000) ∧ env.removeFile = false then
    .error "Remove existing socket"
  else if env.bind = false then .error "Bind socket"
  else if testMode = false ∧ env.setOwnerMode = false then .error "Set unix socket owner and mode"
  else .ok .bound

/-- Only the first socket from systemd is looked at. -/
def FirewallServer.new (noSystemd testMode : Bool) (features : Features) (env : SystemdEnv) (unixEnv : UnixEnv) :
    Except String Listener :=
  if noSystemd then bindUnix testMode unixEnv
  else do
    match ← SystemdSocket.getAll features env with
    | .unix fd :: _ =>
      if fd.setNonblocking = false then .error "Set socket non-blocking"
      else if fd.fromStd = false then .error "Convert std UnixListener to tokio UnixListener"
      else (fun _ => .systemd fd) <$> env.notifyReady
    | _ => .error "Received an unusable socket from systemd."

end Letmein
