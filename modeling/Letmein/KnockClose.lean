import Letmein.Command
import Letmein.FwServer
import Letmein.NftHistory
import Letmein.ProtocolAuth

/-!
# Closing what was knocked open

A knock and a close with the same arguments, each over the address families that its command contacts. A sequence
over a family that reaches the server opens or closes the port for the client's address of that family.
`close_undoes_knock_iff` says when nothing is left open.
-/

namespace Letmein

/-! ## The families that the commands contact -/

namespace CommandServer

/-- The families that a knock contacts: the flags name them, or the kind of the host does. -/
def tries (server : CommandServer) (mode : ResMode) : Bool :=
  match server.addrMode with
  | .tryBoth =>
    match IpAddr.fromStr server.addr with
    | some addr => mode.admits addr
    | none => true
  | .both => true
  | .ipv6 => mode = .ipv6
  | .ipv4 => mode = .ipv4

/-- Without flags and for a host name. -/
def TriesBoth (server : CommandServer) : Prop := server.addrMode = .tryBoth ∧ IpAddr.fromStr server.addr = none

/-- Both commands contact one and the same family, or both families, or do what they do for a host name. -/
theorem families {m : Type → Type} [Monad m] {server : CommandServer} {conf : Config} {it : IterOrder ResourceId}
    {port : UInt16} {user : Option UserId} {seq : CommandSeq} (hseq : server.seq conf it port user = .ok seq)
    (knock close : CommandSeq → ResMode → ExceptT String m Unit) :
    (∃ mode, (∀ m', server.tries m' = true ↔ m' = mode) ∧ ¬ server.TriesBoth ∧
      runKnock conf it server port user knock = knock seq mode ∧
      runClose conf it server port user close = close seq mode) ∨
    ((∀ m', server.tries m' = true) ∧ ¬ server.TriesBoth ∧
      runKnock conf it server port user knock = (knock seq .ipv6 >>= fun _ => knock seq .ipv4) ∧
      runClose conf it server port user close = (close seq .ipv6 >>= fun _ => close seq .ipv4)) ∨
    ((∀ m', server.tries m' = true) ∧ server.TriesBoth ∧
      runKnock conf it server port user knock = tryBoth (knock seq .ipv6) (knock seq .ipv4) ∧
      runClose conf it server port user close = tryInTurn (close seq .ipv6) (close seq .ipv4)) := by
  unfold runKnock runClose
  rw [hseq]
  cases hmode : server.addrMode with
  | tryBoth =>
    rcases haddr : IpAddr.fromStr server.addr with _ | addr | addr
    · refine .inr (.inr ⟨by simp [tries, hmode, haddr], ⟨hmode, haddr⟩, ?_, ?_⟩) <;>
        simp [isIpv4Addr, isIpv6Addr, haddr]
    · refine .inl ⟨.ipv4, ?_, by simp [TriesBoth, haddr], ?_, ?_⟩
      · rintro (_ | _) <;> simp [tries, hmode, haddr, ResMode.admits]
      · simp [isIpv4Addr, haddr]
      · simp [isIpv4Addr, haddr]
    · refine .inl ⟨.ipv6, ?_, by simp [TriesBoth, haddr], ?_, ?_⟩
      · rintro (_ | _) <;> simp [tries, hmode, haddr, ResMode.admits]
      · simp [isIpv4Addr, isIpv6Addr, haddr]
      · simp [isIpv4Addr, isIpv6Addr, haddr]
  | both => exact .inr (.inl ⟨by simp [tries, hmode], by simp [TriesBoth, hmode], rfl, rfl⟩)
  | ipv6 => exact .inl ⟨.ipv6, by simp [tries, hmode], by simp [TriesBoth, hmode], rfl, rfl⟩
  | ipv4 => exact .inl ⟨.ipv4, by simp [tries, hmode], by simp [TriesBoth, hmode], rfl, rfl⟩

end CommandServer

/-! ## The server at the other end -/

/-- The server and the ways to it: its configuration, what it opens for the port, the client's addresses, the
families over which it is reached, and what the environment decides in the firewall calls of either command. -/
structure Route where
  conf : Config
  portType : PortType
  num : UInt16
  addr4 : Ipv4Addr
  addr6 : Ipv6Addr
  reach : ResMode → Bool
  knockEnv : ResMode → NftEnv
  closeEnv : ResMode → NftEnv

namespace Route

def addr (route : Route) : ResMode → IpAddr
  | .ipv4 => .v4 route.addr4
  | .ipv6 => .v6 route.addr6

def port (route : Route) : LeasePort := leasePort route.portType route.num

/-- A sequence that makes this call, if the server is reached. It succeeds if the call does. -/
def sequence (route : Route) (mode : ResMode) (call : FwCall) (env : NftEnv) :
    ExceptT String (StateT FwState (Except Panic)) Unit := ExceptT.mk fun s =>
  if route.reach mode then do
    let r ← s.call route.conf env call
    return (r.val.mapError fun _ => "The server rejected the request",
      ⟨r.fw, r.kernel, ⟨call, env.now, r.val⟩ :: s.log⟩)
  else return (.error "Client init", s)

def knockSequence (route : Route) (mode : ResMode) : ExceptT String (StateT FwState (Except Panic)) Unit :=
  route.sequence mode (.openPort (route.addr mode) route.port) (route.knockEnv mode)

def closeSequence (route : Route) (mode : ResMode) : ExceptT String (StateT FwState (Except Panic)) Unit :=
  route.sequence mode (.closePort (route.addr mode) route.port) (route.closeEnv mode)

/-- A knock over the family succeeds: its address is one that the firewall supports, and `nft` works. -/
def Opens (route : Route) (names : NftNames) (mode : ResMode) : Prop :=
  route.reach mode = true ∧ Supported names.family (route.addr mode) ∧ (route.knockEnv mode).nft 0 = true

/-- A close over the family succeeds: `nft` works, or its failure is ignored. -/
def Closes (route : Route) (mode : ResMode) : Prop :=
  route.reach mode = true ∧
    ((route.closeEnv mode).nft 1 = true ∧ (route.closeEnv mode).nft 2 = true ∨ route.conf.debug = true)

variable {route : Route} {names : NftNames} {s s' : FwState} {mode : ResMode} {held : ResMode → Prop}

theorem addr_injective (route : Route) : Function.Injective route.addr := by
  intro m m' h
  cases m <;> cases m' <;> first | rfl | cases h

/-- The leases of the client's addresses for the port are those of the families that are `held`. -/
structure Holds (route : Route) (names : NftNames) (s : FwState) (held : ResMode → Prop) : Prop where
  sane : s.Sane names
  leases : ∀ mode port, port.num = route.num →
    ((route.addr mode, port) ∈ s.fw.leases ↔ port = route.port ∧ held mode)

theorem port_num (route : Route) : route.port.num = route.num := by
  unfold port leasePort
  cases route.portType <;> rfl

theorem sequence_unreached {call : FwCall} {env : NftEnv} (h : route.reach mode ≠ true) :
    route.sequence mode call env s = .ok (.error "Client init", s) := by
  unfold sequence
  rw [ExceptT.mk, if_neg h]
  rfl

theorem sequence_reached {call : FwCall} {env : NftEnv} {r : NftRet} (h : route.reach mode = true)
    (hr : s.call route.conf env call = .ok r) : route.sequence mode call env s =
      .ok (r.val.mapError fun _ => "The server rejected the request",
        ⟨r.fw, r.kernel, ⟨call, env.now, r.val⟩ :: s.log⟩) := by
  unfold sequence
  rw [ExceptT.mk, if_pos h, hr]
  rfl

section
variable (hn : readConfiguration route.conf = .ok names) (hctl : route.conf.port.port ≠ route.num)
include hn hctl

theorem Holds.knock (h : route.Holds names s held) (mode : ResMode) (hmode : ¬ held mode) : ∃ val s',
    route.knockSequence mode s = .ok (val, s') ∧ (val = .ok () ↔ route.Opens names mode) ∧
      route.Holds names s' fun m => held m ∨ m = mode ∧ route.Opens names mode := by
  have hnew : (route.addr mode, route.port) ∉ s.fw.leases := fun hmem =>
    hmode ((h.leases mode _ route.port_num).1 hmem).2
  by_cases hreach : route.reach mode = true
  · obtain ⟨r, hr⟩ : ∃ r, s.call route.conf (route.knockEnv mode) (.openPort (route.addr mode) route.port) = .ok r :=
      FwState.call_returns _ h.sane.running (by rintro port hport; cases hport; rwa [route.port_num])
    have hcalled := FwState.call_ok hn h.sane hr
    have hsane := h.sane.called hcalled
    have hcases : (r.val = .ok () ∧ route.Opens names mode ∧
        ∃ lease, r.fw.leases = s.fw.leases.insert (route.addr mode, route.port) lease) ∨
        r.val ≠ .ok () ∧ ¬ route.Opens names mode ∧ r.fw.leases = s.fw.leases := by
      cases hcalled with
      | refreshed hl => exact absurd (Finmap.mem_of_lookup_eq_some hl) hnew
      | added _ _ hs hnft _ => exact .inl ⟨rfl, ⟨hreach, hs, hnft⟩, _, rfl⟩
      | refused _ hwhy =>
        refine .inr ⟨nofun, ?_, rfl⟩
        rintro ⟨-, hs, hnft⟩
        rcases hwhy with hwhy | hwhy
        · exact hwhy hs
        · rw [hnft] at hwhy
          cases hwhy
    refine ⟨_, _, sequence_reached hreach hr, ?_, ⟨hsane.generated, hsane.coherent, hsane.running⟩, ?_⟩
    · rw [Except.mapError_ok_iff]
      rcases hcases with ⟨hval, hopens, -⟩ | ⟨hval, hopens, -⟩
      · exact iff_of_true hval hopens
      · exact iff_of_false hval hopens
    · intro m port hport
      show (route.addr m, port) ∈ r.fw.leases ↔ _
      rcases hcases with ⟨-, hopens, lease, hl⟩ | ⟨-, hopens, hl⟩
      · rw [hl, Finmap.mem_insert, h.leases m port hport, Prod.mk.injEq, route.addr_injective.eq_iff]
        tauto
      · rw [hl, h.leases m port hport]
        tauto
  · refine ⟨_, s, sequence_unreached hreach, ?_, h.sane, fun m port hport => ?_⟩
    · simp [Opens, hreach]
    · simp [h.leases m port hport, Opens, hreach]

theorem Holds.close (h : route.Holds names s held) (mode : ResMode) : ∃ val s',
    route.closeSequence mode s = .ok (val, s') ∧ (val = .ok () ↔ route.Closes mode) ∧
      route.Holds names s' fun m => held m ∧ ¬ (m = mode ∧ route.reach mode = true) := by
  by_cases hreach : route.reach mode = true
  · obtain ⟨r, hr⟩ : ∃ r, s.call route.conf (route.closeEnv mode) (.closePort (route.addr mode) route.port) = .ok r :=
      FwState.call_returns _ h.sane.running (by rintro port hport; cases hport; rwa [route.port_num])
    have hcalled := FwState.call_ok hn h.sane hr
    have hsane := h.sane.called hcalled
    have hleases : r.fw.leases = s.fw.leases.erase (route.addr mode, route.port) := by
      cases hcalled <;> rfl
    refine ⟨_, _, sequence_reached hreach hr, ?_, ⟨hsane.generated, hsane.coherent, hsane.running⟩, ?_⟩
    · rw [Except.mapError_ok_iff]
      cases hcalled with
      | removed h1 h2 _ => exact iff_of_true rfl ⟨hreach, .inl ⟨h1, h2⟩⟩
      | ignored _ hdebug => exact iff_of_true rfl ⟨hreach, .inr hdebug⟩
      | failed hfail hdebug =>
        refine iff_of_false nofun ?_
        rintro ⟨-, ⟨h1, h2⟩ | hdebug'⟩
        · simp [h1, h2] at hfail
        · rw [hdebug] at hdebug'
          cases hdebug'
    · intro m port hport
      show (route.addr m, port) ∈ r.fw.leases ↔ _
      rw [hleases, Finmap.mem_erase, h.leases m port hport, ne_eq, Prod.mk.injEq, route.addr_injective.eq_iff]
      tauto
  · refine ⟨_, s, sequence_unreached hreach, ?_, h.sane, fun m port hport => ?_⟩
    · simp [Closes, hreach]
    · simp [h.leases m port hport, hreach]

end

/-! ## The commands -/

/-- `run_knock`, and then `run_close` with the same arguments, as far as the server is concerned. -/
def knock (route : Route) (conf : Config) (it : IterOrder ResourceId) (server : CommandServer)
    (user : Option UserId) : FwState → Except Panic (Except String Unit × FwState) :=
  runKnock conf it server route.num user fun _ => route.knockSequence

def close (route : Route) (conf : Config) (it : IterOrder ResourceId) (server : CommandServer)
    (user : Option UserId) : FwState → Except Panic (Except String Unit × FwState) :=
  runClose conf it server route.num user fun _ => route.closeSequence

section
variable {p q : ExceptT String (StateT FwState (Except Panic)) Unit} {val : Except String Unit} {e : String}

theorem seq_ok (hp : p s = .ok (.ok (), s')) : (p >>= fun _ => q) s = q s' := by
  show Except.bind (p s) _ = _
  rw [hp]
  rfl

theorem seq_error (hp : p s = .ok (.error e, s')) : (p >>= fun _ => q) s = .ok (.error e, s') := by
  show Except.bind (p s) _ = _
  rw [hp]
  rfl

theorem tryBoth_run {val' : Except String Unit} {s'' : FwState} (hp : p s = .ok (val, s'))
    (hq : q s' = .ok (val', s'')) : ∃ val'', tryBoth p q s = .ok (val'', s'') ∧
      (val'' = .ok () ↔ val = .ok () ∨ val' = .ok ()) := by
  let val'' : Except String Unit := if val = .ok () ∨ val' = .ok () then .ok () else val
  refine ⟨val'', ?_, ?_⟩
  · show Except.bind (Except.bind (p s) _) _ = _
    rw [hp]
    show Except.bind (Except.bind (q s') _) _ = _
    rw [hq]
    rcases val with e | _ <;> rcases val' with e' | _ <;> rfl
  · simp only [val'']
    split
    · exact iff_of_true rfl ‹_›
    · rename_i hnot
      exact iff_of_false (fun hval => hnot (.inl hval)) hnot

theorem tryInTurn_run (hp : p s = .ok (val, s')) :
    tryInTurn p q s = if val = .ok () then .ok (.ok (), s') else q s' := by
  show Except.bind (Except.bind (p s) _) _ = _
  rw [hp]
  rcases val with e | _ <;> rfl

end

theorem Holds.congr {held' : ResMode → Prop} (h : route.Holds names s held) (hiff : ∀ m, held m ↔ held' m) :
    route.Holds names s held' where
  sane := h.sane
  leases := fun mode port hport => by rw [h.leases mode port hport, hiff]

section
variable {conf : Config} {it : IterOrder ResourceId} {server : CommandServer} {user : Option UserId}
  {seq : CommandSeq} (hn : readConfiguration route.conf = .ok names) (hctl : route.conf.port.port ≠ route.num)
  (hseq : server.seq conf it route.num user = .ok seq)
include hn hctl hseq

/-- A knock that succeeds opens the port for all families that it contacts and can open it for. -/
theorem Holds.runKnock (h : route.Holds names s fun _ => False) : ∃ val s₁,
    route.knock conf it server user s = .ok (val, s₁) ∧
      (val = .ok () → route.Holds names s₁ fun m => server.tries m = true ∧ route.Opens names m) ∧
      (server.TriesBoth → route.Opens names .ipv4 → val = .ok ()) := by
  rcases server.families hseq (fun _ => route.knockSequence) (fun _ => route.closeSequence) with
    ⟨mode, htries, hnot, hknock, -⟩ | ⟨htries, hnot, hknock, -⟩ | ⟨htries, hboth, hknock, -⟩
  · obtain ⟨val, s₁, hrun, hval, hs₁⟩ := h.knock hn hctl mode id
    refine ⟨val, s₁, ?_, fun _ => hs₁.congr fun m => ?_, fun hboth => absurd hboth hnot⟩
    · rw [Route.knock, hknock, hrun]
    · rw [htries, false_or]
      constructor
      · rintro ⟨rfl, ho⟩
        exact ⟨rfl, ho⟩
      · rintro ⟨rfl, ho⟩
        exact ⟨rfl, ho⟩
  · obtain ⟨val6, s6, hrun6, hval6, hs6⟩ := h.knock hn hctl .ipv6 id
    obtain ⟨val4, s4, hrun4, hval4, hs4⟩ := hs6.knock hn hctl .ipv4 (by simp)
    rcases val6 with e | _
    · exact ⟨.error e, s6, by rw [Route.knock, hknock, seq_error hrun6], nofun, fun hboth => absurd hboth hnot⟩
    · refine ⟨val4, s4, by rw [Route.knock, hknock, seq_ok hrun6, hrun4], fun _ => hs4.congr fun m => ?_,
        fun hboth => absurd hboth hnot⟩
      rw [htries]
      rcases m with _ | _ <;> simp
  · obtain ⟨val6, s6, hrun6, hval6, hs6⟩ := h.knock hn hctl .ipv6 id
    obtain ⟨val4, s4, hrun4, hval4, hs4⟩ := hs6.knock hn hctl .ipv4 (by simp)
    obtain ⟨val, hrun, hval⟩ := tryBoth_run hrun6 hrun4
    refine ⟨val, s4, by rw [Route.knock, hknock, hrun], fun _ => hs4.congr fun m => ?_, fun _ hopens => ?_⟩
    · rw [htries]
      rcases m with _ | _ <;> simp
    · exact hval.2 (.inr (hval4.2 hopens))

/-- A close that succeeds closes the port for the families that it contacts, which are those of the knock, unless it
stops after IPv6. -/
theorem Holds.runClose (h : route.Holds names s held) : ∃ val s₂,
    route.close conf it server user s = .ok (val, s₂) ∧
      (val = .ok () → route.Holds names s₂ fun m => held m ∧ ¬ (server.tries m = true ∧ route.reach m = true ∧
        ¬ (m = .ipv4 ∧ server.TriesBoth ∧ route.Closes .ipv6))) ∧
      (server.TriesBoth → route.Closes .ipv6 → val = .ok ()) := by
  rcases server.families hseq (fun _ => route.knockSequence) (fun _ => route.closeSequence) with
    ⟨mode, htries, hnot, -, hclose⟩ | ⟨htries, hnot, -, hclose⟩ | ⟨htries, hboth, -, hclose⟩
  · obtain ⟨val, s₂, hrun, hval, hs₂⟩ := h.close hn hctl mode
    refine ⟨val, s₂, by rw [Route.close, hclose, hrun], fun _ => hs₂.congr fun m => ?_,
      fun hboth => absurd hboth hnot⟩
    rw [htries]
    constructor
    · rintro ⟨hm, hnm⟩
      refine ⟨hm, ?_⟩
      rintro ⟨rfl, hreach, -⟩
      exact hnm ⟨rfl, hreach⟩
    · rintro ⟨hm, hnm⟩
      refine ⟨hm, ?_⟩
      rintro ⟨rfl, hreach⟩
      exact hnm ⟨rfl, hreach, fun hstop => hnot hstop.2.1⟩
  · obtain ⟨val6, s6, hrun6, hval6, hs6⟩ := h.close hn hctl .ipv6
    obtain ⟨val4, s4, hrun4, hval4, hs4⟩ := hs6.close hn hctl .ipv4
    rcases val6 with e | _
    · exact ⟨.error e, s6, by rw [Route.close, hclose, seq_error hrun6], nofun, fun hboth => absurd hboth hnot⟩
    · refine ⟨val4, s4, by rw [Route.close, hclose, seq_ok hrun6, hrun4], fun _ => hs4.congr fun m => ?_,
        fun hboth => absurd hboth hnot⟩
      rw [htries]
      rcases m with _ | _ <;> simp [hnot]
  · obtain ⟨val6, s6, hrun6, hval6, hs6⟩ := h.close hn hctl .ipv6
    by_cases hcloses : route.Closes .ipv6
    · refine ⟨.ok (), s6, ?_, fun _ => hs6.congr fun m => ?_, fun _ _ => rfl⟩
      · rw [Route.close, hclose, tryInTurn_run hrun6, if_pos (hval6.2 hcloses)]
      · rw [htries]
        rcases m with _ | _ <;> simp [hboth, hcloses]
    · obtain ⟨val4, s4, hrun4, hval4, hs4⟩ := hs6.close hn hctl .ipv4
      refine ⟨val4, s4, ?_, fun _ => hs4.congr fun m => ?_, fun _ hc => absurd hc hcloses⟩
      · rw [Route.close, hclose, tryInTurn_run hrun6, if_neg fun hval => hcloses (hval6.1 hval), hrun4]
      · rw [htries]
        rcases m with _ | _ <;> simp [hcloses]

end

/-- In every state of the firewall in which the client has no lease for the port: a knock and a close with the same
arguments that both succeed leave no lease of the client for the port, exactly if it is not so that the host is a
name without flags for which the knock opens IPv4 and the close closes IPv6. -/
theorem close_undoes_knock_iff (hn : NftNames.get route.conf = .ok names) {env : NftEnv} {k k' : Kernel}
    {fw : NftFirewall} (hnew : NftFirewall.new route.conf env k = .ok (fw, k')) (inputs : List (FwCall × NftEnv))
    (hrun : runAll (FwState.step route.conf) ⟨fw, k', []⟩ inputs = .ok s)
    (hctl : route.conf.port.port ≠ route.num)
    (hfree : ∀ mode port, port.num = route.num → (route.addr mode, port) ∉ s.fw.leases)
    (conf : Config) (it : IterOrder ResourceId) (server : CommandServer) (user : Option UserId) :
    (∀ s₁ s₂, route.knock conf it server user s = .ok (.ok (), s₁) →
      route.close conf it server user s₁ = .ok (.ok (), s₂) →
      ∀ mode port, port.num = route.num → (route.addr mode, port) ∉ s₂.fw.leases) ↔
    ¬ (server.TriesBoth ∧ (∃ seq, server.seq conf it route.num user = .ok seq) ∧ route.Opens names .ipv4 ∧
      route.Closes .ipv6) := by
  have hn := FwState.readConfiguration_eq hn
  have hsane : s.Sane names := runAll_inv' (fun s i s' hs => hs.step hn) (FwState.Sane.new hn hnew).1 hrun
  have hs : route.Holds names s fun _ => False :=
    ⟨hsane, fun mode port hport => by simp [hfree mode port hport]⟩
  rcases hseq : server.seq conf it route.num user with e | seq
  · refine iff_of_true (fun s₁ s₂ hknock => ?_) (by simp)
    rw [knock, runKnock, hseq] at hknock
    cases hknock
  obtain ⟨val, s₁, hknock, hs₁, hok⟩ := hs.runKnock hn hctl hseq
  constructor
  · rintro hclosed ⟨hboth, -, hopens, hcloses⟩
    obtain rfl := hok hboth hopens
    obtain ⟨val, s₂, hclose, hs₂, hok₂⟩ := (hs₁ rfl).runClose hn hctl hseq
    obtain rfl := hok₂ hboth hcloses
    have htries : server.tries .ipv4 = true := by simp [CommandServer.tries, hboth.1, hboth.2]
    refine hclosed s₁ s₂ hknock hclose .ipv4 route.port route.port_num ?_
    exact ((hs₂ rfl).leases _ _ route.port_num).2 ⟨rfl, ⟨htries, hopens⟩, fun h => h.2.2 ⟨rfl, hboth, hcloses⟩⟩
  · intro hnot s₁' s₂' hknock' hclose' mode port hport hmem
    rw [hknock'] at hknock
    cases hknock
    obtain ⟨val, s₂, hclose, hs₂, -⟩ := (hs₁ rfl).runClose hn hctl hseq
    rw [hclose'] at hclose
    cases hclose
    obtain ⟨-, ⟨htries, hopens⟩, hleft⟩ := ((hs₂ rfl).leases mode port hport).1 hmem
    refine hleft ⟨htries, hopens.1, ?_⟩
    rintro ⟨rfl, hboth, hcloses⟩
    exact hnot ⟨hboth, ⟨seq, rfl⟩, hopens, hcloses⟩

/-! ## A host with both families -/

noncomputable def sample : Route where
  conf := sampleConf
  portType := .tcp
  num := 22
  addr4 := ⟨192, 0, 2, 7⟩
  addr6 := ⟨0x2001, 0xdb8, 0, 0, 0, 0, 0, 7⟩
  reach _ := true
  knockEnv _ := sampleEnv 1 []
  closeEnv _ := sampleEnv 2 []

/-- A host name, without flags. -/
def sampleHost : CommandServer := ⟨"example.com".toList, .ofFlags false false, none, false, false⟩

noncomputable def sampleOrder : IterOrder ResourceId := .ofKeys [⟨2⟩] (by decide)

/-- The knock opens the port for both addresses, and the close only closes it for IPv6. -/
theorem close_leaves_ipv4 : ∃ fw k' s₁ s₂, NftFirewall.new sampleConf (sampleEnv 0 []) .empty = .ok (fw, k') ∧
    (∀ mode port, port.num = 22 → (sample.addr mode, port) ∉ fw.leases) ∧
    sample.knock sampleServer sampleOrder sampleHost (some ⟨1⟩) ⟨fw, k', []⟩ = .ok (.ok (), s₁) ∧
    sample.close sampleServer sampleOrder sampleHost (some ⟨1⟩) s₁ = .ok (.ok (), s₂) ∧
    (sample.addr .ipv4, .tcp 22) ∈ s₂.fw.leases := by
  refine ⟨_, _, _, _, rfl, fun _ _ _ => Finmap.notMem_empty, rfl, rfl, ?_⟩
  exact Finmap.mem_of_lookup_eq_some (s := Finmap.erase _ _) rfl

/-- With both flags the close contacts both families. -/
theorem close_undoes_knock_iff_bothFlags : ∃ fw k',
    NftFirewall.new sampleConf (sampleEnv 0 []) .empty = .ok (fw, k') ∧
    ∀ s₁ s₂, sample.knock sampleServer sampleOrder { sampleHost with addrMode := .ofFlags true true } (some ⟨1⟩)
        ⟨fw, k', []⟩ = .ok (.ok (), s₁) →
      sample.close sampleServer sampleOrder { sampleHost with addrMode := .ofFlags true true } (some ⟨1⟩) s₁ =
        .ok (.ok (), s₂) →
      ∀ mode port, port.num = sample.num → (sample.addr mode, port) ∉ s₂.fw.leases := by
  have hnew : NftFirewall.new sample.conf (sampleEnv 0 []) .empty = .ok (_, _) := rfl
  refine ⟨_, _, hnew, ?_⟩
  refine (@close_undoes_knock_iff sample sampleNames _ rfl _ _ _ _ hnew [] rfl (by decide)
    (fun _ _ _ => Finmap.notMem_empty) _ _ _ _).2 ?_
  rintro ⟨⟨hmode, -⟩, -⟩
  cases hmode

end Route

end Letmein
