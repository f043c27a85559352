import Letmein.KnockClose
import Letmein.Lib.NetRound

/-!
# Hosts that are given as addresses

A host that is the text form of an address is that address, for the commands and for `resolve`: nothing is looked up,
only the address's own family is contacted, and a close contacts what a knock has contacted (`literal_host`).
-/

namespace Letmein

/-- The family of an address. -/
def ResMode.of : IpAddr → ResMode
  | .v4 _ => .ipv4
  | .v6 _ => .ipv6

theorem ResMode.admits_iff {mode : ResMode} {addr : IpAddr} : mode.admits addr = true ↔ mode = .of addr := by
  cases mode <;> cases addr <;> simp [ResMode.admits, ResMode.of]

theorem resolve_ok_iff {lookup : Text → ResMode → Except String (List IpAddr)} {host : Text} {mode : ResMode}
    {addr x : IpAddr} (h : IpAddr.fromStr host = some addr) :
    resolve lookup host mode = .ok x ↔ mode = .of addr ∧ x = addr := by
  unfold resolve
  rw [h]
  cases mode <;> cases addr <;> simp [ResMode.of, eq_comm]

namespace CommandServer
variable {server : CommandServer} {addr : IpAddr}

theorem not_triesBoth (h : IpAddr.fromStr server.addr = some addr) : ¬ server.TriesBoth := by
  rintro ⟨-, hname⟩
  rw [h] at hname
  cases hname

/-- Without flags only the family of the address is contacted. -/
theorem family {m : Type → Type} [Monad m] (h : IpAddr.fromStr server.addr = some addr)
    (hmode : server.addrMode = .tryBoth) {conf : Config} {it : IterOrder ResourceId} {port : UInt16}
    {user : Option UserId} {seq : CommandSeq} (hseq : server.seq conf it port user = .ok seq)
    (knock close : CommandSeq → ResMode → ExceptT String m Unit) :
    runKnock conf it server port user knock = knock seq (.of addr) ∧
      runClose conf it server port user close = close seq (.of addr) := by
  have htries : ∀ m', server.tries m' = true ↔ m' = .of addr := by
    intro m'
    rw [tries, hmode, h]
    exact ResMode.admits_iff
  rcases server.families hseq knock close with ⟨mode, hone, -, hknock, hclose⟩ | ⟨hall, -⟩ | ⟨-, hboth, -⟩
  · obtain rfl : mode = .of addr := (htries mode).1 ((hone mode).2 rfl)
    exact ⟨hknock, hclose⟩
  · have h6 := (htries .ipv6).1 (hall .ipv6)
    have h4 := (htries .ipv4).1 (hall .ipv4)
    rw [← h4] at h6
    cases h6
  · exact absurd hboth (not_triesBoth h)

end CommandServer

namespace Route
variable {route : Route} {names : NftNames} {s : FwState}

/-- A close undoes a knock, unless the host is a name. -/
theorem Holds.undone (hn : readConfiguration route.conf = .ok names) (hctl : route.conf.port.port ≠ route.num)
    (h : route.Holds names s fun _ => False) {conf : Config} {it : IterOrder ResourceId} {server : CommandServer}
    {user : Option UserId} (hnot : ¬ server.TriesBoth) {s₁ s₂ : FwState}
    (hknock : route.knock conf it server user s = .ok (.ok (), s₁))
    (hclose : route.close conf it server user s₁ = .ok (.ok (), s₂)) : route.Holds names s₂ fun _ => False := by
  rcases hseq : server.seq conf it route.num user with e | seq
  · rw [Route.knock, Letmein.runKnock, hseq] at hknock
    cases hknock
  obtain ⟨val, s₁', hrun, hs₁, -⟩ := h.runKnock hn hctl hseq
  rw [hknock] at hrun
  cases hrun
  obtain ⟨val, s₂', hrun, hs₂, -⟩ := (hs₁ rfl).runClose hn hctl hseq
  rw [hclose] at hrun
  cases hrun
  refine (hs₂ rfl).congr fun m => ⟨?_, False.elim⟩
  rintro ⟨⟨htries, hopens⟩, hleft⟩
  exact hleft ⟨htries, hopens.1, fun hstop => hnot hstop.2.1⟩

end Route

/-- For every address and a host that is its text: the host resolves to the address and only for the address's family,
whatever is known of it as a name; without flags both commands make one sequence, for this family; and with any flags
and for any port but the control port, where the client had no lease for the port, a close that succeeds after a knock
that has succeeded leaves none. -/
theorem literal_host (addr : IpAddr) (server : CommandServer) (haddr : server.addr = addr.text) :
    (∀ lookup mode x, resolve lookup server.addr mode = .ok x ↔ mode = .of addr ∧ x = addr) ∧
    (server.addrMode = .tryBoth → ∀ (m : Type → Type) [Monad m] (conf : Config) (it : IterOrder ResourceId)
      (port : UInt16) (user : Option UserId) (seq : CommandSeq)
      (knock close : CommandSeq → ResMode → ExceptT String m Unit), server.seq conf it port user = .ok seq →
      runKnock conf it server port user knock = knock seq (.of addr) ∧
      runClose conf it server port user close = close seq (.of addr)) ∧
    ∀ (route : Route) (names : NftNames) (env : NftEnv) (k k' : Kernel) (fw : NftFirewall)
      (inputs : List (FwCall × NftEnv)) (s : FwState), NftNames.get route.conf = .ok names →
      NftFirewall.new route.conf env k = .ok (fw, k') →
      runAll (FwState.step route.conf) ⟨fw, k', []⟩ inputs = .ok s → route.conf.port.port ≠ route.num →
      (∀ mode port, port.num = route.num → (route.addr mode, port) ∉ s.fw.leases) →
      ∀ (conf : Config) (it : IterOrder ResourceId) (user : Option UserId) (s₁ s₂ : FwState),
      route.knock conf it server user s = .ok (.ok (), s₁) → route.close conf it server user s₁ = .ok (.ok (), s₂) →
      ∀ mode port, port.num = route.num → (route.addr mode, port) ∉ s₂.fw.leases := by
  have hread : IpAddr.fromStr server.addr = some addr := by rw [haddr, addr.fromStr_text]
  refine ⟨fun lookup mode x => resolve_ok_iff hread, ?_, ?_⟩
  · intro hmode m _ conf it port user seq knock close hseq
    exact CommandServer.family hread hmode hseq knock close
  · intro route names env k k' fw inputs s hn hnew hrun hctl hfree conf it user s₁ s₂ hknock hclose mode port hport hmem
    have hn := FwState.readConfiguration_eq hn
    have hsane : s.Sane names := runAll_inv' (fun s i s' hs => hs.step hn) (FwState.Sane.new hn hnew).1 hrun
    have hs : route.Holds names s fun _ => False :=
      ⟨hsane, fun mode port hport => by simp [hfree mode port hport]⟩
    have hundone := hs.undone hn hctl (CommandServer.not_triesBoth hread) hknock hclose
    exact ((hundone.leases mode port hport).1 hmem).2

def sampleLiteral : CommandServer := ⟨"2001:db8::7:0:1".toList, .tryBoth, none, false, false⟩

theorem sampleLiteral_runs : ∃ fw k' s₁ s₂, NftFirewall.new sampleConf (sampleEnv 0 []) .empty = .ok (fw, k') ∧
    (∀ mode port, port.num = 22 → (Route.sample.addr mode, port) ∉ fw.leases) ∧
    Route.sample.knock sampleServer Route.sampleOrder sampleLiteral (some ⟨1⟩) ⟨fw, k', []⟩ = .ok (.ok (), s₁) ∧
    Route.sample.close sampleServer Route.sampleOrder sampleLiteral (some ⟨1⟩) s₁ = .ok (.ok (), s₂) ∧
    (Route.sample.addr .ipv6, .tcp 22) ∈ s₁.fw.leases :=
  ⟨_, _, _, _, rfl, fun _ _ _ => Finmap.notMem_empty, rfl, rfl, Finmap.mem_of_lookup_eq_some rfl⟩

/-- No name service is asked for a host that is an IPv6 address. A knock opens the port over IPv6, and a close closes
it. -/
theorem literal_host_sample :
    resolve (fun _ _ => .error "No name service.") sampleLiteral.addr .ipv6 =
      .ok (.v6 ⟨0x2001, 0xdb8, 0, 0, 0, 7, 0, 1⟩) ∧
    ∃ fw k' s₁ s₂, NftFirewall.new sampleConf (sampleEnv 0 []) .empty = .ok (fw, k') ∧
      Route.sample.knock sampleServer Route.sampleOrder sampleLiteral (some ⟨1⟩) ⟨fw, k', []⟩ = .ok (.ok (), s₁) ∧
      Route.sample.close sampleServer Route.sampleOrder sampleLiteral (some ⟨1⟩) s₁ = .ok (.ok (), s₂) ∧
      (Route.sample.addr .ipv6, .tcp 22) ∈ s₁.fw.leases ∧
      ∀ mode port, port.num = 22 → (Route.sample.addr mode, port) ∉ s₂.fw.leases := by
  obtain ⟨fw, k', s₁, s₂, hnew, hfree, hknock, hclose, hopen⟩ := sampleLiteral_runs
  obtain ⟨hresolve, -, hclosed⟩ :=
    literal_host (.v6 ⟨0x2001, 0xdb8, 0, 0, 0, 7, 0, 1⟩) sampleLiteral (by decide)
  exact ⟨(hresolve _ _ _).2 ⟨rfl, rfl⟩, fw, k', s₁, s₂, hnew, hknock, hclose, hopen, hclosed Route.sample sampleNames
    (sampleEnv 0 []) .empty k' fw [] _ rfl hnew rfl (by decide) hfree _ _ _ s₁ s₂ hknock hclose⟩

end Letmein
