import Letmein.ConfUnique
import Letmein.FwRequests

/-!
# The protocols that the firewall daemon opens

A request is checked for its port number only. `only_enabled_protocols` is what follows for runs in which nobody
asks for a protocol that the resource of the port does not have; `opens_other_protocol` is a run in which
somebody does.
-/

namespace Letmein

/-- The configuration has a resource with this port and this protocol. -/
def Enabled (conf : Config) : SingleLeasePort → Prop
  | .tcp port => ∃ id udp users, conf.resource id = some (.port port true udp users)
  | .udp port => ∃ id tcp users, conf.resource id = some (.port port tcp true users)

/-- The rule accepts packets from one address to the port. -/
def AcceptsFromAddress (r : Rule) (port : SingleLeasePort) : Prop :=
  ∃ saddr, r.expr = [saddr, statementMatchDport port, .accept]

/-- A request to open a port that passes the checks asks for protocols of a resource with that port. -/
def AsksEnabled (conf : Config) (ev : FwdEvent) : Prop :=
  ∀ addr port, FwdState.Caused conf (.openPort addr port) ev → ∀ p ∈ port.singles, Enabled conf p

theorem statementMatchDport_injective {p q : SingleLeasePort} (h : statementMatchDport p = statementMatchDport q) :
    p = q := by
  rcases p with p | p <;> rcases q with q | q <;>
    simp only [statementMatchDport, Statement.matchEq.injEq, Expression.number.injEq, UInt16.toNat_inj] at h
  · rw [h.2.2]
  · exact absurd h.1 (by decide)
  · exact absurd h.1 (by decide)
  · rw [h.2.2]

theorem port_of_acceptsFromAddress {names : NftNames} {addr : Option IpAddr} {p q : SingleLeasePort}
    (h : AcceptsFromAddress (ruleOf names addr q) p) : addr.isSome ∧ p = q := by
  obtain ⟨saddr, h⟩ := h
  unfold ruleOf saddrOf at h
  split at h
  · split at h
    · simp only [List.cons_append, List.nil_append, List.cons.injEq, and_true] at h
      exact ⟨rfl, statementMatchDport_injective h.2.symm⟩
    · simp at h
  · simp at h

namespace FwdState

variable {conf : Config} {names : NftNames} {s s' : FwdState} {input : FwdEvent × NftEnv}

/-- The rules and the leases for addresses are for protocols that are enabled. -/
structure OnlyEnabled (conf : Config) (names : NftNames) (s : FwdState) : Prop where
  sane : s.toFwState.Sane names
  leases : ∀ id ∈ s.fw.leases, ∀ p ∈ id.2.singles, Enabled conf p
  rules : ∀ x ∈ s.kernel.content names.chain, ∀ p, AcceptsFromAddress x p → Enabled conf p

theorem enabled_of_mem_idRules {id : LeaseId} {x : Rule} {p : SingleLeasePort} (hx : x ∈ idRules names id)
    (hp : AcceptsFromAddress x p) : p ∈ id.2.singles := by
  obtain ⟨q, hq, rfl⟩ := mem_idRules.1 hx
  obtain ⟨-, rfl⟩ := port_of_acceptsFromAddress hp
  exact hq

theorem OnlyEnabled.step (hn : readConfiguration conf = .ok names) (hs : s.OnlyEnabled conf names)
    (hask : AsksEnabled conf input.1) (h : s.step conf input = .ok s') : s'.OnlyEnabled conf names := by
  rcases step_ok h with rfl | ⟨call, nr, hcause, hcall, rfl⟩
  · exact hs
  have hcalled := FwState.call_ok hn hs.sane hcall
  refine ⟨hs.sane.called hcalled, fun id hid => ?_, fun x hx p hp => ?_⟩
  · rcases hcalled.leases hid with hid | rfl
    · exact hs.leases id hid
    · exact hask id.1 id.2 hcause
  · rcases hcalled.rules hx with hx | hx | hx | ⟨addr, port, rfl, hx⟩
    · exact hs.rules x hx p hp
    · obtain ⟨q, rfl⟩ := NftFirewall.mem_ctrlRules hx
      cases (port_of_acceptsFromAddress hp).1
    · obtain ⟨id, hid, hx⟩ := mem_leasesRules.1 hx
      exact hs.leases id hid p (enabled_of_mem_idRules hx hp)
    · exact hask addr port hcause p (enabled_of_mem_idRules hx hp)

theorem OnlyEnabled.new {env : NftEnv} {k k' : Kernel} {fw : NftFirewall} (hn : readConfiguration conf = .ok names)
    (h : NftFirewall.new conf env k = .ok (fw, k')) : (⟨fw, k'⟩ : FwdState).OnlyEnabled conf names := by
  obtain ⟨hsane, hempty, hcontent⟩ := FwState.Sane.new hn h
  refine ⟨hsane, fun id hid => ?_, fun x hx p hp => ?_⟩
  · rw [show fw.leases = ∅ from hempty] at hid
    exact (Finmap.notMem_empty hid).elim
  · rw [hcontent] at hx
    obtain ⟨q, rfl⟩ := NftFirewall.mem_ctrlRules hx
    cases (port_of_acceptsFromAddress hp).1

/-- As long as every request to open a port that passes the checks asks for protocols of a resource with that
port, every rule for an address is for a port and a protocol of a resource. -/
theorem only_enabled_protocols (hn : NftNames.get conf = .ok names) {env : NftEnv} {k k' : Kernel}
    {fw : NftFirewall} (hnew : NftFirewall.new conf env k = .ok (fw, k')) (inputs : List (FwdEvent × NftEnv))
    (hask : ∀ input ∈ inputs, AsksEnabled conf input.1) :
    ∃ s, runAll (step conf) ⟨fw, k'⟩ inputs = .ok s ∧
      ∀ x ∈ s.kernel.rules, x.chainId = names.chain → ∀ p, AcceptsFromAddress x p → Enabled conf p := by
  have hn := FwState.readConfiguration_eq hn
  obtain ⟨s, hrun, hs⟩ := runAll_returns (P := OnlyEnabled conf names) (fun s input hin hs => by
    obtain ⟨s', hs'⟩ := step_returns hs.sane.running input
    exact ⟨s', hs', hs.step hn (hask input hin) hs'⟩) (OnlyEnabled.new hn hnew)
  refine ⟨s, hrun, fun x hx hchain p hp => ?_⟩
  exact hs.rules x.erase (Kernel.mem_content.2 ⟨x, hx, hchain, rfl⟩) p hp

/-! ## A request for another protocol -/

/-- Port 22 is a resource for TCP. -/
def fwText : Text :=
  ("[RESOURCES]\n1 = port:22\n[NFTABLES]\nfamily = inet\ntable = filter\n" ++ "chain-input = LETMEIN-INPUT\n").toList

def fwIni : Ini := (Ini.parseStr {} fwText).2

noncomputable def fwOrder : IterOrder Text := .ofKeys ["1".toList] (by decide)

theorem fwText_parse : Ini.parseStr {} fwText = (.ok (), fwIni) := by
  have h : (Ini.parseStr {} fwText).1 = .ok () := by decide +kernel
  rw [fwIni, ← h]

set_option maxRecDepth 20000 in
theorem fwIni_load : @Config.loadIni asciiStd fwIni (.new .server) fwOrder (anyOrder _) = (.ok (), fwConf) := by
  let := asciiStd
  simp only [Config.loadIni, readIni]
  rfl

theorem not_enabled_udp : ¬ Enabled fwConf (.udp 22) := by
  rintro ⟨id, tcp, users, h⟩
  have hid : id = ⟨1⟩ := Finmap.mem_singleton id ⟨1⟩ _ |>.1 (Finmap.mem_of_lookup_eq_some h)
  subst hid
  rw [Config.resource, fwConf, Finmap.lookup_singleton_eq] at h
  cases h

/-- A request for TCP and UDP opens both, although the resource is for TCP only. -/
theorem opens_other_protocol :
    Ini.parseStr {} fwText = (.ok (), fwIni) ∧
    @Config.loadIni asciiStd fwIni (.new .server) fwOrder (anyOrder _) = (.ok (), fwConf) ∧
    ∃ fw k' s, NftFirewall.new fwConf (sampleEnv 0 []) .empty = .ok (fw, k') ∧
      runAll (step fwConf) ⟨fw, k'⟩ [(fwRequest .tcpUdp, sampleEnv 1 [])] = .ok s ∧
      ¬ ∀ x ∈ s.kernel.rules, x.chainId = sampleNames.chain → ∀ p, AcceptsFromAddress x p → Enabled fwConf p := by
  refine ⟨fwText_parse, fwIni_load, _, _, _, rfl, rfl, fun hall => ?_⟩
  -- the third rule, after the one of the control port and the one for TCP
  have hrule := hall { ruleOf sampleNames (some (.v4 ⟨192, 0, 2, 7⟩)) (.udp 22) with handle := some 3 }
    (.tail _ (.tail _ (.head _))) rfl
  exact not_enabled_udp (hrule (.udp 22) ⟨_, rfl⟩)

theorem only_enabled_protocols_sample : AsksEnabled fwConf (fwRequest .tcp) ∧
    ∃ fw k', NftFirewall.new fwConf (sampleEnv 0 []) .empty = .ok (fw, k') ∧
      ∃ s, runAll (step fwConf) ⟨fw, k'⟩ [(fwRequest .tcp, sampleEnv 1 [])] = .ok s ∧
        ∀ x ∈ s.kernel.rules, x.chainId = sampleNames.chain → ∀ p, AcceptsFromAddress x p → Enabled fwConf p := by
  have hasks : AsksEnabled fwConf (fwRequest .tcp) := by
    rintro addr port ⟨recv, hrecv, msg, hmsg, hcall, -⟩ p hp
    cases hrecv
    cases hmsg
    cases hcall
    obtain rfl := List.mem_singleton.1 hp
    exact ⟨⟨1⟩, false, [], rfl⟩
  have hnew : NftFirewall.new fwConf (sampleEnv 0 []) .empty = .ok (_, _) := rfl
  refine ⟨hasks, _, _, hnew, only_enabled_protocols rfl hnew _ fun input hin => ?_⟩
  rw [List.mem_singleton.1 hin]
  exact hasks

end FwdState

end Letmein
