import Letmein.FwServer
import Letmein.NftRuns

/-!
# Every lease is really open

`openPort` on an existing lease only resets its timeout and trusts that its rules are in the kernel.
They are, whatever fails and whether or not errors are ignored: a removal takes rules of the removed
keys only, and two keys that share a rule are one key when all requests for a port number ask for the
same protocols (`Uniform`).
-/

namespace Letmein

/-- The chain accepts packets from the address to the port. -/
def Accepts (names : NftNames) (k : Kernel) (addr : IpAddr) (port : SingleLeasePort) : Prop :=
  ∃ r ∈ k.rules, r.chainId = names.chain ∧ ∃ saddr, statementMatchSaddr names.family addr = .ok saddr ∧
    r.expr = [saddr, statementMatchDport port, .accept]

/-- Keys for one port number have the same variant. -/
def Uniform (variant : UInt16 → LeasePort) (m : LeaseMap) : Prop := ∀ id ∈ m, id.2 = variant id.2.num

theorem mem_sub_of_notMem {C : Multiset Rule} {R : List Rule} {r : Rule} (hr : r ∈ C) (hR : r ∉ R) :
    r ∈ C - R := by
  rw [Multiset.mem_sub, Multiset.coe_count, List.count_eq_zero.2 hR]
  exact Multiset.count_pos.2 hr

namespace FwState

variable {conf : Config} {names : NftNames} {variant : UInt16 → LeasePort} {s s' : FwState}
  {input : FwCall × NftEnv}

structure Installed (names : NftNames) (variant : UInt16 → LeasePort) (s : FwState) : Prop where
  uniform : Uniform variant s.fw.leases
  rules : ∀ id ∈ s.fw.leases, ∀ r ∈ idRules names id, r ∈ s.kernel.content names.chain

def Asks (variant : UInt16 → LeasePort) (call : FwCall) : Prop := ∀ port, call.port? = some port → port = variant port.num

theorem id_eq_of_shared {id id' : LeaseId} {r : Rule} (h : id.2 = variant id.2.num)
    (h' : id'.2 = variant id'.2.num) (hr : r ∈ idRules names id) (hr' : r ∈ idRules names id') : id = id' := by
  obtain ⟨haddr, hnum⟩ := idRules_disjoint hr hr'
  refine Prod.ext haddr ?_
  rw [h, h', hnum]

theorem Installed.step (hn : readConfiguration conf = .ok names) (hs : s.Sane names)
    (h : s.Installed names variant) (hask : Asks variant input.1) (hstep : s.step conf input = .ok s') :
    s'.Installed names variant := by
  obtain ⟨call, env⟩ := input
  obtain ⟨r, hr, rfl⟩ := step_ok hn hs hstep
  cases call with
  | openPort addr port =>
    have hport : port = variant port.num := hask port rfl
    have hins : ∀ lease, Uniform variant (s.fw.leases.insert (addr, port) lease) := fun lease id hid => by
      rcases Finmap.mem_insert.1 hid with rfl | hid
      · exact hport
      · exact h.uniform id hid
    cases hr with
    | refreshed hl =>
      refine ⟨hins _, fun id hid => h.rules id ?_⟩
      rcases Finmap.mem_insert.1 hid with rfl | hid
      · exact Finmap.mem_of_lookup_eq_some hl
      · exact hid
    | added hnew _ _ _ hk =>
      refine ⟨hins _, fun id hid x hx => ?_⟩
      dsimp only
      rw [hk, Multiset.mem_add]
      rcases Finmap.mem_insert.1 hid with rfl | hid
      · exact .inl hx
      · exact .inr (h.rules id hid x hx)
    | refused => exact ⟨h.uniform, h.rules⟩
  | closePort addr port =>
    have hport : port = variant port.num := hask port rfl
    have huni : Uniform variant (s.fw.leases.erase (addr, port)) := fun id hid =>
      h.uniform id (Finmap.mem_erase.1 hid).2
    have hkeep : ∀ id ∈ s.fw.leases.erase (addr, port), ∀ x ∈ idRules names id,
        x ∈ s.kernel.content names.chain := fun id hid => h.rules id (Finmap.mem_erase.1 hid).2
    cases hr with
    | removed _ _ hk =>
      refine ⟨huni, fun id hid x hx => ?_⟩
      dsimp only
      rw [hk]
      refine mem_sub_of_notMem (hkeep id hid x hx) fun hx' => ?_
      exact (Finmap.mem_erase.1 hid).1 (id_eq_of_shared (huni id hid) hport hx hx')
    | ignored => exact ⟨huni, hkeep⟩
    | failed => exact ⟨huni, hkeep⟩
  | maintain =>
    have hsub : ∀ {id}, id ∈ (pruneAllLeaseTimeouts env.now env.it s.fw.leases).2 → id ∈ s.fw.leases :=
      Finmap.mem_of_mem_retain
    have huni : Uniform variant (pruneAllLeaseTimeouts env.now env.it s.fw.leases).2 := fun id hid =>
      h.uniform id (hsub hid)
    have hkeep : ∀ id ∈ (pruneAllLeaseTimeouts env.now env.it s.fw.leases).2, ∀ x ∈ idRules names id,
        x ∈ s.kernel.content names.chain := fun id hid => h.rules id (hsub hid)
    cases hr with
    | removed _ hk =>
      refine ⟨huni, fun id hid x hx => ?_⟩
      dsimp only
      rw [hk]
      refine mem_sub_of_notMem (hkeep id hid x hx) fun hx' => ?_
      -- a pruned key that shares the rule would be this key, which was not pruned
      rw [rulesOf_eq_flatMap] at hx'
      obtain ⟨id', hid', hxid'⟩ := List.mem_flatMap.1 hx'
      obtain ⟨lease, hl, ht⟩ := hs.coherent.mem_pruned.1 hid'
      obtain rfl : id = id' :=
        id_eq_of_shared (huni id hid) (h.uniform id' (Finmap.mem_of_lookup_eq_some hl)) hx hxid'
      have hid : id ∈ (pruneAllLeaseTimeouts env.now env.it s.fw.leases).2 := hid
      rw [not_timedOut_of_mem hid hl] at ht
      cases ht
    | ignored => exact ⟨huni, hkeep⟩
    | rebuilt _ _ hk =>
      refine ⟨huni, fun id hid x hx => ?_⟩
      dsimp only
      rw [hk, Multiset.mem_add]
      exact .inr (mem_leasesRules.2 ⟨id, hid, hx⟩)
    | failed => exact ⟨huni, hkeep⟩

theorem accepts_of_mem {k : Kernel} {addr : IpAddr} {port : SingleLeasePort}
    (hs : Supported names.family addr) (h : ruleOf names (some addr) port ∈ k.content names.chain) :
    Accepts names k addr port := by
  obtain ⟨r, hr, hchain, herase⟩ := Kernel.mem_content.1 h
  obtain ⟨st, hst⟩ := hs
  refine ⟨r, hr, hchain, st, hst, ?_⟩
  rw [← Rule.erase_expr, herase, ruleOf, saddrOf, hst]; rfl

theorem Installed.accepts (hs : s.Sane names) (h : s.Installed names variant) {id : LeaseId}
    (hid : id ∈ s.fw.leases) {port : SingleLeasePort} (hport : port ∈ id.2.singles) :
    Accepts names s.kernel id.1 port :=
  accepts_of_mem (hs.coherent.supported id hid) (h.rules id hid _ (mem_idRules.2 ⟨port, hport, rfl⟩))

theorem mem_of_opened {env : NftEnv} {fw : NftFirewall} {k : Kernel} {addr : IpAddr} {port : LeasePort}
    {r : NftRet} (h : NftFirewall.Opened conf names env fw k addr port r) (hval : r.val = .ok ()) :
    (addr, port) ∈ r.fw.leases := by
  cases h with
  | refreshed => exact Finmap.mem_insert.2 (.inl rfl)
  | added => exact Finmap.mem_insert.2 (.inl rfl)
  | refused => cases hval

theorem Installed.ack (hn : readConfiguration conf = .ok names) (hs : s.Sane names)
    (h : s.Installed names variant) {env : NftEnv} {it : IterOrder ResourceId} {msg : FirewallMessage}
    {send : Except String Unit} {r : HandleRet} (hop : msg.operation = .openPort)
    (hvar : leasePort msg.portType msg.port = variant msg.port)
    (hr : handleMessage conf env it (.ok (some msg)) send s.fw s.kernel = .ok r)
    (hack : r.reply = some .newAck) {port : SingleLeasePort}
    (hport : port ∈ (leasePort msg.portType msg.port).singles) :
    Accepts names r.kernel (octetsToAddr msg.addrType msg.addr) port := by
  simp only [handleMessage, hop] at hr
  obtain ⟨addr, lport, nr, hreq, hcall, hval, -, hk⟩ := serveRequest_ack hr hack
  obtain ⟨haddr, -, portType, num, hp, rfl, -, -⟩ := checkRequest_ok hreq
  simp only [FirewallMessage.addr?, FirewallMessage.port?, hop, Option.some.injEq, Prod.mk.injEq] at haddr hp
  obtain ⟨rfl, rfl⟩ := hp
  subst haddr
  have hcall' : s.call conf env (.openPort (octetsToAddr msg.addrType msg.addr)
      (leasePort msg.portType msg.port)) = .ok nr := hcall
  have hstep := step_of_call hcall'
  have hnum : (leasePort msg.portType msg.port).num = msg.port := by cases msg.portType <;> rfl
  have hask : Asks variant (.openPort (octetsToAddr msg.addrType msg.addr) (leasePort msg.portType msg.port)) :=
    fun p hp => by cases hp; rw [hnum]; exact hvar
  have hi := h.step hn hs hask hstep
  have hmem := mem_of_opened (NftFirewall.openPort_ok hn hcall) hval
  rw [hk]
  exact hi.accepts (hs.step hn hstep) hmem hport

/-- In every run, with or without debug mode and whatever fails: the chain accepts every lease; an
open request that is acknowledged is accepted by the chain; and `openPort` that returns an error
changes nothing. -/
theorem lease_rules_installed (hn : NftNames.get conf = .ok names) {env : NftEnv} {k k' : Kernel}
    {fw : NftFirewall} (hnew : NftFirewall.new conf env k = .ok (fw, k')) (variant : UInt16 → LeasePort)
    (inputs : List (FwCall × NftEnv)) (hask : ∀ input ∈ inputs, Asks variant input.1)
    (hrun : runAll (step conf) ⟨fw, k', []⟩ inputs = .ok s) :
    (∀ id lease, s.fw.leases.lookup id = some lease → ∀ port ∈ lease.port.singles,
      Accepts names s.kernel lease.addr port) ∧
    (∀ env it msg send r, msg.operation = .openPort →
      leasePort msg.portType msg.port = variant msg.port →
      handleMessage conf env it (.ok (some msg)) send s.fw s.kernel = .ok r → r.reply = some .newAck →
      ∀ port ∈ (leasePort msg.portType msg.port).singles,
        Accepts names r.kernel (octetsToAddr msg.addrType msg.addr) port) ∧
    (∀ env addr port r e, s.fw.openPort conf env s.kernel addr port = .ok r → r.val = .error e →
      r.fw = s.fw ∧ r.kernel = s.kernel) := by
  have hn := readConfiguration_eq hn
  obtain ⟨hsane, hempty, -⟩ := Sane.new hn hnew
  have hinv : s.Sane names ∧ s.Installed names variant := by
    refine runAll_inv_mem (P := fun s => s.Sane names ∧ s.Installed names variant) ?_ ?_ hrun
    · rintro s input s' hin ⟨hs, hi⟩ hstep
      exact ⟨hs.step hn hstep, hi.step hn hs (hask input hin) hstep⟩
    · refine ⟨hsane, ?_, ?_⟩
      · intro id hid
        rw [show fw.leases = ∅ from hempty] at hid
        exact absurd hid Finmap.notMem_empty
      · intro id hid
        rw [show fw.leases = ∅ from hempty] at hid
        exact absurd hid Finmap.notMem_empty
  obtain ⟨hs, hi⟩ := hinv
  refine ⟨fun id lease hl port hport => ?_, ?_, ?_⟩
  · obtain rfl : lease.id = id := hs.coherent.id id lease hl
    exact hi.accepts hs (Finmap.mem_of_lookup_eq_some hl) hport
  · intro env it msg send r hop hvar hr hack port hport
    exact hi.ack hn hs hop hvar hr hack hport
  · intro env addr port r e hr hval
    cases NftFirewall.openPort_ok hn hr with
    | refreshed => cases hval
    | added => cases hval
    | refused => exact ⟨rfl, rfl⟩

theorem lease_rules_installed_sample : ∃ fw k',
    NftFirewall.new sampleConf (sampleEnv 0 []) .empty = .ok (fw, k') ∧ ∃ s,
    runAll (step sampleConf) ⟨fw, k', []⟩ [(.openPort (.v4 ⟨192, 0, 2, 7⟩) (.tcp 22), sampleEnv 1 []),
      (.openPort (.v4 ⟨192, 0, 2, 8⟩) (.tcp 22), sampleEnv 2 [0])] = .ok s ∧
    Accepts sampleNames s.kernel (.v4 ⟨192, 0, 2, 7⟩) (.tcp 22) := by
  refine ⟨_, _, rfl, ?_⟩
  refine ⟨_, rfl, ?_⟩
  have hnew : NftFirewall.new sampleConf (sampleEnv 0 []) .empty = .ok (_, _) := rfl
  refine (lease_rules_installed rfl hnew .tcp [(.openPort (.v4 ⟨192, 0, 2, 7⟩) (.tcp 22), sampleEnv 1 []),
    (.openPort (.v4 ⟨192, 0, 2, 8⟩) (.tcp 22), sampleEnv 2 [0])] ?_ rfl).1
      (.v4 ⟨192, 0, 2, 7⟩, .tcp 22) ⟨.v4 ⟨192, 0, 2, 7⟩, .tcp 22, 600001⟩ rfl (.tcp 22) List.mem_cons_self
  intro input hin port hport
  rcases List.mem_cons.1 hin with rfl | hin
  · cases hport; rfl
  · obtain rfl := List.mem_singleton.1 hin
    cases hport; rfl

end FwState
end Letmein
