import Letmein.FwProtocols

/-!
# The source addresses that the firewall daemon opens ports for

A request is checked for its address as it was given, and the rules match the address that an IPv4-mapped address
stands for. `RulesOnlyFor P` says that the leases and their rules in the chain are for addresses and ports that satisfy
`P`; a run keeps it as long as every request to open a port does. The all-zeros and all-ones IPv4 addresses pass the
check in their mapped form (`installs_degenerate_match`).
-/

namespace Letmein

/-- The addresses that no rule is to match, those that `addr_check` is about. -/
def degenerateAddrs : List IpAddr :=
  [.v4 ⟨0, 0, 0, 0⟩, .v4 ⟨255, 255, 255, 255⟩, .v6 ⟨0, 0, 0, 0, 0, 0, 0, 0⟩,
    .v6 ⟨0xFFFF, 0xFFFF, 0xFFFF, 0xFFFF, 0xFFFF, 0xFFFF, 0xFFFF, 0xFFFF⟩]

example : degenerateAddrs.map (fun addr => String.ofList addr.text) =
    ["0.0.0.0", "255.255.255.255", "::", "ffff:ffff:ffff:ffff:ffff:ffff:ffff:ffff"] := by decide

/-- `::ffff:0.0.0.0` and `::ffff:255.255.255.255` -/
def mappedDegenerateAddrs : List IpAddr :=
  [.v6 ⟨0, 0, 0, 0, 0, 0xFFFF, 0, 0⟩, .v6 ⟨0, 0, 0, 0, 0, 0xFFFF, 0xFFFF, 0xFFFF⟩]

/-- The rule has a source address match on a degenerate address. -/
def MatchesDegenerate (r : Rule) : Prop :=
  ∃ protocol, ∃ addr ∈ degenerateAddrs,
    Statement.matchEq protocol "saddr" (.string (String.ofList addr.text)) ∈ r.expr

theorem addrCheck_iff (addr : IpAddr) : addrCheck addr = true ↔ addr ∉ degenerateAddrs := by
  rcases addr with a | a <;> simp [addrCheck, degenerateAddrs]

/-- An address that stands for a degenerate one is one itself, or it is the mapped form of one. -/
theorem mem_of_toCanonical_mem {addr : IpAddr} (h : addr.toCanonical ∈ degenerateAddrs) :
    addr ∈ degenerateAddrs ∨ addr ∈ mappedDegenerateAddrs ∧ ∃ a, addr.toCanonical = .v4 a := by
  rcases addr with a | a
  · exact .inl h
  · rcases hm : a.toIpv4Mapped with _ | b
    · have hcanon : (IpAddr.v6 a).toCanonical = .v6 a := by simp only [IpAddr.toCanonical, hm]
      rw [hcanon] at h
      exact .inl h
    · have hcanon : (IpAddr.v6 a).toCanonical = .v4 b := by simp only [IpAddr.toCanonical, hm]
      rw [hcanon] at h ⊢
      have hb : b = ⟨0, 0, 0, 0⟩ ∨ b = ⟨255, 255, 255, 255⟩ := by simpa [degenerateAddrs] using h
      refine .inr ⟨?_, b, rfl⟩
      -- Only one address is mapped to a given IPv4 address.
      rcases hb with rfl | rfl
      · rw [Ipv6Addr.toIpv4Mapped_injective hm (y := ⟨0, 0, 0, 0, 0, 0xFFFF, 0, 0⟩) (by decide)]
        exact List.mem_cons_self
      · rw [Ipv6Addr.toIpv4Mapped_injective hm (y := ⟨0, 0, 0, 0, 0, 0xFFFF, 0xFFFF, 0xFFFF⟩) (by decide)]
        exact List.mem_cons_of_mem _ List.mem_cons_self

/-- The rule of an address that passes the check matches a degenerate address only if it is given in mapped form. -/
theorem matchesDegenerate_ruleOf {names : NftNames} {addr : Option IpAddr} {port : SingleLeasePort}
    (h : MatchesDegenerate (ruleOf names addr port)) : ∃ a, addr = some a ∧
      (a ∈ degenerateAddrs ∨ a ∈ mappedDegenerateAddrs ∧ names.family ≠ .ip6) := by
  obtain ⟨protocol, bad, hbad, hmem⟩ := h
  have hsaddr : Statement.matchEq protocol "saddr" (.string (String.ofList bad.text)) ∈ saddrOf names.family addr := by
    rcases List.mem_append.mp hmem with hmem | hmem
    · exact hmem
    · rcases port with port | port <;> simp [statementMatchDport] at hmem
  obtain ⟨a, ha, hst⟩ := mem_saddrOf hsaddr
  refine ⟨a, ha, ?_⟩
  rcases statementMatchSaddr_ok hst with ⟨b, hcanon, hfam, heq⟩ | ⟨b, hcanon, heq⟩
  · rw [Statement.matchEq.injEq, Expression.string.injEq] at heq
    rw [IpAddr.text_injective (String.ofList_inj.mp heq.2.2), ← hcanon] at hbad
    rcases mem_of_toCanonical_mem hbad with hmem | ⟨hmem, -⟩
    · exact .inl hmem
    · exact .inr ⟨hmem, hfam⟩
  · rw [Statement.matchEq.injEq, Expression.string.injEq] at heq
    rw [IpAddr.text_injective (String.ofList_inj.mp heq.2.2), ← hcanon] at hbad
    rcases mem_of_toCanonical_mem hbad with hmem | ⟨-, c, hc⟩
    · exact .inl hmem
    · rw [hcanon] at hc
      cases hc

namespace FwdState

variable {conf : Config} {names : NftNames} {s s' : FwdState} {input : FwdEvent × NftEnv}
  {P : IpAddr → LeasePort → Prop}

/-- The leases, and the rules of the chain other than those of the control port, are for addresses and ports that
satisfy `P`. -/
structure RulesOnlyFor (conf : Config) (names : NftNames) (P : IpAddr → LeasePort → Prop) (s : FwdState) : Prop where
  sane : s.toFwState.Sane names
  leases : ∀ id ∈ s.fw.leases, P id.1 id.2
  rules : ∀ x ∈ s.kernel.content names.chain,
    x ∈ ctrlRules conf names ∨ ∃ addr port, P addr port ∧ x ∈ idRules names (addr, port)

theorem RulesOnlyFor.step (hn : readConfiguration conf = .ok names) (hs : s.RulesOnlyFor conf names P)
    (hask : ∀ addr port, Caused conf (.openPort addr port) input.1 → P addr port)
    (h : s.step conf input = .ok s') : s'.RulesOnlyFor conf names P := by
  rcases step_ok h with rfl | ⟨call, nr, hcause, hcall, rfl⟩
  · exact hs
  have hcalled := FwState.call_ok hn hs.sane hcall
  refine ⟨hs.sane.called hcalled, fun id hid => ?_, fun x hx => ?_⟩
  · rcases hcalled.leases hid with hid | rfl
    · exact hs.leases id hid
    · exact hask id.1 id.2 hcause
  · rcases hcalled.rules hx with hx | hx | hx | ⟨addr, port, rfl, hx⟩
    · exact hs.rules x hx
    · exact .inl hx
    · obtain ⟨id, hid, hx⟩ := mem_leasesRules.1 hx
      exact .inr ⟨id.1, id.2, hs.leases id hid, hx⟩
    · exact .inr ⟨addr, port, hask addr port hcause, hx⟩

theorem RulesOnlyFor.new {env : NftEnv} {k k' : Kernel} {fw : NftFirewall} (hn : readConfiguration conf = .ok names)
    (h : NftFirewall.new conf env k = .ok (fw, k')) : (⟨fw, k'⟩ : FwdState).RulesOnlyFor conf names P := by
  obtain ⟨hsane, hempty, hcontent⟩ := FwState.Sane.new hn h
  refine ⟨hsane, fun id hid => ?_, fun x hx => ?_⟩
  · rw [show fw.leases = ∅ from hempty] at hid
    exact (Finmap.notMem_empty hid).elim
  · rw [hcontent] at hx
    exact .inl hx

theorem RulesOnlyFor.run (hn : readConfiguration conf = .ok names) (hs : s.RulesOnlyFor conf names P)
    {inputs : List (FwdEvent × NftEnv)}
    (hask : ∀ input ∈ inputs, ∀ addr port, Caused conf (.openPort addr port) input.1 → P addr port) :
    ∃ s', runAll (FwdState.step conf) s inputs = .ok s' ∧ s'.RulesOnlyFor conf names P := by
  refine runAll_returns (fun s input hin hs => ?_) hs
  obtain ⟨s', hs'⟩ := step_returns (s := s) hs.sane.running input
  exact ⟨s', hs', hs.step hn (hask input hin) hs'⟩

theorem addrCheck_of_caused {addr : IpAddr} {port : LeasePort} {ev : FwdEvent}
    (h : Caused conf (.openPort addr port) ev) : addrCheck addr = true := by
  rcases ev with ⟨reads, send, it⟩ | _
  · obtain ⟨recv, -, msg, -, hcall, hp⟩ := h
    unfold FirewallMessage.call? at hcall
    split at hcall <;> cases hcall
    exact hp.addr
  · cases h

/-- As long as no request to open a port that passes the checks is for one of the two addresses in mapped form, or the
firewall family has no IPv4, no rule matches a degenerate address. -/
theorem no_degenerate_match (hn : NftNames.get conf = .ok names) {env : NftEnv} {k k' : Kernel} {fw : NftFirewall}
    (hnew : NftFirewall.new conf env k = .ok (fw, k')) (inputs : List (FwdEvent × NftEnv))
    (hask : ∀ input ∈ inputs, names.family = .ip6 ∨
      ∀ addr port, Caused conf (.openPort addr port) input.1 → addr ∉ mappedDegenerateAddrs) :
    ∃ s, runAll (step conf) ⟨fw, k'⟩ inputs = .ok s ∧
      ∀ x ∈ s.kernel.rules, x.chainId = names.chain → ¬ MatchesDegenerate x := by
  have hn := FwState.readConfiguration_eq hn
  have hstart : (⟨fw, k'⟩ : FwdState).RulesOnlyFor conf names fun addr _ =>
      addr ∉ degenerateAddrs ∧ (names.family = .ip6 ∨ addr ∉ mappedDegenerateAddrs) := .new hn hnew
  have hproper : ∀ input ∈ inputs, ∀ addr port, Caused conf (.openPort addr port) input.1 →
      addr ∉ degenerateAddrs ∧ (names.family = .ip6 ∨ addr ∉ mappedDegenerateAddrs) := by
    intro input hin addr port hcause
    refine ⟨(addrCheck_iff addr).mp (addrCheck_of_caused hcause), ?_⟩
    rcases hask input hin with hfam | hask
    · exact .inl hfam
    · exact .inr (hask addr port hcause)
  obtain ⟨s, hrun, hs⟩ := hstart.run hn hproper
  refine ⟨s, hrun, ?_⟩
  intro x hx hchain hbad
  have hbad : MatchesDegenerate x.erase := hbad
  rcases hs.rules x.erase (Kernel.mem_content.2 ⟨x, hx, hchain, rfl⟩) with hx | ⟨addr, port, ⟨hgood, hfam⟩, hx⟩
  · obtain ⟨q, hq⟩ := NftFirewall.mem_ctrlRules hx
    rw [hq] at hbad
    obtain ⟨a, ha, -⟩ := matchesDegenerate_ruleOf hbad
    cases ha
  · obtain ⟨q, -, hq⟩ := mem_idRules.1 hx
    rw [← hq] at hbad
    obtain ⟨a, ha, hmem | ⟨hmem, hne⟩⟩ := matchesDegenerate_ruleOf hbad
    · cases ha
      exact hgood hmem
    · cases ha
      exact hfam.elim hne fun hnot => hnot hmem

/-- A request to open port 22 for TCP, for the address. -/
noncomputable def openRequest (addr : IpAddr) : FwdEvent :=
  .message [.data (FirewallMessage.newOpen addr .tcp 22).msgSerialize] (.ok ()) fwResources

theorem no_degenerate_match_sample : ∃ fw k',
    NftFirewall.new fwConf (sampleEnv 0 []) .empty = .ok (fw, k') ∧
      ∃ s, runAll (step fwConf) ⟨fw, k'⟩ [(openRequest (.v4 ⟨192, 0, 2, 7⟩), sampleEnv 1 [])] = .ok s ∧
        (.v4 ⟨192, 0, 2, 7⟩, .tcp 22) ∈ s.fw.leases ∧
        ∀ x ∈ s.kernel.rules, x.chainId = sampleNames.chain → ¬ MatchesDegenerate x := by
  have hnew : NftFirewall.new fwConf (sampleEnv 0 []) .empty = .ok (_, _) := rfl
  have hask : ∀ input ∈ [(openRequest (.v4 ⟨192, 0, 2, 7⟩), sampleEnv 1 [])], sampleNames.family = .ip6 ∨
      ∀ addr port, Caused fwConf (.openPort addr port) input.1 → addr ∉ mappedDegenerateAddrs := by
    intro input hin
    rw [List.mem_singleton] at hin
    refine .inr ?_
    rintro addr port hcause
    rw [hin] at hcause
    obtain ⟨recv, hrecv, msg, hmsg, hcall, -⟩ := hcause
    cases hrecv
    cases hmsg
    cases hcall
    decide
  obtain ⟨s, hrun, hrules⟩ := no_degenerate_match (show NftNames.get fwConf = .ok sampleNames from rfl) hnew _ hask
  refine ⟨_, _, hnew, s, hrun, ?_, hrules⟩
  cases hrun
  decide

/-- A request for `::ffff:0.0.0.0` passes the check and installs a rule that matches `0.0.0.0`. -/
theorem installs_degenerate_match : ∃ fw k' s,
    NftFirewall.new fwConf (sampleEnv 0 []) .empty = .ok (fw, k') ∧
      runAll (step fwConf) ⟨fw, k'⟩ [(openRequest (.v6 ⟨0, 0, 0, 0, 0, 0xFFFF, 0, 0⟩), sampleEnv 1 [])] = .ok s ∧
      ¬ ∀ x ∈ s.kernel.rules, x.chainId = sampleNames.chain → ¬ MatchesDegenerate x := by
  refine ⟨_, _, _, rfl, rfl, fun hall => ?_⟩
  -- the second rule, after the one of the control port
  refine hall { ruleOf sampleNames (some (.v6 ⟨0, 0, 0, 0, 0, 0xFFFF, 0, 0⟩)) (.tcp 22) with handle := some 2 }
    (.tail _ (.head _)) rfl ?_
  exact ⟨"ip", .v4 ⟨0, 0, 0, 0⟩, List.mem_cons_self, List.mem_cons_self⟩

end FwdState

end Letmein
