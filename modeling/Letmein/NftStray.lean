import Letmein.FwRequests
import Letmein.NftHistory

/-!
# Closing a port that has no lease

`close_port` is meant to do nothing if there is no lease for the address and the port. It looks for the rules in the
kernel all the same, and there the rule for a protocol is the same one whether the port was opened for that protocol
or for both. `Called.balance` says how the rules and the leases move together in one call; the only call that takes
rules without a lease is a stray `closePort`, and what it takes is the rule of a lease (`stray_close_takes_rule`)
unless no lease shares a rule with it (`Apart`).
-/

namespace Letmein

/-- No lease for the address covers a protocol of the port. -/
def Apart (m : LeaseMap) (id : LeaseId) : Prop :=
  ∀ id' ∈ m, id'.1 = id.1 → ∀ port ∈ id'.2.singles, port ∉ id.2.singles

theorem LeasePort.eq_of_mem_singles {p : SingleLeasePort} {a b c : LeasePort} (ha : p ∈ a.singles)
    (hb : p ∈ b.singles) (hc : p ∈ c.singles) (hba : b ≠ a) (hca : c ≠ a) : b = c := by
  rcases p with n | n <;> rcases a with a | a | a <;> simp [LeasePort.singles] at ha <;>
    rcases b with b | b | b <;> simp [LeasePort.singles] at hb <;>
    rcases c with c | c | c <;> simp [LeasePort.singles] at hc <;> subst ha hb hc <;> simp at hba hca ⊢

variable {conf : Config} {names : NftNames} {m : LeaseMap} {id : LeaseId} {x : Rule}

/-- A rule belongs to at most two keys. -/
theorem id_eq_of_three {id' id'' : LeaseId} (hx : x ∈ idRules names id) (hx' : x ∈ idRules names id')
    (hx'' : x ∈ idRules names id'') (hne' : id' ≠ id) (hne'' : id'' ≠ id) : id' = id'' := by
  obtain ⟨p, hp, rfl⟩ := mem_idRules.1 hx
  obtain ⟨q, hq, hrule⟩ := mem_idRules.1 hx'
  obtain ⟨q', hq', hrule'⟩ := mem_idRules.1 hx''
  obtain ⟨haddr, rfl⟩ := ruleOf_injective hrule
  obtain ⟨haddr', rfl⟩ := ruleOf_injective hrule'
  have haddr : id'.1 = id.1 := Option.some.inj haddr
  have haddr' : id''.1 = id.1 := Option.some.inj haddr'
  refine Prod.ext (haddr.trans haddr'.symm) (LeasePort.eq_of_mem_singles hp hq hq' ?_ ?_)
  · exact fun hport => hne' (Prod.ext haddr hport)
  · exact fun hport => hne'' (Prod.ext haddr' hport)

theorem apart_iff (names : NftNames) : Apart m id ↔ ∀ x ∈ idRules names id, x ∉ leasesRules names m := by
  constructor
  · intro h x hx hmem
    obtain ⟨id', hid', hx'⟩ := mem_leasesRules.1 hmem
    obtain ⟨p, hp, rfl⟩ := mem_idRules.1 hx
    obtain ⟨q, hq, hrule⟩ := mem_idRules.1 hx'
    obtain ⟨haddr, rfl⟩ := ruleOf_injective hrule
    exact h id' hid' (Option.some.inj haddr) q hq hp
  · intro h id' hid' haddr port hport hport'
    refine h (ruleOf names (some id.1) port) (mem_idRules.2 ⟨port, hport', rfl⟩) ?_
    refine mem_leasesRules.2 ⟨id', hid', mem_idRules.2 ⟨port, hport, ?_⟩⟩
    rw [haddr]

/-- Of the rules that a key without a lease shares with leases there is one each. -/
theorem count_leasesRules_le_one (hid : id ∉ m) (hx : x ∈ idRules names id) : (leasesRules names m).count x ≤ 1 := by
  by_cases hmem : x ∈ leasesRules names m
  · obtain ⟨id', hid', hx'⟩ := mem_leasesRules.1 hmem
    have hrest : x ∉ leasesRules names (m.erase id') := by
      intro hmem'
      obtain ⟨id'', hid'', hx''⟩ := mem_leasesRules.1 hmem'
      obtain ⟨hne, hid''⟩ := Finmap.mem_erase.1 hid''
      refine hne (id_eq_of_three hx hx'' hx' ?_ ?_)
      · exact fun heq => hid (heq ▸ hid'')
      · exact fun heq => hid (heq ▸ hid')
    rw [leasesRules_erase hid', Multiset.count_add, Multiset.count_eq_zero.2 hrest, Multiset.coe_count]
    exact List.nodup_iff_count_le_one.1 (idRules_nodup names id') x
  · rw [Multiset.count_eq_zero.2 hmem]
    exact Nat.zero_le 1

namespace NftFirewall

/-- A failed removal is made up for by building the chain again. -/
theorem maintain_val_ok {env : NftEnv} {fw : NftFirewall} {k : Kernel} {r : NftRet}
    (hn : readConfiguration conf = .ok names) (hc : Coherent names fw.leases) (hnft : ∀ i, env.nft i = true)
    (h : fw.maintain conf env k = .ok r) : r.val = .ok () := by
  obtain ⟨u, hu, h⟩ := Except.bind_ok h
  have hrun : fw.shutdown = false := check_ok hu
  dsimp only at h
  split at h
  · cases h
    rfl
  · split at h
    · cases h
      rfl
    · rename_i j e _
      obtain ⟨k', hre, -⟩ := nftablesFullRebuild_eq hn env j k
        { fw with leases := (pruneAllLeaseTimeouts env.now env.it fw.leases).2 } (hc.pruned env.now env.it) hrun
      rw [hre, hnft j] at h
      cases h
      rfl

end NftFirewall

namespace FwState

variable {env : NftEnv} {s : FwState} {call : FwCall} {r : NftRet}

/-- How the leases and the rules move together in a call. -/
inductive Balance (conf : Config) (names : NftNames) (s : FwState) (call : FwCall) (r : NftRet) : Prop
  | moved {A R : Multiset Rule} (hleases : A + leasesRules names s.fw.leases = R + leasesRules names r.fw.leases)
      (hk : r.kernel.content names.chain = A + s.kernel.content names.chain - R)
  | rebuilt (hk : r.kernel.content names.chain = ctrlRules conf names + leasesRules names r.fw.leases)
  | stray {addr : IpAddr} {port : LeasePort} (hcall : call = .closePort addr port) (hno : (addr, port) ∉ s.fw.leases)
      (hval : r.val = .ok ()) (hleases : r.fw.leases = s.fw.leases)
      (hk : r.kernel.content names.chain = s.kernel.content names.chain - idRules names (addr, port))

/-- Without debug mode the kernel may refuse to delete the rules of the leases that have timed out. -/
theorem balance_of_call (hn : readConfiguration conf = .ok names) (hs : s.Sane names) (hnft : ∀ i, env.nft i = true)
    (hmaintain : call = .maintain → conf.debug = true →
      ¬ RemoveFails names env 0 s.kernel (pruneAllLeaseTimeouts env.now env.it s.fw.leases).1)
    (hr : s.call conf env call = .ok r) : Balance conf names s call r := by
  have h := call_ok hn hs hr
  cases call with
  | openPort addr port =>
    cases h with
    | refreshed hl =>
      refine .moved (A := 0) (R := 0) ?_ (by simp)
      rw [leasesRules_insert_of_mem (Finmap.mem_of_lookup_eq_some hl)]
    | added hnew _ _ _ hk =>
      refine .moved (A := idRules names (addr, port)) (R := 0) ?_ (by rw [tsub_zero]; exact hk)
      rw [leasesRules_insert hnew, zero_add]
    | refused => exact .moved (A := 0) (R := 0) rfl (by simp)
  | closePort addr port =>
    have hno : ¬ (env.nft 1 = false ∨ env.nft 2 = false) := by rw [hnft 1, hnft 2]; simp
    cases h with
    | removed _ _ hk =>
      by_cases hmem : (addr, port) ∈ s.fw.leases
      · refine .moved (A := 0) (R := idRules names (addr, port)) ?_ (by rw [zero_add]; exact hk)
        rw [zero_add]
        exact leasesRules_erase hmem
      · exact .stray rfl hmem rfl (Finmap.erase_of_notMem hmem) hk
    | ignored hfail => exact absurd hfail hno
    | failed hfail => exact absurd hfail hno
  | maintain =>
    cases h with
    | removed _ hk =>
      refine .moved (A := 0) ?_ (by rw [zero_add]; exact hk)
      rw [zero_add]
      exact (hs.coherent.rulesOf_pruned env.now env.it).symm
    | ignored hfail hdebug => exact absurd hfail (hmaintain rfl hdebug)
    | rebuilt _ _ hk => exact .rebuilt hk
    | failed =>
      have hval := NftFirewall.maintain_val_ok hn hs.coherent hnft hr
      cases hval

/-- The rules of the chain are at most those of the control port and of the leases. -/
theorem Balance.le (h : Balance conf names s call r)
    (hle : s.kernel.content names.chain ≤ ctrlRules conf names + leasesRules names s.fw.leases) :
    r.kernel.content names.chain ≤ ctrlRules conf names + leasesRules names r.fw.leases := by
  cases h with
  | @moved A R hleases hk =>
    rw [hk, tsub_le_iff_left, add_left_comm, ← hleases, add_left_comm]
    exact add_le_add_right hle A
  | rebuilt hk => exact hk.le
  | stray _ _ _ hleases hk =>
    rw [hk, hleases]
    exact (Multiset.sub_le_self _ _).trans hle

/-- They are exactly those, as long as a port without a lease is only closed apart from the leases. -/
theorem Balance.eq (h : Balance conf names s call r)
    (hapart : ∀ addr port, call = .closePort addr port → (addr, port) ∉ s.fw.leases → Apart s.fw.leases (addr, port))
    (heq : s.kernel.content names.chain = ctrlRules conf names + leasesRules names s.fw.leases) :
    r.kernel.content names.chain = ctrlRules conf names + leasesRules names r.fw.leases := by
  cases h with
  | @moved A R hleases hk =>
    rw [hk, heq, add_left_comm, hleases, add_left_comm, add_tsub_cancel_left]
  | rebuilt hk => exact hk
  | @stray addr port hcall hno _ hleases hk =>
    rw [hk, hleases, heq]
    refine sub_of_disjoint fun x hx hmem => ?_
    rcases Multiset.mem_add.1 hmem with hmem | hmem
    · exact notMem_ctrlRules hx hmem
    · exact (apart_iff names).1 (hapart addr port hcall hno) x hx hmem

/-- A rule of a key without a lease is in the chain at most once, so that closing the port takes it. -/
theorem notMem_of_stray {C : Multiset Rule} (hle : C ≤ ctrlRules conf names + leasesRules names m) (hid : id ∉ m)
    (hx : x ∈ idRules names id) : x ∉ C - idRules names id := by
  have hctrl : (ctrlRules conf names).count x = 0 := List.count_eq_zero.2 (notMem_ctrlRules hx)
  have hone : 1 ≤ (idRules names id).count x := List.count_pos_iff.2 hx
  have hleases := count_leasesRules_le_one hid hx
  have hC : C.count x ≤ (ctrlRules conf names).count x + (leasesRules names m).count x := by
    rw [← Multiset.coe_count, ← Multiset.count_add]
    exact Multiset.count_le_of_le x hle
  rw [← Multiset.count_eq_zero, Multiset.count_sub, Multiset.coe_count]
  omega

end FwState

namespace FwdState

variable {s s' : FwdState} {input : FwdEvent × NftEnv}

/-- All `nft` programs of the step succeed. In debug mode, in which it is ignored if the kernel refuses to delete the
rules of leases that have timed out, it does not. -/
def NftSucceeds (conf : Config) (names : NftNames) (s : FwdState) (input : FwdEvent × NftEnv) : Prop :=
  (∀ i, input.2.nft i = true) ∧ (input.1 = .maintain → conf.debug = true →
    ¬ RemoveFails names input.2 0 s.kernel (pruneAllLeaseTimeouts input.2.now input.2.it s.fw.leases).1)

/-- A request to close a port that has no lease is apart from the leases. -/
def ClosesApart (conf : Config) (s : FwdState) (input : FwdEvent × NftEnv) : Prop :=
  ∀ addr port, Caused conf (.closePort addr port) input.1 → (addr, port) ∉ s.fw.leases →
    Apart s.fw.leases (addr, port)

theorem Caused.maintain {ev : FwdEvent} (h : Caused conf .maintain ev) : ev = .maintain := by
  rcases ev with ⟨reads, send, it⟩ | _
  · obtain ⟨recv, -, msg, -, hcall, -⟩ := h
    unfold FirewallMessage.call? at hcall
    split at hcall <;> cases hcall
  · rfl

/-- Nothing is in the chain but the rules of the control port and of the leases. -/
structure Tallied (conf : Config) (names : NftNames) (s : FwdState) : Prop where
  sane : s.toFwState.Sane names
  le : s.kernel.content names.chain ≤ ctrlRules conf names + leasesRules names s.fw.leases

/-- A step does nothing, or its call moves the leases and the rules together. -/
theorem balance_of_step (hn : readConfiguration conf = .ok names) (hs : s.toFwState.Sane names)
    (hok : NftSucceeds conf names s input) (h : s.step conf input = .ok s') :
    s' = s ∨ ∃ call nr, Caused conf call input.1 ∧ FwState.Balance conf names s.toFwState call nr ∧
      s'.toFwState.Sane names ∧ s' = ⟨nr.fw, nr.kernel⟩ := by
  rcases step_ok h with rfl | ⟨call, nr, hcause, hcall, rfl⟩
  · exact .inl rfl
  · refine .inr ⟨call, nr, hcause, ?_, hs.called (FwState.call_ok hn hs hcall), rfl⟩
    refine FwState.balance_of_call hn hs hok.1 ?_ hcall
    rintro rfl
    exact hok.2 (Caused.maintain hcause)

theorem Tallied.step (hn : readConfiguration conf = .ok names) (ht : s.Tallied conf names)
    (hok : NftSucceeds conf names s input) (h : s.step conf input = .ok s') : s'.Tallied conf names := by
  rcases balance_of_step hn ht.sane hok h with rfl | ⟨call, nr, -, hbal, hsane, rfl⟩
  · exact ht
  · exact ⟨hsane, hbal.le ht.le⟩

theorem content_eq_step (hn : readConfiguration conf = .ok names) (hs : s.toFwState.Sane names)
    (hok : NftSucceeds conf names s input) (hapart : ClosesApart conf s input)
    (heq : s.kernel.content names.chain = ctrlRules conf names + leasesRules names s.fw.leases)
    (h : s.step conf input = .ok s') :
    s'.kernel.content names.chain = ctrlRules conf names + leasesRules names s'.fw.leases := by
  rcases balance_of_step hn hs hok h with rfl | ⟨call, nr, hcause, hbal, -, rfl⟩
  · exact heq
  · refine hbal.eq (fun addr port hcall hno => ?_) heq
    subst hcall
    exact hapart addr port hcause hno

/-- What was in the chain of the rules of the leases is there afterwards. -/
def KeepsRules (names : NftNames) (m : LeaseMap) (k k' : Kernel) : Prop :=
  ∀ id ∈ m, ∀ x ∈ idRules names id, x ∈ k.content names.chain → x ∈ k'.content names.chain

variable {k k' : Kernel}

theorem Tallied.keepsRules_iff (ht : s.Tallied conf names) (hid : id ∉ s.fw.leases)
    (hk : k'.content names.chain = s.kernel.content names.chain - idRules names id) :
    KeepsRules names s.fw.leases s.kernel k' ↔ ∀ x ∈ idRules names id, x ∉ s.kernel.content names.chain := by
  constructor
  · intro hkeep x hx hmem
    have hleases : x ∈ leasesRules names s.fw.leases := by
      rcases Multiset.mem_add.1 (Multiset.mem_of_le ht.le hmem) with hctrl | hleases
      · exact absurd hctrl (notMem_ctrlRules hx)
      · exact hleases
    obtain ⟨id', hid', hx'⟩ := mem_leasesRules.1 hleases
    have hafter := hkeep id' hid' x hx' hmem
    rw [hk] at hafter
    exact FwState.notMem_of_stray ht.le hid hx hafter
  · intro hno id' hid' x hx' hmem
    rw [hk, sub_of_disjoint hno]
    exact hmem

theorem Tallied.rules_iff (ht : s.Tallied conf names) (hid : id ∉ s.fw.leases)
    (heq : s.kernel.content names.chain = ctrlRules conf names + leasesRules names s.fw.leases)
    (hk : k'.content names.chain = s.kernel.content names.chain - idRules names id) :
    (∀ id' ∈ s.fw.leases, ∀ x ∈ idRules names id', x ∈ k'.content names.chain) ↔ Apart s.fw.leases id := by
  rw [apart_iff names]
  constructor
  · intro hall x hx hmem
    obtain ⟨id', hid', hx'⟩ := mem_leasesRules.1 hmem
    have hafter := hall id' hid' x hx'
    rw [hk] at hafter
    exact FwState.notMem_of_stray ht.le hid hx hafter
  · intro hapart id' hid' x hx
    have hno : ∀ y ∈ idRules names id, y ∉ s.kernel.content names.chain := by
      intro y hy hmem
      rw [heq] at hmem
      rcases Multiset.mem_add.1 hmem with hctrl | hleases
      · exact notMem_ctrlRules hy hctrl
      · exact hapart y hy hleases
    rw [hk, sub_of_disjoint hno, heq]
    exact Multiset.mem_add.2 (.inr (mem_leasesRules.2 ⟨id', hid', hx⟩))

theorem tallied_run {env : NftEnv} {fw : NftFirewall} (hn : readConfiguration conf = .ok names)
    (hnew : NftFirewall.new conf env k = .ok (fw, k')) {inputs : List (FwdEvent × NftEnv)}
    (hnft : AllSteps (step conf) (NftSucceeds conf names) ⟨fw, k'⟩ inputs)
    (hrun : runAll (step conf) ⟨fw, k'⟩ inputs = .ok s) :
    s.Tallied conf names ∧ (AllSteps (step conf) (ClosesApart conf) ⟨fw, k'⟩ inputs →
      s.kernel.content names.chain = ctrlRules conf names + leasesRules names s.fw.leases) := by
  obtain ⟨hsane, hempty, hctrl⟩ := FwState.Sane.new hn hnew
  have hempty : fw.leases = ∅ := hempty
  have hstart : k'.content names.chain = ctrlRules conf names + leasesRules names fw.leases := by
    rw [hctrl, hempty, leasesRules_empty, add_zero]
  have htallied : (⟨fw, k'⟩ : FwdState).Tallied conf names := ⟨hsane, hstart.le⟩
  refine ⟨runAll_inv (fun s input s' ht hok h => ht.step hn hok h) htallied hnft hrun, fun hapart => ?_⟩
  have hboth : s.Tallied conf names ∧
      s.kernel.content names.chain = ctrlRules conf names + leasesRules names s.fw.leases := by
    refine runAll_inv (P := fun s => s.Tallied conf names ∧
      s.kernel.content names.chain = ctrlRules conf names + leasesRules names s.fw.leases) ?_ ⟨htallied, hstart⟩
      (hnft.and hapart) hrun
    rintro s input s' ⟨ht, heq⟩ ⟨hok, hclose⟩ h
    exact ⟨ht.step hn hok h, content_eq_step hn ht.sane hok hclose heq h⟩
  exact hboth.2

/-- In every run without failures, closing a port that has no lease does not fail and keeps the leases. It keeps their
rules exactly if the chain holds no rule for the address and the port. As long as ports without a lease are closed only
apart from the leases, all rules of all leases are still there exactly if this one is apart too. -/
theorem stray_close_harmless_iff (hn : NftNames.get conf = .ok names) {env : NftEnv} {fw : NftFirewall}
    (hnew : NftFirewall.new conf env k = .ok (fw, k')) (inputs : List (FwdEvent × NftEnv))
    (hnft : AllSteps (step conf) (NftSucceeds conf names) ⟨fw, k'⟩ inputs) :
    ∃ s, runAll (step conf) ⟨fw, k'⟩ inputs = .ok s ∧
      ∀ env addr port, (∀ i, env.nft i = true) → (addr, port) ∉ s.fw.leases →
        (conf.port.port ≠ port.num → ∃ r, s.fw.closePort conf env s.kernel addr port = .ok r) ∧
        ∀ r, s.fw.closePort conf env s.kernel addr port = .ok r →
          r.val = .ok () ∧ r.fw.leases = s.fw.leases ∧
          (KeepsRules names s.fw.leases s.kernel r.kernel ↔
            ∀ x ∈ idRules names (addr, port), x ∉ s.kernel.content names.chain) ∧
          (AllSteps (step conf) (ClosesApart conf) ⟨fw, k'⟩ inputs →
            ((∀ id ∈ s.fw.leases, ∀ x ∈ idRules names id, x ∈ r.kernel.content names.chain) ↔
              Apart s.fw.leases (addr, port))) := by
  have hn := FwState.readConfiguration_eq hn
  obtain ⟨names', hn', hc⟩ := Contained.new hnew
  obtain rfl : names' = names := Except.ok.inj (hn'.symm.trans hn)
  obtain ⟨s, hrun, -⟩ := hc.run hn inputs
  obtain ⟨ht, hexact⟩ := tallied_run hn hnew hnft hrun
  refine ⟨s, hrun, fun env addr port henv hid => ⟨?_, fun r hr => ?_⟩⟩
  · exact fun hctl => NftFirewall.closePort_returns ht.sane.running hctl
  · have hcall : s.toFwState.call conf env (.closePort addr port) = .ok r := hr
    cases FwState.call_ok hn ht.sane hcall with
    | removed _ _ hk =>
      exact ⟨rfl, Finmap.erase_of_notMem hid, ht.keepsRules_iff hid hk,
        fun hapart => ht.rules_iff hid (hexact hapart) hk⟩
    | ignored hfail => simp [henv] at hfail
    | failed hfail => simp [henv] at hfail

/-- A request to close port 22 for the protocols. -/
noncomputable def closeRequest (portType : PortType) : FwdEvent :=
  .message [.data (FirewallMessage.newClose (.v4 ⟨192, 0, 2, 7⟩) portType 22).msgSerialize] (.ok ()) fwResources

theorem stray_close_harmless_iff_sample : ∃ fw k',
    NftFirewall.new fwConf (sampleEnv 0 []) .empty = .ok (fw, k') ∧
      ∃ s r, runAll (step fwConf) ⟨fw, k'⟩ [(fwRequest .tcp, sampleEnv 1 []), (closeRequest .udp, sampleEnv 2 [])] =
          .ok s ∧
        (.v4 ⟨192, 0, 2, 7⟩, .tcp 22) ∈ s.fw.leases ∧ Apart s.fw.leases (.v4 ⟨192, 0, 2, 7⟩, .udp 22) ∧
        s.fw.closePort fwConf (sampleEnv 3 []) s.kernel (.v4 ⟨192, 0, 2, 7⟩) (.udp 22) = .ok r ∧
        ∀ id ∈ s.fw.leases, ∀ x ∈ idRules sampleNames id, x ∈ r.kernel.content sampleNames.chain := by
  have hnew : NftFirewall.new fwConf (sampleEnv 0 []) .empty = .ok (_, _) := rfl
  have hok : ∀ (s : FwdState) ev now, NftSucceeds fwConf sampleNames s (ev, sampleEnv now []) :=
    fun s ev now => ⟨fun _ => rfl, fun _ hdebug => by cases hdebug⟩
  have hapart : ∀ lease, Apart (Finmap.insert (.v4 ⟨192, 0, 2, 7⟩, .tcp 22) lease ∅) (.v4 ⟨192, 0, 2, 7⟩, .udp 22) := by
    intro lease id hid _ port hport
    rcases Finmap.mem_insert.1 hid with rfl | hid
    · rw [List.mem_singleton.1 hport]
      decide
    · exact absurd hid Finmap.notMem_empty
  obtain ⟨s, hrun, hclose⟩ := stray_close_harmless_iff (show NftNames.get fwConf = .ok sampleNames from rfl) hnew
    [(fwRequest .tcp, sampleEnv 1 []), (closeRequest .udp, sampleEnv 2 [])]
    ⟨hok _ _ 1, fun _ _ => ⟨hok _ _ 2, fun _ _ => trivial⟩⟩
  cases hrun
  obtain ⟨hret, hall⟩ := hclose (sampleEnv 3 []) (.v4 ⟨192, 0, 2, 7⟩) (.udp 22) (fun _ => rfl) (by decide)
  obtain ⟨r, hr⟩ := hret (by decide)
  refine ⟨_, _, hnew, _, r, rfl, by decide, hapart _, hr, ((hall r hr).2.2.2 ?_).2 (hapart _)⟩
  refine ⟨?_, fun s hs => ⟨?_, fun _ _ => trivial⟩⟩
  · rintro addr port ⟨recv, hrecv, msg, hmsg, hcall, -⟩
    cases hrecv
    cases hmsg
    cases hcall
  · rintro addr port ⟨recv, hrecv, msg, hmsg, hcall, -⟩ -
    cases hrecv
    cases hmsg
    cases hcall
    cases hs
    exact hapart _

/-- The port is open for TCP. Closing it for TCP and UDP, for which it has no lease, keeps the lease and takes its
rule. -/
theorem stray_close_takes_rule : ∃ fw k' s r,
    NftFirewall.new fwConf (sampleEnv 0 []) .empty = .ok (fw, k') ∧
      runAll (step fwConf) ⟨fw, k'⟩ [(fwRequest .tcp, sampleEnv 1 [])] = .ok s ∧
      (.v4 ⟨192, 0, 2, 7⟩, .tcpUdp 22) ∉ s.fw.leases ∧
      s.fw.closePort fwConf (sampleEnv 2 []) s.kernel (.v4 ⟨192, 0, 2, 7⟩) (.tcpUdp 22) = .ok r ∧
      ruleOf sampleNames (some (.v4 ⟨192, 0, 2, 7⟩)) (.tcp 22) ∈ s.kernel.content sampleNames.chain ∧
      r.fw.leases = s.fw.leases ∧ ¬ KeepsRules sampleNames s.fw.leases s.kernel r.kernel := by
  refine ⟨_, _, _, _, rfl, rfl, by decide, rfl, by decide, rfl, fun hkeep => ?_⟩
  have hafter := hkeep (.v4 ⟨192, 0, 2, 7⟩, .tcp 22) (by decide)
    (ruleOf sampleNames (some (.v4 ⟨192, 0, 2, 7⟩)) (.tcp 22)) List.mem_cons_self (by decide)
  exact absurd hafter (by decide)

end FwdState
end Letmein
