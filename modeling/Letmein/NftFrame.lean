import Letmein.FwTasks

/-!
# What the firewall writes to the kernel

Every command that the firewall generates is for its own chain, and a call applies at most one batch of them
(`Batched`), whatever the chain holds and whichever programs fail. So no call touches another chain, and a call that
fails halfway has changed nothing or everything.
-/

namespace Letmein

/-- The commands are for the chain of the firewall. -/
def ForChain (names : NftNames) (cmds : List NfCmd) : Prop := ∀ cmd ∈ cmds, Kernel.cmdChain cmd = names.chain

/-- The kernel is as it was, or one batch of commands for the chain was applied to it. -/
inductive Batched (names : NftNames) (k : Kernel) : Kernel → Prop
  | unchanged : Batched names k k
  | applied {k' : Kernel} {cmds : List NfCmd} (hcmds : ForChain names cmds) (h : k.apply cmds = some k') :
      Batched names k k'

variable {conf : Config} {names : NftNames} {env : NftEnv} {i : Nat} {k k' : Kernel} {fw : NftFirewall}

theorem Batched.outside (h : Batched names k k') : k'.outside names.chain = k.outside names.chain := by
  cases h with
  | unchanged => rfl
  | applied hcmds h => exact Kernel.apply_outside hcmds h

/-! ## The commands -/

namespace ForChain

theorem append {cmds cmds' : List NfCmd} (h : ForChain names cmds) (h' : ForChain names cmds') :
    ForChain names (cmds ++ cmds') := by
  intro cmd hcmd
  rcases List.mem_append.1 hcmd with hcmd | hcmd
  · exact h cmd hcmd
  · exact h' cmd hcmd

theorem nil : ForChain names [] := fun cmd hcmd => by cases hcmd

theorem genAddLeaseCmd (hn : readConfiguration conf = .ok names) {addr : Option IpAddr} {port : SingleLeasePort}
    {cmd : NfCmd} (h : genAddLeaseCmd conf addr port = .ok cmd) : Kernel.cmdChain cmd = names.chain := by
  obtain ⟨names', hn', -, rfl⟩ := genAddLeaseCmd_ok h
  obtain rfl : names' = names := Except.ok.inj (hn'.symm.trans hn)
  rfl

theorem mem_of_mapM {α β : Type} {f : α → Except String β} {l : List α} {bs : List β} (h : l.mapM f = .ok bs) {b : β}
    (hb : b ∈ bs) : ∃ x ∈ l, f x = .ok b := by
  have hmem : Except.ok b ∈ l.map f := by
    rw [Except.mapM_ok_iff.1 h]
    exact List.mem_map_of_mem hb
  exact List.mem_map.1 hmem

theorem genAddLeaseCmds (hn : readConfiguration conf = .ok names) {lease : Lease} {cmds : List NfCmd}
    (h : genAddLeaseCmds conf lease = .ok cmds) : ForChain names cmds := by
  intro cmd hcmd
  obtain ⟨port, -, hport⟩ := mem_of_mapM h hcmd
  exact genAddLeaseCmd hn hport

theorem genDeleteLeaseCmds (hn : readConfiguration conf = .ok names) {objs : List Rule} {lease : Lease}
    {cmds : List NfCmd} (h : genDeleteLeaseCmds conf objs lease = .ok cmds) : ForChain names cmds := by
  intro cmd hcmd
  unfold Letmein.genDeleteLeaseCmds at h
  rw [hn] at h
  cases h
  obtain ⟨port, -, hport⟩ := List.mem_filterMap.1 hcmd
  split at hport
  · cases hport
    rfl
  · cases hport

/-- The commands for all leases, one after the other. -/
theorem flatten {leases : List Lease} {gen : Lease → Except String (List NfCmd)} {cmds : List (List NfCmd)}
    (hgen : ∀ lease cmds, gen lease = .ok cmds → ForChain names cmds) (h : leases.mapM gen = .ok cmds) :
    ForChain names cmds.flatten := by
  intro cmd hcmd
  obtain ⟨part, hpart, hmem⟩ := List.mem_flatten.1 hcmd
  obtain ⟨lease, -, hlease⟩ := mem_of_mapM h hpart
  exact hgen lease part hlease cmd hmem

theorem genCtrlCmds (hn : readConfiguration conf = .ok names) {cmds : List NfCmd}
    (h : NftFirewall.genCtrlCmds conf = .ok cmds) : ForChain names cmds := by
  rw [NftFirewall.genCtrlCmds_eq hn] at h
  cases h
  intro cmd hcmd
  obtain ⟨r, hr, rfl⟩ := List.mem_map.1 hcmd
  obtain ⟨port, rfl⟩ := NftFirewall.mem_ctrlRules hr
  rfl

end ForChain

/-! ## The calls -/

namespace Batched

theorem applyBatch {cmds : List NfCmd} (hcmds : ForChain names cmds)
    (h : NftFirewall.nftablesApplyBatch env i k cmds = .ok k') : Batched names k k' := by
  unfold NftFirewall.nftablesApplyBatch at h
  split at h
  · rename_i k₁ happly
    split at h
    · cases h
      exact .applied hcmds happly
    · cases h
  · cases h

theorem fullRebuild (hn : readConfiguration conf = .ok names)
    (h : NftFirewall.nftablesFullRebuild conf env i fw k = .ok k') : Batched names k k' := by
  have hflush : ∀ {cmds : List NfCmd}, ForChain names cmds → ForChain names (.flush names.chain :: cmds) := by
    intro cmds hcmds cmd hcmd
    rcases List.mem_cons.1 hcmd with rfl | hcmd
    · rfl
    · exact hcmds cmd hcmd
  unfold NftFirewall.nftablesFullRebuild at h
  rw [hn] at h
  cases hdown : fw.shutdown with
  | true =>
    rw [hdown] at h
    exact applyBatch (hflush .nil) h
  | false =>
    rw [hdown] at h
    obtain ⟨names', hnames, h⟩ := Except.bind_ok h
    cases hnames
    obtain ⟨ctrl, hctrl, h⟩ := Except.bind_ok h
    obtain ⟨leases, hleases, h⟩ := Except.bind_ok h
    have hleases := ForChain.flatten (fun lease cmds => .genAddLeaseCmds hn) hleases
    exact applyBatch (hflush ((ForChain.genCtrlCmds hn hctrl).append hleases)) h

theorem addLease (hn : readConfiguration conf = .ok names) {lease : Lease}
    (h : NftFirewall.nftablesAddLease conf env i k lease = .ok k') : Batched names k k' := by
  obtain ⟨cmds, hcmds, h⟩ := Except.bind_ok h
  exact applyBatch (.genAddLeaseCmds hn hcmds) h

theorem removeError {e : String} (h : NftFirewall.removeError conf k e = .ok k') : Batched names k k' := by
  unfold NftFirewall.removeError at h
  split at h
  · cases h
    exact .unchanged
  · cases h

theorem removeLeases (hn : readConfiguration conf = .ok names) {leases : List Lease}
    (h : (NftFirewall.nftablesRemoveLeases conf env i k leases).2 = .ok k') : Batched names k k' := by
  unfold NftFirewall.nftablesRemoveLeases at h
  split at h
  · cases h
    exact .unchanged
  · split at h
    · exact removeError h
    · rename_i objs hobjs
      split at h
      · cases h
      · rename_i cmds hcmds
        split at h
        · exact removeError h
        · rename_i k₁ hbatch
          cases h
          exact applyBatch (.flatten (fun lease cmds => .genDeleteLeaseCmds hn) hcmds) hbatch

theorem maintain (hn : readConfiguration conf = .ok names) {r : NftRet} (h : fw.maintain conf env k = .ok r) :
    Batched names k r.kernel := by
  obtain ⟨u, -, h⟩ := Except.bind_ok h
  dsimp only at h
  split at h
  · cases h
    exact .unchanged
  · split at h
    · rename_i hremove
      cases h
      exact removeLeases hn (congrArg Prod.snd hremove)
    · split at h
      · rename_i hrebuild
        cases h
        exact fullRebuild hn hrebuild
      · cases h
        exact .unchanged

theorem openPort (hn : readConfiguration conf = .ok names) {addr : IpAddr} {port : LeasePort} {r : NftRet}
    (h : fw.openPort conf env k addr port = .ok r) : Batched names k r.kernel := by
  obtain ⟨u, -, h⟩ := Except.bind_ok h
  dsimp only at h
  split at h
  · cases h
    exact .unchanged
  · obtain ⟨lease, -, h⟩ := Except.bind_ok h
    split at h
    · rename_i hadd
      cases h
      exact addLease hn hadd
    · cases h
      exact .unchanged

theorem closePort (hn : readConfiguration conf = .ok names) {addr : IpAddr} {port : LeasePort} {r : NftRet}
    (h : fw.closePort conf env k addr port = .ok r) : Batched names k r.kernel := by
  obtain ⟨u, -, h⟩ := Except.bind_ok h
  dsimp only at h
  split at h
  · split at h
    · rename_i hok
      cases h
      exact removeLeases hn hok
    · cases h
      exact .unchanged
  -- A pair that has no lease is removed as a lease made for the purpose.
  · obtain ⟨lease, -, h⟩ := Except.bind_ok h
    split at h
    · rename_i hok
      cases h
      exact removeLeases hn hok
    · cases h
      exact .unchanged

theorem shutdownFw (hn : readConfiguration conf = .ok names) {r : NftRet} (h : fw.shutdownFw conf env k = .ok r) :
    Batched names k r.kernel := by
  obtain ⟨u, -, h⟩ := Except.bind_ok h
  dsimp only at h
  split at h
  · rename_i hrebuild
    cases h
    exact fullRebuild hn hrebuild
  · cases h
    exact .unchanged

theorem new (hn : readConfiguration conf = .ok names) (h : NftFirewall.new conf env k = .ok (fw, k')) :
    Batched names k k' := by
  unfold NftFirewall.new at h
  split at h
  · split at h
    · rename_i hrebuild
      cases h
      exact fullRebuild hn hrebuild
    · cases h
  · cases h

theorem call (hn : readConfiguration conf = .ok names) {s : FwState} {call : FwCall} {r : NftRet}
    (h : s.call conf env call = .ok r) : Batched names s.kernel r.kernel := by
  cases call with
  | openPort addr port => exact openPort hn h
  | closePort addr port => exact closePort hn h
  | maintain => exact maintain hn h

/-- One step of the daemon, whichever task makes it. -/
theorem step (hn : readConfiguration conf = .ok names) {opts : FwdOpts} {s s' : FwdTasks} {act : FwdAct}
    (h : s.step conf opts act = .ok s') : Batched names s.firewall.kernel s'.firewall.kernel := by
  obtain ⟨-, h⟩ := FwdTasks.step_ok h
  cases h with
  | @served n env conn r hr =>
    obtain ⟨o, -, hr⟩ := Except.bind_ok hr
    rcases o with _ | recv
    · cases hr
    · obtain ⟨r', hr, heq⟩ := Except.of_map_ok hr
      cases heq
      cases handleMessage_ok hr with
      | refused hno hval hreply hfw hk =>
        show Batched names s.firewall.kernel r.kernel
        rw [hk]
        exact .unchanged
      | @acked _ nr hreq hcall hok hval hreply hfw hk =>
        show Batched names s.firewall.kernel r.kernel
        rw [hk]
        exact call hn hcall
      | @nacked _ nr e hreq hcall herr hval hreply hfw hk =>
        show Batched names s.firewall.kernel r.kernel
        rw [hk]
        exact call hn hcall
  | maintained hr => exact maintain hn hr
  | shutdown hmain hr => exact shutdownFw hn hr
  | _ => exact .unchanged

end Batched

/-- The chain is emptied by a shutdown, or it stays as it is. -/
theorem NftFirewall.shutdownFw_ok (hn : readConfiguration conf = .ok names) {r : NftRet}
    (h : fw.shutdownFw conf env k = .ok r) :
    r.fw.leases = ∅ ∧ (r.val = .ok () ∧ env.nft 0 = true ∧ r.kernel.content names.chain = 0 ∨
      (∃ e, r.val = .error e) ∧ env.nft 0 = false ∧ r.kernel = k) := by
  refine ⟨FwdTasks.shutdownFw_leases h, ?_⟩
  obtain ⟨u, -, h⟩ := Except.bind_ok h
  obtain ⟨k', hre, hk⟩ : ∃ k', nftablesFullRebuild conf env 0 ⟨∅, true⟩ k =
      (if env.nft 0 then .ok k' else .error "Apply nftables") ∧ k'.content names.chain = 0 :=
    nftablesFullRebuild_shutdown hn rfl
  dsimp only at h
  rw [hre] at h
  cases hnft : env.nft 0 <;> rw [hnft] at h <;> cases h
  · exact .inr ⟨⟨_, rfl⟩, rfl, rfl⟩
  · exact .inl ⟨rfl, rfl, hk⟩

end Letmein
