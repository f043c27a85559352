import Mathlib.Algebra.Order.Group.Multiset
import Mathlib.Data.Multiset.Filter
import Mathlib.Data.List.Perm.Basic
import Mathlib.Data.List.Nodup

/-! # Rule sets of a packet filter

The kernel holds rules, each in a chain of a table and under a handle of its own. A batch of commands
is applied as a whole or not at all. What a chain holds is read as a multiset of rules without their
handles (`Kernel.content`): adding a rule adds one element, deleting the rules of a list that were
found in the chain takes these elements away, and a batch that deletes one handle twice is refused. -/

inductive NfFamily where
  | ip
  | ip6
  | inet
  | arp
  | bridge
  | netdev
deriving DecidableEq, Repr

inductive Expression where
  | string (s : String)
  | number (n : Nat)
deriving DecidableEq, Repr

/-- One statement of a rule: a packet field is compared for equality, the packet is accepted, or
something else. -/
inductive Statement where
  | matchEq (protocol field : String) (right : Expression)
  | accept
  | other (text : String)
deriving DecidableEq, Repr

structure Rule where
  family : NfFamily
  table : String
  chain : String
  expr : List Statement
  handle : Option Nat := none
  comment : Option String := none
deriving DecidableEq, Repr

structure Chain where
  family : NfFamily
  table : String
  name : String
deriving DecidableEq, Repr

inductive NfCmd where
  | add (rule : Rule)
  | delete (rule : Rule)
  | flush (chain : Chain)
deriving DecidableEq, Repr

namespace Rule

def chainId (r : Rule) : Chain := ⟨r.family, r.table, r.chain⟩

/-- The rule as it was before the kernel gave it a handle. -/
def erase (r : Rule) : Rule := { r with handle := none }

@[simp] theorem erase_chainId (r : Rule) : r.erase.chainId = r.chainId := rfl
@[simp] theorem erase_comment (r : Rule) : r.erase.comment = r.comment := rfl
@[simp] theorem erase_expr (r : Rule) : r.erase.expr = r.expr := rfl

end Rule

/-- The rules of all chains. Every rule has a handle, no handle is used twice, and `nextHandle` is
fresh. -/
structure Kernel where
  rules : List Rule
  nextHandle : Nat
  handle_lt : ∀ r ∈ rules, ∃ h < nextHandle, r.handle = some h
  nodup : (rules.map Rule.handle).Nodup

namespace Kernel

variable {k k' K : Kernel} {c : Chain} {r x : Rule}

def empty : Kernel := ⟨[], 1, by simp, List.nodup_nil⟩

def add (k : Kernel) (r : Rule) : Kernel where
  rules := k.rules ++ [{ r with handle := some k.nextHandle }]
  nextHandle := k.nextHandle + 1
  handle_lt x hx := by
    rcases List.mem_append.1 hx with hx | hx
    · obtain ⟨h, hlt, heq⟩ := k.handle_lt x hx
      exact ⟨h, Nat.lt_succ_of_lt hlt, heq⟩
    · rw [List.mem_singleton.1 hx]
      exact ⟨k.nextHandle, Nat.lt_succ_self _, rfl⟩
  nodup := by
    rw [List.map_append, List.nodup_append]
    refine ⟨k.nodup, List.nodup_singleton _, ?_⟩
    intro a ha b hb hab
    obtain ⟨x, hx, rfl⟩ := List.mem_map.1 ha
    obtain ⟨h, hlt, heq⟩ := k.handle_lt x hx
    rw [List.map_singleton, List.mem_singleton] at hb
    rw [hb, heq, Option.some.injEq] at hab
    omega

def keep (k : Kernel) (p : Rule → Bool) : Kernel where
  rules := k.rules.filter p
  nextHandle := k.nextHandle
  handle_lt x hx := k.handle_lt x (List.mem_of_mem_filter hx)
  nodup := k.nodup.sublist (List.filter_sublist.map _)

/-- Remove the rule of `r`'s chain that has `r`'s handle, if there is one. -/
def delete (k : Kernel) (r : Rule) : Option Kernel :=
  if r.handle.isSome ∧ ∃ x ∈ k.rules, x.chainId = r.chainId ∧ x.handle = r.handle then
    some (k.keep fun x => !(x.chainId = r.chainId ∧ x.handle = r.handle))
  else none

def applyCmd (k : Kernel) : NfCmd → Option Kernel
  | .add r => some (k.add r)
  | .delete r => k.delete r
  | .flush c => some (k.keep fun x => x.chainId ≠ c)

/-- A batch is applied as a whole: one refused command refuses it. -/
def apply (k : Kernel) (cmds : List NfCmd) : Option Kernel := cmds.foldlM applyCmd k

def content (k : Kernel) (c : Chain) : Multiset Rule :=
  (k.rules.filter (·.chainId = c)).map Rule.erase

theorem rules_inj {r x : Rule} (hr : r ∈ k.rules) (hx : x ∈ k.rules) (h : r.handle = x.handle) : r = x :=
  List.inj_on_of_nodup_map k.nodup hr hx h

theorem rules_nodup (k : Kernel) : k.rules.Nodup := List.Nodup.of_map _ k.nodup

theorem mem_content : r ∈ k.content c ↔ ∃ x ∈ k.rules, x.chainId = c ∧ x.erase = r := by
  simp [content, and_assoc]

@[simp] theorem apply_nil (k : Kernel) : k.apply [] = some k := rfl

theorem apply_cons (k : Kernel) (cmd : NfCmd) (cmds : List NfCmd) :
    k.apply (cmd :: cmds) = (k.applyCmd cmd).bind fun k' => k'.apply cmds := rfl

theorem content_add (k : Kernel) (hr : r.chainId = c) :
    (k.add r).content c = r.erase ::ₘ k.content c := by
  have h : ({ r with handle := some k.nextHandle } : Rule).chainId = c := hr
  simp only [content, add, List.filter_append, List.map_append, List.filter_singleton, h, decide_true,
    cond_true, List.map_singleton]
  rw [← Multiset.coe_add, Multiset.coe_singleton, add_comm, Multiset.singleton_add]
  rfl

theorem content_flush (k : Kernel) (c : Chain) : (k.keep fun x => x.chainId ≠ c).content c = 0 := by
  refine Multiset.eq_zero_of_forall_notMem fun r hr => ?_
  obtain ⟨x, hx, hc, -⟩ := mem_content.1 hr
  simpa [hc] using List.of_mem_filter hx

theorem apply_adds (k : Kernel) (rs : List Rule) (hrs : ∀ r ∈ rs, r.chainId = c) :
    ∃ k', k.apply (rs.map .add) = some k' ∧ k'.content c = (rs.map Rule.erase : List Rule) + k.content c := by
  induction rs generalizing k with
  | nil => exact ⟨k, rfl, by simp⟩
  | cons r rs ih =>
    obtain ⟨k', hk', hcont⟩ := ih (k.add r) fun x hx => hrs x (List.mem_cons_of_mem _ hx)
    refine ⟨k', hk', ?_⟩
    rw [hcont, content_add k (hrs r List.mem_cons_self), List.map_cons, ← Multiset.cons_coe,
      Multiset.add_cons, Multiset.cons_add]

theorem apply_rebuild (k : Kernel) (rs : List Rule) (hrs : ∀ r ∈ rs, r.chainId = c) :
    ∃ k', k.apply (.flush c :: rs.map .add) = some k' ∧ k'.content c = (rs.map Rule.erase : List Rule) := by
  obtain ⟨k', hk', hcont⟩ := apply_adds (k.keep fun x => x.chainId ≠ c) rs hrs
  refine ⟨k', hk', ?_⟩
  rw [hcont, content_flush, add_zero]

/-! ### Deleting rules that were listed -/

/-- The command that deletes a listed rule of chain `c`. -/
def deleteCmd (c : Chain) (x : Rule) : NfCmd := .delete ⟨c.family, c.table, c.name, [], x.handle, none⟩

theorem delete_found (hx : x ∈ k.rules) (hc : x.chainId = c) :
    ∃ k', k.applyCmd (deleteCmd c x) = some k' ∧ k.rules.Perm (x :: k'.rules) := by
  have hsome : x.handle.isSome := by
    obtain ⟨h, -, heq⟩ := k.handle_lt x hx
    rw [heq]; rfl
  refine ⟨_, if_pos ⟨hsome, x, hx, hc, rfl⟩, ?_⟩
  -- the rules with another handle are those other than `x`
  have hrest : (k.keep fun y => !(y.chainId = c ∧ y.handle = x.handle)).rules = k.rules.erase x := by
    rw [k.rules_nodup.erase_eq_filter]
    refine List.filter_congr fun y hy => ?_
    by_cases hxy : y = x
    · simp [hxy, hc]
    · have : y.handle ≠ x.handle := fun h => hxy (rules_inj hy hx h)
      simp [hxy, this]
  show k.rules.Perm (x :: (k.keep fun y => !(y.chainId = c ∧ y.handle = x.handle)).rules)
  rw [hrest]
  exact List.perm_cons_erase hx

theorem delete_mem (hK : ∀ y ∈ k.rules, y ∈ K.rules) (hx : x ∈ K.rules)
    (h : k.applyCmd (deleteCmd c x) = some k') : x ∈ k.rules := by
  have hc : x.handle.isSome ∧ ∃ y ∈ k.rules, y.chainId = c ∧ y.handle = x.handle := by
    by_contra hn
    have hnone : k.applyCmd (deleteCmd c x) = none := if_neg hn
    rw [hnone] at h
    cases h
  obtain ⟨-, y, hy, -, hh⟩ := hc
  rwa [← rules_inj (hK y hy) hx hh]

/-- A batch that deletes listed rules of one chain takes away exactly these. -/
theorem apply_deletes {found : List Rule} (hK : ∀ y ∈ k.rules, y ∈ K.rules)
    (hfound : ∀ x ∈ found, x ∈ K.rules ∧ x.chainId = c)
    (h : k.apply (found.map (deleteCmd c)) = some k') : k.rules.Perm (found ++ k'.rules) := by
  induction found generalizing k with
  | nil => cases h; exact List.Perm.refl _
  | cons x found ih =>
    rw [List.map_cons, apply_cons] at h
    obtain ⟨k₁, h₁, h₂⟩ := Option.bind_eq_some_iff.1 h
    obtain ⟨hxK, hxc⟩ := hfound x List.mem_cons_self
    have hx : x ∈ k.rules := delete_mem hK hxK h₁
    obtain ⟨k₁', h₁', hperm⟩ := delete_found hx hxc
    obtain rfl : k₁' = k₁ := Option.some.inj (h₁'.symm.trans h₁)
    refine hperm.trans ((ih ?_ ?_ h₂).cons x)
    · exact fun y hy => hK y (hperm.symm.subset (List.mem_cons_of_mem _ hy))
    · exact fun y hy => hfound y (List.mem_cons_of_mem _ hy)

theorem apply_deletes_some {found : List Rule} (hfound : ∀ x ∈ found, x ∈ k.rules ∧ x.chainId = c)
    (hnodup : found.Nodup) : ∃ k', k.apply (found.map (deleteCmd c)) = some k' := by
  induction found generalizing k with
  | nil => exact ⟨k, rfl⟩
  | cons x found ih =>
    obtain ⟨hx, hxc⟩ := hfound x List.mem_cons_self
    obtain ⟨k₁, h₁, hperm⟩ := delete_found hx hxc
    obtain ⟨hnot, hnodup⟩ := List.nodup_cons.1 hnodup
    have hrest : ∀ y ∈ found, y ∈ k₁.rules ∧ y.chainId = c := fun y hy => by
      obtain ⟨hyk, hyc⟩ := hfound y (List.mem_cons_of_mem _ hy)
      rcases List.mem_cons.1 (hperm.subset hyk) with rfl | hyk₁
      · exact absurd hy hnot
      · exact ⟨hyk₁, hyc⟩
    obtain ⟨k', hk'⟩ := ih hrest hnodup
    exact ⟨k', by rw [List.map_cons, apply_cons, h₁]; exact hk'⟩

theorem content_of_perm {found : List Rule} (hfound : ∀ x ∈ found, x.chainId = c)
    (h : k.rules.Perm (found ++ k'.rules)) :
    k.content c = (found.map Rule.erase : List Rule) + k'.content c := by
  have hall : found.filter (·.chainId = c) = found :=
    List.filter_eq_self.2 fun x hx => by simpa using hfound x hx
  have hperm := (h.filter (·.chainId = c)).map Rule.erase
  rw [List.filter_append, hall, List.map_append] at hperm
  rw [content, Multiset.coe_eq_coe.2 hperm, ← Multiset.coe_add]
  rfl

theorem content_sub {R : List Rule} {found : List Rule} (hfound : ∀ x ∈ found, x.chainId = c)
    (hR : found.map Rule.erase = R.filter (· ∈ k.content c)) (h : k.rules.Perm (found ++ k'.rules)) :
    k'.content c = k.content c - R := by
  have hsum := content_of_perm hfound h
  rw [hR] at hsum
  ext r
  have hcount := congrArg (Multiset.count r) hsum
  rw [Multiset.count_add, Multiset.coe_count] at hcount
  rw [Multiset.count_sub, Multiset.coe_count]
  by_cases hr : r ∈ k.content c
  · rw [List.count_filter (by simpa using hr)] at hcount
    omega
  · rw [Multiset.count_eq_zero.2 hr] at hcount ⊢
    omega

/-! ### Other chains -/

/-- The rules of the other chains, in their order and with their handles. -/
def outside (k : Kernel) (c : Chain) : List Rule := k.rules.filter (·.chainId ≠ c)

/-- The chain that a command is for. -/
def cmdChain : NfCmd → Chain
  | .add r => r.chainId
  | .delete r => r.chainId
  | .flush c => c

theorem outside_add (k : Kernel) (hr : r.chainId = c) : (k.add r).outside c = k.outside c := by
  have h : ({ r with handle := some k.nextHandle } : Rule).chainId = c := hr
  simp [outside, add, List.filter_append, h]

theorem outside_keep (k : Kernel) {p : Rule → Bool} (hp : ∀ x, x.chainId ≠ c → p x = true) :
    (k.keep p).outside c = k.outside c := by
  rw [outside, outside, keep, List.filter_filter]
  refine List.filter_congr fun x _ => ?_
  by_cases hx : x.chainId = c
  · simp [hx]
  · simp [hx, hp x hx]

theorem applyCmd_outside {cmd : NfCmd} (hcmd : cmdChain cmd = c) (h : k.applyCmd cmd = some k') :
    k'.outside c = k.outside c := by
  cases cmd with
  | add r =>
    cases h
    exact outside_add k hcmd
  | delete r =>
    have h : k.delete r = some k' := h
    unfold delete at h
    split at h
    · cases h
      refine outside_keep k fun x hx => ?_
      have hne : x.chainId ≠ r.chainId := fun heq => hx (heq.trans hcmd)
      simp [hne]
    · cases h
  | flush c' =>
    cases h
    obtain rfl : c' = c := hcmd
    exact outside_keep k fun x hx => by simpa using hx

/-- A batch for one chain leaves the other chains alone. -/
theorem apply_outside {cmds : List NfCmd} (hcmds : ∀ cmd ∈ cmds, cmdChain cmd = c) (h : k.apply cmds = some k') :
    k'.outside c = k.outside c := by
  induction cmds generalizing k with
  | nil => cases h; rfl
  | cons cmd cmds ih =>
    rw [apply_cons] at h
    obtain ⟨k₁, h₁, h₂⟩ := Option.bind_eq_some_iff.1 h
    rw [ih (fun cmd hcmd => hcmds cmd (List.mem_cons_of_mem _ hcmd)) h₂,
      applyCmd_outside (hcmds cmd List.mem_cons_self) h₁]

end Kernel
