import Letmein.Lib.NetRead
import Letmein.NftRuns

/-!
# Rule verification (`letmeinfwd/src/verify.rs`)

`verifyNftRule` looks for a rule by a text of its own making in the debug output of the rules, `letmein_` followed by
the address, the port and the protocol. The rules that `genAddLeaseCmd` makes have a comment of another form, so the
text is found in none of them, unless the table or the chain is named like that. Debug output is derived by the
compiler from the types of the nftables crate, and is a parameter here.
-/

namespace Letmein

/-- `{:?}` of a string, without the quotes around it, and of a rule. -/
structure DebugFormat where
  str : String → List Char
  rule : Rule → List Char

/-- The strings in a statement. -/
def statementStrings : Statement → List String
  | .matchEq protocol field (.string right) => [protocol, field, right]
  | .matchEq protocol field (.number _) => [protocol, field]
  | .accept => []
  | .other text => [text]

def ruleStrings (r : Rule) : List String :=
  r.table :: r.chain :: (r.expr.flatMap statementStrings ++ r.comment.toList)

/-- A part of debug output: a string in quotes, or some other text. -/
inductive DebugToken where
  | text (t : List Char)
  | quoted (s : String)

def DebugToken.chars (fmt : DebugFormat) : DebugToken → List Char
  | .text t => t
  | .quoted s => '"' :: (fmt.str s ++ ['"'])

/-- What derived debug output is like: escapes in a string have no underscore, and the text of a rule consists of
its strings in quotes, and of names of types and fields, numbers and punctuation, which have no underscore either. -/
structure DebugFormat.Derived (fmt : DebugFormat) : Prop where
  underscore : ∀ s, '_' ∈ fmt.str s → '_' ∈ s.toList
  tokens : ∀ r : Rule, (∀ text, Statement.other text ∉ r.expr) → ∃ tokens : List DebugToken,
    fmt.rule r = tokens.flatMap (DebugToken.chars fmt) ∧ (∀ t, .text t ∈ tokens → '_' ∉ t) ∧
    ∀ s, .quoted s ∈ tokens ↔ s ∈ ruleStrings r

/-- `format!("letmein_{}-{}/{}", addr, port, proto)` -/
def verifyComment (addr : IpAddr) (port : UInt16) (proto : String) : List Char :=
  "letmein_".toList ++ addr.text ++ '-' :: (Nat.toDigits 10 port.toNat ++ '/' :: proto.toList)

/-- Verify if a rule exists or is missing in the ruleset. `ruleset` is what the kernel lists, or an error. -/
def verifyNftRule (fmt : DebugFormat) (ruleset : Except String (List Rule)) (addrStr : Text) (port : UInt16)
    (proto : String) (shouldExist : Bool) : Except String Bool :=
  match IpAddr.fromStr addrStr with
  | none => .ok false
  | some addr => do
    let objs ← ruleset
    let ruleExists := objs.any fun rule => verifyComment addr port proto <:+: fmt.rule rule
    return if shouldExist then ruleExists else !ruleExists

def SingleLeasePort.proto : SingleLeasePort → String
  | .tcp _ => "tcp"
  | .udp _ => "udp"

/-- The ruleset has the rule that opens the port for the address. -/
def RulePresent (conf : Config) (objs : List Rule) (addr : IpAddr) (port : SingleLeasePort) : Prop :=
  ∃ r ∈ objs, genAddLeaseCmd conf (some addr) port = .ok (.add r.erase)

/-- The text is part of the name of the table or of the chain, as they are shown. -/
def NamedAfter (fmt : DebugFormat) (conf : Config) (addr : IpAddr) (port : SingleLeasePort) : Prop :=
  verifyComment addr port.num port.proto <:+: fmt.str conf.nftTable ∨
    verifyComment addr port.num port.proto <:+: fmt.str conf.nftChainInput

/-! ### The text that is looked for -/

theorem underscore_mem_verifyComment (addr : IpAddr) (port : UInt16) (proto : String) :
    '_' ∈ verifyComment addr port proto := by
  unfold verifyComment
  rw [List.append_assoc]
  exact List.mem_append_left _ (by decide)

theorem quote_notMem_verifyComment (addr : IpAddr) (port : SingleLeasePort) :
    '"' ∉ verifyComment addr port.num port.proto := by
  have haddr : '"' ∉ addr.text := addr.notMem_text (by decide) (by decide) (by decide)
  have hport : '"' ∉ Nat.toDigits 10 port.num.toNat := Nat.notMem_toDigits (by decide) (by decide) (by decide)
  have hproto : '"' ∉ port.proto.toList := by
    rcases port with n | n
    · show '"' ∉ "tcp".toList
      decide
    · show '"' ∉ "udp".toList
      decide
  have hname : '"' ∉ "letmein_".toList := by decide
  intro h
  rcases List.mem_append.mp h with h | h
  · exact (List.mem_append.mp h).elim hname haddr
  · rcases List.mem_cons.mp h with h | h
    · exact absurd h (by decide)
    · rcases List.mem_append.mp h with h | h
      · exact hport h
      · rcases List.mem_cons.mp h with h | h
        · exact absurd h (by decide)
        · exact hproto h

/-! ### The rules that letmein makes -/

theorem nftTable_of_readConfiguration {conf : Config} {names : NftNames} (h : readConfiguration conf = .ok names) :
    names.table = conf.nftTable ∧ names.chainInput = conf.nftChainInput := by
  have h := Except.mapError_ok_iff.mp h
  simp only [NftNames.get, bind, Except.bind, pure, Except.pure] at h
  by_cases htable : conf.nftTable = ""
  · simp only [if_pos htable] at h
    split at h <;> cases h
  by_cases hchain : conf.nftChainInput = ""
  · simp only [if_neg htable, if_pos hchain] at h
    split at h <;> cases h
  simp only [if_neg htable, if_neg hchain] at h
  split at h <;> cases h <;> exact ⟨rfl, rfl⟩

theorem underscore_notMem_genRuleComment (addr : Option IpAddr) (port : SingleLeasePort) :
    '_' ∉ (genRuleComment addr port).toList := by
  have haddr : '_' ∉ addrText addr := by
    cases addr with
    | none => decide
    | some addr => exact addr.notMem_text (by decide) (by decide) (by decide)
  have hport : '_' ∉ port.text.toList := by
    rcases port with n | n <;> simp [SingleLeasePort.text, toString, Nat.repr]
  rw [genRuleComment_toList]
  simp only [List.mem_append, List.mem_cons, not_or]
  exact ⟨haddr, by decide, hport, by decide, by decide⟩

/-- The strings of a rule that letmein makes: the names of its chain, and others that have no underscore. -/
theorem ruleStrings_generated {conf : Config} {addr : Option IpAddr} {port : SingleLeasePort} {r : Rule}
    (h : genAddLeaseCmd conf addr port = .ok (.add r.erase)) :
    (∀ text, Statement.other text ∉ r.expr) ∧ r.table = conf.nftTable ∧ r.chain = conf.nftChainInput ∧
      ∀ s ∈ ruleStrings r, s = conf.nftTable ∨ s = conf.nftChainInput ∨ '_' ∉ s.toList := by
  obtain ⟨names, hn, -, hcmd⟩ := genAddLeaseCmd_ok h
  obtain ⟨htable, hchain⟩ := nftTable_of_readConfiguration hn
  have hr : r.erase = ruleOf names addr port := NfCmd.add.inj hcmd
  have hexpr : r.expr = saddrOf names.family addr ++ [statementMatchDport port, .accept] := congrArg Rule.expr hr
  have hcomment : r.comment = some (genRuleComment addr port) := congrArg Rule.comment hr
  have htable' : r.table = conf.nftTable := (congrArg Rule.table hr).trans htable
  have hchain' : r.chain = conf.nftChainInput := (congrArg Rule.chain hr).trans hchain
  have hstatement : ∀ st ∈ r.expr, (∀ text, st ≠ .other text) ∧ ∀ s ∈ statementStrings st, '_' ∉ s.toList := by
    intro st hst
    rw [hexpr] at hst
    rcases List.mem_append.mp hst with hst | hst
    · obtain ⟨a, -, hst⟩ := mem_saddrOf hst
      have htext : ∀ b : IpAddr, '_' ∉ b.text := fun b => b.notMem_text (by decide) (by decide) (by decide)
      rcases statementMatchSaddr_ok hst with ⟨b, -, -, rfl⟩ | ⟨b, -, rfl⟩
      · exact ⟨by simp, by simp [statementStrings, htext]⟩
      · exact ⟨by simp, by simp [statementStrings, htext]⟩
    · rcases port with n | n <;> rcases List.mem_cons.mp hst with rfl | hst
      · exact ⟨by simp [statementMatchDport], by simp [statementStrings, statementMatchDport]⟩
      · rw [List.mem_singleton.mp hst]
        exact ⟨by simp, by simp [statementStrings]⟩
      · exact ⟨by simp [statementMatchDport], by simp [statementStrings, statementMatchDport]⟩
      · rw [List.mem_singleton.mp hst]
        exact ⟨by simp, by simp [statementStrings]⟩
  refine ⟨?_, htable', hchain', ?_⟩
  · intro text hmem
    exact (hstatement _ hmem).1 text rfl
  · intro s hs
    rcases List.mem_cons.mp hs with rfl | hs
    · exact .inl htable'
    rcases List.mem_cons.mp hs with rfl | hs
    · exact .inr (.inl hchain')
    rcases List.mem_append.mp hs with hs | hs
    · obtain ⟨st, hst, hs⟩ := List.mem_flatMap.mp hs
      exact .inr (.inr ((hstatement st hst).2 s hs))
    · rw [hcomment, Option.toList_some, List.mem_singleton] at hs
      rw [hs]
      exact .inr (.inr (underscore_notMem_genRuleComment addr port))

/-! ### What is found -/

variable {fmt : DebugFormat}

/-- A text with an underscore and without quotes is found in debug output exactly if it is found in a string. -/
theorem infix_tokens_iff (fmt : DebugFormat) {l : List Char} (hunderscore : '_' ∈ l) (hquote : '"' ∉ l) {tokens : List DebugToken}
    (htokens : ∀ t, .text t ∈ tokens → '_' ∉ t) (before : List Char) (hbefore : '_' ∉ before) :
    l <:+: before ++ tokens.flatMap (DebugToken.chars fmt) ↔ ∃ s, .quoted s ∈ tokens ∧ l <:+: fmt.str s := by
  induction tokens generalizing before with
  | nil =>
    have hnot : ¬ l <:+: before := fun h => hbefore (h.subset hunderscore)
    simpa using hnot
  | cons token tokens ih =>
    have hrest : ∀ t, .text t ∈ tokens → '_' ∉ t := fun t ht => htokens t (List.mem_cons_of_mem _ ht)
    cases token with
    | text t =>
      have ht : '_' ∉ before ++ t := by
        rw [List.mem_append, not_or]
        exact ⟨hbefore, htokens t List.mem_cons_self⟩
      rw [List.flatMap_cons, DebugToken.chars, ← List.append_assoc, ih hrest _ ht]
      simp
    | quoted s =>
      have hnot : ¬ l <:+: before := fun h => hbefore (h.subset hunderscore)
      have hih := ih hrest [] List.not_mem_nil
      rw [List.nil_append] at hih
      rw [List.flatMap_cons, DebugToken.chars, List.cons_append, List.append_assoc, List.singleton_append,
        List.infix_append_cons_iff hquote, List.infix_append_cons_iff hquote, hih, or_iff_right hnot]
      constructor
      · rintro (h | ⟨s', hs', h⟩)
        · exact ⟨s, List.mem_cons_self, h⟩
        · exact ⟨s', List.mem_cons_of_mem _ hs', h⟩
      · rintro ⟨s', hs', h⟩
        rcases List.mem_cons.mp hs' with heq | hs'
        · cases heq
          exact .inl h
        · exact .inr ⟨s', hs', h⟩

/-- The text is found in a rule that letmein makes exactly if the table or the chain is named after it. -/
theorem verifyComment_infix_iff (hd : fmt.Derived) {conf : Config} {a : Option IpAddr} {p : SingleLeasePort}
    {r : Rule} (h : genAddLeaseCmd conf a p = .ok (.add r.erase)) (addr : IpAddr) (port : SingleLeasePort) :
    verifyComment addr port.num port.proto <:+: fmt.rule r ↔ NamedAfter fmt conf addr port := by
  obtain ⟨hplain, htable, hchain, hstrings⟩ := ruleStrings_generated h
  obtain ⟨tokens, htext, hno, hquoted⟩ := hd.tokens r hplain
  have hmem := underscore_mem_verifyComment addr port.num port.proto
  have hiff := infix_tokens_iff fmt hmem (quote_notMem_verifyComment addr port) hno [] List.not_mem_nil
  rw [List.nil_append, ← htext] at hiff
  rw [hiff]
  constructor
  · rintro ⟨s, hs, hpart⟩
    rcases hstrings s ((hquoted s).mp hs) with rfl | rfl | hno
    · exact .inl hpart
    · exact .inr hpart
    · exact absurd (hd.underscore s (hpart.subset hmem)) hno
  · rintro (hpart | hpart)
    · rw [← htable] at hpart
      exact ⟨_, (hquoted _).mpr List.mem_cons_self, hpart⟩
    · rw [← hchain] at hpart
      exact ⟨_, (hquoted _).mpr (List.mem_cons_of_mem _ List.mem_cons_self), hpart⟩

/-- Every rule of the ruleset is one that letmein makes, for some address or for everyone. -/
def OnlyGenerated (conf : Config) (objs : List Rule) : Prop :=
  ∀ r ∈ objs, ∃ a p, genAddLeaseCmd conf a p = .ok (.add r.erase)

theorem verifyNftRule_true_iff (hd : fmt.Derived) {conf : Config} {objs : List Rule}
    (hobjs : OnlyGenerated conf objs) {addrStr : Text} {addr : IpAddr} (haddr : IpAddr.fromStr addrStr = some addr)
    (port : SingleLeasePort) (shouldExist : Bool) :
    verifyNftRule fmt (.ok objs) addrStr port.num port.proto shouldExist = .ok true ↔
      ((objs ≠ [] ∧ NamedAfter fmt conf addr port) ↔ shouldExist = true) := by
  have hany : (objs.any fun rule => verifyComment addr port.num port.proto <:+: fmt.rule rule) = true ↔
      objs ≠ [] ∧ NamedAfter fmt conf addr port := by
    rw [List.any_eq_true]
    constructor
    · rintro ⟨r, hr, hpart⟩
      obtain ⟨a, p, hgen⟩ := hobjs r hr
      exact ⟨List.ne_nil_of_mem hr, (verifyComment_infix_iff hd hgen addr port).mp (of_decide_eq_true hpart)⟩
    · rintro ⟨hne, hnamed⟩
      obtain ⟨r, hr⟩ := List.exists_mem_of_ne_nil objs hne
      obtain ⟨a, p, hgen⟩ := hobjs r hr
      exact ⟨r, hr, decide_eq_true ((verifyComment_infix_iff hd hgen addr port).mpr hnamed)⟩
  rw [← hany]
  simp only [verifyNftRule, haddr, bind, Except.bind, pure, Except.pure, Except.ok.injEq]
  cases shouldExist <;> simp

/-- The verification agrees with the presence of the rule exactly if the rule is missing and neither the table nor the
chain is named after it, or present and one of them is. -/
theorem verify_agrees_iff (hd : fmt.Derived) {conf : Config} {objs : List Rule}
    (hobjs : OnlyGenerated conf objs) {addrStr : Text} {addr : IpAddr} (haddr : IpAddr.fromStr addrStr = some addr)
    (port : SingleLeasePort) (shouldExist : Bool) :
    (verifyNftRule fmt (.ok objs) addrStr port.num port.proto shouldExist = .ok true ↔
      (RulePresent conf objs addr port ↔ shouldExist = true)) ↔
    (RulePresent conf objs addr port ↔ objs ≠ [] ∧ NamedAfter fmt conf addr port) := by
  rw [verifyNftRule_true_iff hd hobjs haddr]
  by_cases hpresent : RulePresent conf objs addr port <;>
    by_cases hfound : objs ≠ [] ∧ NamedAfter fmt conf addr port <;>
    cases shouldExist <;> simp [hpresent, hfound]

/-! ### Debug output of the crate -/

namespace SampleDebug

def familyText : NfFamily → String
  | .ip => "IP"
  | .ip6 => "IP6"
  | .inet => "INet"
  | .arp => "ARP"
  | .bridge => "Bridge"
  | .netdev => "NetDev"

def fieldTokens (protocol field : String) : List DebugToken :=
  [.text "Match(Match \x7b left: Named(Payload(PayloadField(PayloadField \x7b protocol: ".toList, .quoted protocol,
    .text ", field: ".toList, .quoted field, .text " \x7d))), right: ".toList]

def statementTokens : Statement → List DebugToken
  | .matchEq protocol field (.string right) => fieldTokens protocol field ++
      [.text "String(".toList, .quoted right, .text "), op: EQ \x7d)".toList]
  | .matchEq protocol field (.number n) => fieldTokens protocol field ++
      [.text "Number(".toList, .text (Nat.toDigits 10 n), .text "), op: EQ \x7d)".toList]
  | .accept => [.text "Accept(None)".toList]
  | .other _ => []

def exprTokens : List Statement → List DebugToken
  | [] => []
  | [st] => statementTokens st
  | st :: sts => statementTokens st ++ .text ", ".toList :: exprTokens sts

def handleTokens : Option Nat → List DebugToken
  | some handle => [.text "Some(".toList, .text (Nat.toDigits 10 handle), .text ")".toList]
  | none => [.text "None".toList]

def commentTokens : Option String → List DebugToken
  | some comment => [.text "Some(".toList, .quoted comment, .text ")".toList]
  | none => [.text "None".toList]

def ruleTokens (r : Rule) : List DebugToken :=
  [.text "Rule \x7b family: ".toList, .text (familyText r.family).toList, .text ", table: ".toList, .quoted r.table,
    .text ", chain: ".toList, .quoted r.chain, .text ", expr: [".toList] ++ exprTokens r.expr ++
  [.text "], handle: ".toList] ++ handleTokens r.handle ++ [.text ", index: None, comment: ".toList] ++
  commentTokens r.comment ++ [.text " \x7d".toList]

/-- Debug output of texts without anything to escape. -/
def format : DebugFormat where
  str := String.toList
  rule r := (ruleTokens r).flatMap (DebugToken.chars ⟨String.toList, fun _ => []⟩)

theorem quoted_statementTokens {st : Statement} (h : ∀ text, st ≠ .other text) (s : String) :
    .quoted s ∈ statementTokens st ↔ s ∈ statementStrings st := by
  rcases st with ⟨protocol, field, right | n⟩ | _ | text
  · simp [statementTokens, statementStrings, fieldTokens]
  · simp [statementTokens, statementStrings, fieldTokens]
  · simp [statementTokens, statementStrings]
  · exact absurd rfl (h text)

theorem quoted_exprTokens {expr : List Statement} (h : ∀ text, .other text ∉ expr) (s : String) :
    .quoted s ∈ exprTokens expr ↔ s ∈ expr.flatMap statementStrings := by
  induction expr with
  | nil => simp [exprTokens]
  | cons st sts ih =>
    have hst : ∀ text, st ≠ .other text := fun text heq => h text (by rw [heq]; exact List.mem_cons_self)
    have hsts := ih fun text ht => h text (List.mem_cons_of_mem _ ht)
    cases sts with
    | nil => simpa [exprTokens] using quoted_statementTokens hst s
    | cons st' sts =>
      have htokens : exprTokens (st :: st' :: sts) = statementTokens st ++ .text ", ".toList :: exprTokens (st' :: sts) :=
        rfl
      rw [htokens, List.mem_append, List.mem_cons, quoted_statementTokens hst, hsts, List.flatMap_cons, List.mem_append]
      simp

theorem text_statementTokens (st : Statement) : ∀ t, .text t ∈ statementTokens st → '_' ∉ t := by
  intro t ht
  have hdigits : ∀ n, '_' ∉ Nat.toDigits 10 n := fun n => Nat.notMem_toDigits (by decide) (by decide) (by decide)
  rcases st with ⟨protocol, field, right | n⟩ | _ | text
  · simp only [statementTokens, fieldTokens, List.cons_append, List.nil_append, List.mem_cons, DebugToken.text.injEq,
      reduceCtorEq, List.not_mem_nil, false_or, or_false] at ht
    rcases ht with rfl | rfl | rfl | rfl | rfl <;> decide
  · simp only [statementTokens, fieldTokens, List.cons_append, List.nil_append, List.mem_cons, DebugToken.text.injEq,
      reduceCtorEq, List.not_mem_nil, false_or, or_false] at ht
    rcases ht with rfl | rfl | rfl | rfl | rfl | rfl <;> first | decide | exact hdigits n
  · simp only [statementTokens, List.mem_cons, DebugToken.text.injEq, List.not_mem_nil, or_false] at ht
    rw [ht]
    decide
  · cases ht

theorem text_exprTokens (expr : List Statement) : ∀ t, .text t ∈ exprTokens expr → '_' ∉ t := by
  intro t ht
  induction expr with
  | nil => cases ht
  | cons st sts ih =>
    cases sts with
    | nil => exact text_statementTokens st t ht
    | cons st' sts =>
      have htokens : exprTokens (st :: st' :: sts) = statementTokens st ++ .text ", ".toList :: exprTokens (st' :: sts) :=
        rfl
      rw [htokens, List.mem_append, List.mem_cons] at ht
      rcases ht with ht | ht | ht
      · exact text_statementTokens st t ht
      · rw [DebugToken.text.inj ht]
        decide
      · exact ih ht

theorem format_derived : format.Derived where
  underscore _ h := h
  tokens r hplain := by
    have hdigits : ∀ n, '_' ∉ Nat.toDigits 10 n := fun n => Nat.notMem_toDigits (by decide) (by decide) (by decide)
    refine ⟨ruleTokens r, ?_, ?_, ?_⟩
    · show (ruleTokens r).flatMap _ = _
      congr 1
    · intro t ht
      simp only [ruleTokens, List.mem_append, List.mem_cons, DebugToken.text.injEq, reduceCtorEq, List.not_mem_nil,
        false_or, or_false] at ht
      rcases ht with (((((ht | ht) | rfl) | ht) | rfl) | ht) | rfl
      · rcases ht with rfl | rfl | rfl | rfl | rfl
        · decide
        · cases r.family <;> decide
        · decide
        · decide
        · decide
      · exact text_exprTokens r.expr t ht
      · decide
      · cases hh : r.handle with
        | none =>
          rw [hh, handleTokens, List.mem_singleton] at ht
          rw [DebugToken.text.inj ht]
          decide
        | some handle =>
          simp only [hh, handleTokens, List.mem_cons, DebugToken.text.injEq, List.not_mem_nil, or_false] at ht
          rcases ht with rfl | rfl | rfl
          · decide
          · exact hdigits handle
          · decide
      · decide
      · cases hc : r.comment with
        | none =>
          rw [hc, commentTokens, List.mem_singleton] at ht
          rw [DebugToken.text.inj ht]
          decide
        | some comment =>
          simp only [hc, commentTokens, List.mem_cons, DebugToken.text.injEq, reduceCtorEq, List.not_mem_nil, or_false,
            false_or] at ht
          rcases ht with rfl | rfl <;> decide
      · decide
    · intro s
      simp only [ruleTokens, ruleStrings, List.mem_append, List.mem_cons, DebugToken.quoted.injEq, reduceCtorEq,
        List.not_mem_nil, false_or, or_false, quoted_exprTokens hplain]
      cases r.handle <;> cases r.comment <;> simp [handleTokens, commentTokens, or_assoc]

end SampleDebug

/-- The chain has the rule for one address and port. -/
def sampleRuleset : List Rule :=
  [{ ruleOf sampleNames (some (.v4 ⟨192, 0, 2, 7⟩)) (.tcp 22) with handle := some 2 }]

theorem sampleRuleset_generated : OnlyGenerated sampleConf sampleRuleset := by
  intro r hr
  rw [List.mem_singleton.mp hr]
  exact ⟨some (.v4 ⟨192, 0, 2, 7⟩), .tcp 22, rfl⟩

theorem verify_agrees_iff_sample :
    verifyNftRule SampleDebug.format (.ok sampleRuleset) "198.51.100.1".toList 22 "tcp" false = .ok true ↔
      (RulePresent sampleConf sampleRuleset (.v4 ⟨198, 51, 100, 1⟩) (.tcp 22) ↔ false = true) := by
  have habsent : ¬ RulePresent sampleConf sampleRuleset (.v4 ⟨198, 51, 100, 1⟩) (.tcp 22) := by
    rintro ⟨r, hr, hgen⟩
    rw [List.mem_singleton.mp hr] at hgen
    exact absurd (genRuleComment_injective (Option.some.inj (congrArg Rule.comment (NfCmd.add.inj (Except.ok.inj hgen))))).1
      (by decide)
  have hnamed : ¬ NamedAfter SampleDebug.format sampleConf (.v4 ⟨198, 51, 100, 1⟩) (.tcp 22) := by
    have hmem := underscore_mem_verifyComment (.v4 ⟨198, 51, 100, 1⟩) 22 "tcp"
    rintro (h | h)
    · exact absurd (h.subset hmem) (by decide)
    · exact absurd (h.subset hmem) (by decide)
  exact (verify_agrees_iff SampleDebug.format_derived sampleRuleset_generated (by decide) (.tcp 22) false).mpr
    ⟨fun h => (habsent h).elim, fun h => (hnamed h.2).elim⟩

/-- The rule is there, and it is not found. -/
theorem verify_misses_rule : OnlyGenerated sampleConf sampleRuleset ∧
    RulePresent sampleConf sampleRuleset (.v4 ⟨192, 0, 2, 7⟩) (.tcp 22) ∧
    verifyNftRule SampleDebug.format (.ok sampleRuleset) "192.0.2.7".toList 22 "tcp" true = .ok false ∧
    ¬ (verifyNftRule SampleDebug.format (.ok sampleRuleset) "192.0.2.7".toList 22 "tcp" true = .ok true ↔
      (RulePresent sampleConf sampleRuleset (.v4 ⟨192, 0, 2, 7⟩) (.tcp 22) ↔ true = true)) := by
  have hpresent : RulePresent sampleConf sampleRuleset (.v4 ⟨192, 0, 2, 7⟩) (.tcp 22) :=
    ⟨_, List.mem_cons_self, rfl⟩
  have hverify : verifyNftRule SampleDebug.format (.ok sampleRuleset) "192.0.2.7".toList 22 "tcp" true = .ok false := by
    decide +kernel
  refine ⟨sampleRuleset_generated, hpresent, hverify, ?_⟩
  rw [hverify]
  simp [hpresent]

end Letmein
