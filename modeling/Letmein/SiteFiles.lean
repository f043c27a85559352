import Letmein.ConfFile
import Letmein.ConfTable
import Letmein.SiteRules

/-!
# Sites and their configuration files

From the texts of the two configuration files to the rules of the chain. What the server's file says about keys and
resources is all that a rule can be for, and what both files say is enough for the `knock` command of the client to
get in (`files_decide`).
-/

namespace Letmein
open Text

/-! ## Loaded files -/

section
variable [StdText] {variant : ConfigVariant} {content : Text} {conf : Config}

/-- A new configuration that has loaded a file with this content. The client also "loads" a file that is not valid. -/
structure Loaded (variant : ConfigVariant) (content : Text) (conf : Config) : Prop where
  valid : Ini.ValidBytes (encode content)
  load : ∃ path it itR, (Config.new variant).load path (.content (encode content)) it itR = (.ok (), conf)

omit [StdText] in
/-- The text has this key for the user. Of two lines with one name, the last one counts. -/
def KeyLine (content : Text) (user : UserId) (key : Key) : Prop :=
  ∃ o ∈ Finmap.lastEntries (keyLines content), keyOf o.1 o.2 = .ok (user, key)

/-- The text has this resource. -/
def ResourceLine (content : Text) (id : ResourceId) (res : Resource) : Prop :=
  ∃ o ∈ Finmap.lastEntries (resourceLines content), resourceOf o.1 o.2 = .ok (id, res)

namespace Loaded

theorem readIni (h : Loaded variant content conf) : ∃ ini it itR, Ini.parseStr {} content = (.ok (), ini) ∧
    getPort ini = .ok conf.port ∧ getKeys ini it = .ok conf.keys ∧ getResources ini it itR = .ok conf.resources := by
  obtain ⟨path, it, itR, hload⟩ := h.load
  obtain ⟨ini, hini⟩ := Ini.newFromFile_returns_iff.2 ⟨_, rfl, h.valid⟩
  obtain ⟨bytes, text, hbytes, htext, hparse⟩ := Ini.newFromFile_ok_iff.1 hini
  cases hbytes
  rw [decode_encode] at htext
  cases htext
  obtain ⟨fresh, hfresh, rfl⟩ := load_content hini hload
  obtain ⟨-, hport, hkeys, hres⟩ := readIni_ok (loadIni_ok hfresh)
  exact ⟨ini, it, itR, hparse, hport, hkeys, hres⟩

theorem key_iff (h : Loaded variant content conf) {user : UserId} {key : Key} :
    conf.key user = some key ↔ KeyLine content user key := by
  obtain ⟨ini, it, itR, hparse, -, hkeys, -⟩ := h.readIni
  rw [Config.key, (getKeys_ok_iff.1 hkeys).lookup]
  simp only [options_lookup hparse, KeyLine, keyLines, Prod.exists]

theorem resource_iff (h : Loaded variant content conf) {id : ResourceId} {res : Resource} :
    conf.resource id = some res ↔ ResourceLine content id res := by
  obtain ⟨ini, it, itR, hparse, -, -, hres⟩ := h.readIni
  rw [Config.resource, (getResources_ok_iff.1 hres).lookup]
  simp only [options_lookup hparse, ResourceLine, resourceLines, Prod.exists]

theorem table (h : Loaded variant content conf) : ResourceTable conf.resources := by
  obtain ⟨ini, it, itR, -, -, -, hres⟩ := h.readIni
  exact getResources_table hres

theorem hasProtocols (h : Loaded variant content conf) : conf.HasProtocols := by
  obtain ⟨ini, it, itR, -, hport, -, -⟩ := h.readIni
  exact ⟨getPort_ok hport, h.table.protocols⟩

/-- No two resources have the same port. -/
theorem portsAgree (h : Loaded variant content conf) : PortsAgree conf := by
  intro id id' res res' hres hres' hnum
  rw [← res.portNumber_eq, ← res'.portNumber_eq] at hnum
  obtain rfl := h.table.ports id id' res res' hres hres' hnum
  rw [hres] at hres'
  cases hres'
  rfl

end Loaded

/-! ## The client's command -/

/-- What the `knock` command makes of a file that has the user's key and a resource for the port. -/
theorem Loaded.seq (h : Loaded variant content conf) {user : Option UserId} {userId : UserId}
    (huser : user.getD conf.defaultUser = userId) {key : Key} (hkey : KeyLine content userId key) {id : ResourceId}
    {res : Resource} (hres : ResourceLine content id res) {port : UInt16} (hserves : res.Serves port (some userId))
    (command : CommandServer) (it : IterOrder ResourceId) :
    ∃ seq, command.seq conf it port user = .ok seq ∧ seq.toClientSeq = ⟨userId, id, key⟩ ∧ seq.addr = command.addr ∧
      seq.controlPort = command.toControlPort conf := by
  have hid : conf.resourceIdByPort it port (some userId) = some id :=
    h.table.resourceIdByPort_iff.2 ⟨res, h.resource_iff.2 hres, hserves⟩
  refine ⟨⟨⟨userId, id, key⟩, command.addr, command.toControlPort conf, conf.controlTimeout⟩, ?_, rfl, rfl, rfl⟩
  unfold CommandServer.seq
  dsimp only
  rw [huser, h.key_iff.2 hkey]
  dsimp only
  rw [hid]

end

/-! ## Who gets in -/

variable {Auth : Type} [AuthToken Auth] [DecidableEq Auth] {names : NftNames} {site : Site} {s : SiteState Auth}

/-- Session `i` and client run `j` have not begun, the run knocks as this sequence says, and letmeinfwd accepts
connections of letmeind and can open ports for the address of the peer. -/
structure Site.Idle (site : Site) (names : NftNames) (s : SiteState Auth) (i j : Nat) (seq : ClientSeq) : Prop where
  kind : site.kind j = .knock
  seq : site.seq j = seq
  server : proj (.server i) s.log = []
  client : proj (.client j) s.log = []
  addr : addrCheck (site.peer i) = true
  supported : Supported names.family (site.peer i)
  ready : s.daemon.Ready
  connections : 0 < site.opts.numConnections
  letmeind : ∃ cred pidFile it, ∀ reads, IsLetmeind site.opts ⟨.ok cred, pidFile, reads, .ok (), it⟩ cred

/-- For every state that a site can reach whose server has loaded a file: every rule of the chain is one of the control
port, or a session has asked for it on behalf of a user and a resource of the file. And if a client has loaded a file
with the same key for the user and the same resource for the port, then its command for the port is a run that gets in,
unless the port is the control port. -/
theorem files_decide [StdText] [FreeHmac Auth] (hfresh : ∀ log : NetLog Auth, ∃ c, Fresh log c)
    {serverText clientText : Text} {client : Config} (hserver : Loaded .server serverText site.conf)
    (hclient : Loaded .client clientText client) (hn : NftNames.get site.conf = .ok names) (h : site.Reaches s) :
    (∀ r ∈ s.daemon.firewall.kernel.rules, r.chainId = names.chain → r.erase ∈ ctrlRules site.conf names ∨
      ∃ i user key resource res portType, KeyLine serverText user key ∧ ResourceLine serverText resource res ∧
        Authorises site.toHandshake names s.log i user resource res portType r.erase) ∧
    ∀ (command : CommandServer) (it : IterOrder ResourceId) (port : UInt16) (user : Option UserId) (key : Key)
      (resource : ResourceId) (res res' : Resource),
      KeyLine serverText (user.getD client.defaultUser) key → KeyLine clientText (user.getD client.defaultUser) key →
      ResourceLine serverText resource res → ResourceLine clientText resource res' →
      res.Serves port (some (user.getD client.defaultUser)) → res'.Serves port (some (user.getD client.defaultUser)) →
      port ≠ site.conf.port.port →
      ∃ seq portType, command.seq client it port user = .ok seq ∧ res.portType = .ok portType ∧
        (∀ lookup mode addr, resolve lookup command.addr mode = .ok addr →
          (seq.knockSequence lookup mode : Endpoint Auth Unit) = seq.toClientSeq.knockSequence) ∧
        ∀ i j, site.Idle names s i j seq.toClientSeq →
          ∃ s', Relation.ReflTransGen site.Step s s' ∧ s'.cur (.client j) = .ret () ∧ s'.daemon.Ready ∧
            ∀ single ∈ (leasePort portType port).singles,
              Accepts names s'.daemon.firewall.kernel (site.peer i) single := by
  have hn := FwState.readConfiguration_eq hn
  refine ⟨fun r hr hchain => ?_, ?_⟩
  · have hinv := h.inv hn
    rcases hinv.held.rules r.erase (Kernel.mem_content.2 ⟨r, hr, hchain, rfl⟩) with hctrl | ⟨id, hid, hrule⟩
    · exact .inl hctrl
    · obtain ⟨i, user, resource, res, portType, hauth⟩ := hid.authorises hinv.handshakes hrule
      obtain ⟨key, hkey⟩ := hauth.key_ok
      exact .inr ⟨i, user, key, resource, res, portType, hserver.key_iff.1 hkey,
        hserver.resource_iff.1 hauth.resource_ok, hauth⟩
  · intro command it port user key resource res res' hkey hkey' hres hres' hserves hserves' hport
    obtain ⟨seq, hseq, hclientSeq, haddr, hctrl⟩ := hclient.seq rfl hkey' hres' hserves' command it
    obtain ⟨portType, hportType⟩ := hserver.hasProtocols.portType (hserver.resource_iff.2 hres)
    obtain rfl : res.num = port := res.portNumber_eq.symm.trans hserves.1
    refine ⟨seq, portType, hseq, hportType, ?_, ?_⟩
    · intro lookup mode addr hresolve
      rw [CommandSeq.knockSequence, haddr, hresolve,
        initClient_ok (hctrl ▸ toControlPort_protocol hclient.hasProtocols command)]
      rfl
    · intro i j hidle
      obtain ⟨cred, pidFile, itR, hcred⟩ := hidle.letmeind
      have hadmits : site.Admits names i j res portType := by
        refine ⟨hidle.kind, ?_, ?_, ?_, hport, hportType, hidle.addr, hidle.supported⟩
        all_goals rw [hidle.seq, hclientSeq]
        · exact hserver.key_iff.2 hkey
        · exact hserver.resource_iff.2 hres
        · exact hserves.2 _ rfl
      obtain ⟨s', last, hsteps, hret, hready, hlease, -, -⟩ := h.knock hn hfresh hidle.ready hidle.connections
        hidle.server hidle.client hadmits (sampleEnv_works 0) hcred
      exact ⟨s', hsteps, hret, hready, fun single hsingle =>
        (h.steps hsteps).accepts hn hserver.portsAgree hready hlease hsingle⟩

/-! ### Two files -/

/-- The files of server and client: user 1 may have port 22 for TCP. -/
def siteText : Text :=
  "[KEYS]\n1 = ".toList ++ (List.replicate 32 ['0', '7']).flatten ++
    "\n[RESOURCES]\n2 = port:22/users:1\n[NFTABLES]\nfamily = inet\ntable = filter\nchain-input = LETMEIN-INPUT\n".toList

def siteIni : Ini := (Ini.parseStr {} siteText).2

noncomputable def siteOrder : IterOrder Text := .ofKeys ["1".toList, "2".toList] (by decide)

theorem siteText_parse : Ini.parseStr {} siteText = (.ok (), siteIni) := by
  have h : (Ini.parseStr {} siteText).1 = .ok () := by decide +kernel
  rw [siteIni, ← h]

def siteServer : Config :=
  { sampleServer with
    nftExe := "nft", nftFamily := "inet", nftTable := "filter", nftChainInput := "LETMEIN-INPUT" }

def siteClient : Config := { sampleServer with variant := .client }

set_option maxRecDepth 20000 in
theorem siteIni_server : @Config.loadIni asciiStd siteIni (.new .server) siteOrder (anyOrder _) = (.ok (), siteServer) := by
  let := asciiStd
  simp only [Config.loadIni, readIni]
  rfl

set_option maxRecDepth 20000 in
theorem siteIni_client : @Config.loadIni asciiStd siteIni (.new .client) siteOrder (anyOrder _) = (.ok (), siteClient) := by
  let := asciiStd
  simp only [Config.loadIni, readIni]
  rfl

theorem loaded_siteText {variant : ConfigVariant} {conf : Config}
    (h : @Config.loadIni asciiStd siteIni (.new variant) siteOrder (anyOrder _) = (.ok (), conf)) (path : String) :
    @Loaded asciiStd variant siteText { conf with path := some path } := by
  have hini : Ini.newFromFile (.content (encode siteText)) = .ok siteIni :=
    Ini.newFromFile_ok_iff.2 ⟨_, _, rfl, decode_encode _, siteText_parse⟩
  obtain ⟨bytes, hbytes, hvalid⟩ := Ini.newFromFile_returns_iff.1 ⟨_, hini⟩
  cases hbytes
  refine @Loaded.mk asciiStd _ _ _ hvalid ⟨path, siteOrder, anyOrder _, ?_⟩
  unfold Config.load
  rw [hini]
  simp only [h]

/-- The clients run `letmein knock --user 1` for port 22. -/
def fileSite : Site := { sampleSite with conf := { siteServer with path := some "letmeind.conf" } }

theorem fileSite_starts : ∃ fw k', fileSite.Starts
    (⟨[], fileSite.init, .start fileSite.opts fw k', []⟩ : SiteState SymAuth) := by
  have hnew : NftFirewall.new fileSite.conf (sampleEnv 0 []) .empty = .ok (_, _) := rfl
  exact ⟨_, _, ⟨hnew⟩⟩

theorem fileSite_idle (s : SiteState SymAuth) (hlog : s.log = []) (hready : s.daemon.Ready) (i j : Nat) :
    fileSite.Idle sampleNames s i j ⟨⟨1⟩, ⟨2⟩, sampleKey⟩ where
  kind := rfl
  seq := rfl
  server := by rw [hlog]; rfl
  client := by rw [hlog]; rfl
  addr := rfl
  supported := ⟨_, rfl⟩
  ready := hready
  connections := by decide
  letmeind := ⟨_, _, _, sampleSite_isLetmeind⟩

theorem files_decide_sample : ∃ s : SiteState SymAuth, fileSite.Reaches s ∧ s.cur (.client 0) = .ret () ∧
    Accepts sampleNames s.daemon.firewall.kernel (.v4 ⟨192, 0, 2, 7⟩) (.tcp 22) := by
  have hserver : @Loaded asciiStd .server siteText fileSite.conf := loaded_siteText siteIni_server _
  have hclient : @Loaded asciiStd .client siteText { siteClient with path := some "letmein.conf" } :=
    loaded_siteText siteIni_client _
  have hkey : KeyLine siteText ⟨1⟩ sampleKey := (@Loaded.key_iff asciiStd _ _ _ hserver _ _).1 rfl
  have hres : @ResourceLine asciiStd siteText ⟨2⟩ (.port 22 true false [⟨1⟩]) :=
    (@Loaded.resource_iff asciiStd _ _ _ hserver _ _).1 rfl
  have hserves : (Resource.port 22 true false [⟨1⟩]).Serves 22 (some ⟨1⟩) := by
    refine ⟨rfl, fun user huser => ?_⟩
    cases huser
    rfl
  obtain ⟨fw, k', hstart⟩ := fileSite_starts
  have h : fileSite.Reaches _ := ⟨_, hstart, .refl⟩
  let command : CommandServer := ⟨"192.0.2.1".toList, .tryBoth, none, false, false⟩
  obtain ⟨seq, portType, hseq, hportType, -, hin⟩ := (@files_decide SymAuth _ _ _ _ _ asciiStd _ SymAuth.exists_fresh
    _ _ _ hserver hclient rfl h).2 command (anyOrder _) 22 (some ⟨1⟩) _ _ _ _ hkey hkey hres hres hserves hserves
    (by decide)
  obtain ⟨seq', hseq', hrun, -⟩ := @Loaded.seq asciiStd _ _ _ hclient (some ⟨1⟩) _ rfl _ hkey _ _ hres _ hserves
    command (anyOrder _)
  rw [hseq] at hseq'
  cases hseq'
  cases hportType
  rw [hrun] at hin
  obtain ⟨s', hsteps, hret, -, haccepts⟩ := hin 0 0 (fileSite_idle _ rfl ⟨rfl, rfl⟩ 0 0)
  exact ⟨s', h.steps hsteps, hret, haccepts (.tcp 22) List.mem_cons_self⟩

end Letmein
