import Letmein.Ini
import Letmein.Lib.Gather
import Letmein.Proto

/-!
# Loading a configuration (`letmein-conf/src/lib.rs`, `parse.rs`, `parse_items.rs`)

Every setting is read from the sections of an `Ini` by a function of its own. `loadIni` reads all of them
before it changes the configuration. Options of a section come in the hash map's order (`it`), and so do the
resources that a new one is compared with (`itR`).
-/

namespace Letmein
open Text

/-- What the parsers take from the standard library: `str::to_lowercase`, and the milliseconds of a text that
is a finite number of seconds between zero and `u32::MAX` to `f64`'s parser. -/
class StdText where
  toLowercase : Text → Text
  secsF64 : Text → Option Nat

export StdText (toLowercase secsF64)

/-! ## Values -/

section
variable [StdText]

def parseBool (s : Text) : Except String Bool :=
  let s := trim (toLowercase s)
  if s ∈ ["true".toList, "1".toList, "yes".toList, "on".toList] then .ok true
  else if s ∈ ["false".toList, "0".toList, "no".toList, "off".toList] then .ok false
  else .error "Invalid boolean string"

/-- A number in decimal, or in hexadecimal after `0x`. -/
def parseUInt (max : Nat) (s : Text) : Except String Nat :=
  match trim s with
  | '0' :: 'x' :: digits => fromStrRadix 16 max digits
  | s => fromStrRadix 10 max s

def parseU16 (s : Text) : Except String UInt16 := UInt16.ofNat <$> parseUInt 0xFFFF s

def parseU32 (s : Text) : Except String UInt32 := UInt32.ofNat <$> parseUInt 0xFFFFFFFF s

def parseHexdigit (c : Char) : Except String UInt8 := UInt8.ofNat <$> fromStrRadix 16 0xFF [c]

def parseHexdigits : (size : Nat) → (s : Text) → s.length = size * 2 → Except String (List.Vector UInt8 size)
  | 0, _, _ => .ok .nil
  | size + 1, hi :: lo :: s, h => do
    let hi ← parseHexdigit hi
    let lo ← parseHexdigit lo
    let ret ← parseHexdigits size s (by simp only [List.length_cons] at h; omega)
    return (hi <<< 4 ||| lo) ::ᵥ ret
  | size + 1, [], h => by simp at h
  | size + 1, [_], h => by simp at h; omega

def parseHex (size : Nat) (s : Text) : Except String (List.Vector UInt8 size) :=
  let s := trim s
  if !isAscii s then .error "Hex string contains invalid characters."
  else if h : s.length = size * 2 then parseHexdigits size s h
  else .error s!"Hex string is too short: Expected {size * 2}, got {s.length} chars"

def parseDuration (s : Text) : Except String Nat :=
  match parseU32 s with
  | .ok secs => .ok (secs.toNat * 1000)
  | .error _ =>
    match secsF64 (trim s) with
    | some ms => .ok ms
    | none => .error "Invalid Duration"

def isNumber (s : Text) : Bool :=
  match trim s with
  | '0' :: 'x' :: digits => digits.all fun c => (toDigit 16 c).isSome
  | s => s.all fun c => (toDigit 10 c).isSome

/-- `from_str` of both kinds of identification numbers. -/
def parseId (s : Text) : Except String UInt32 := UInt32.ofNat <$> fromStrRadix 16 0xFFFFFFFF (trim s)

def UserId.fromStr (s : Text) : Except String UserId := UserId.mk <$> parseId s

def ResourceId.fromStr (s : Text) : Except String ResourceId := ResourceId.mk <$> parseId s

def ErrorPolicy.fromStr (s : Text) : Except String ErrorPolicy :=
  let s := trim (toLowercase s)
  if s = "always".toList then .ok .always
  else if s = "basic-auth".toList then .ok .basicAuth
  else if s = "full-auth".toList then .ok .fullAuth
  else .error s!"Config option 'control-error-policy = {String.ofList s}' is not valid. Valid values are: always, basic-auth, full-auth."

def Seccomp.fromStr (s : Text) : Except String Seccomp :=
  let s := trim (toLowercase s)
  if s = "off".toList then .ok .off
  else if s = "log".toList then .ok .log
  else if s = "kill".toList then .ok .kill
  else .error s!"Config option 'seccomp = {String.ofList s}' is not valid. Valid values are: off, log, kill."

/-! ## Items between slashes -/

inductive MapItem where
  | keyValue (key value : Text)
  | keyValues (key : Text) (values : List Text)
  | values (values : List Text)
deriving DecidableEq

/-- An item with a key before its first colon, or a list of values. -/
def mapItem (item : Text) : Except String MapItem :=
  match splitOnce ':' item with
  | some (key, value) =>
    if key.isEmpty then .error "Invalid item key."
    else if (trim key).isEmpty then .error "Invalid item key."
    else if ',' ∈ value then .ok (.keyValues (trim key) ((value.splitOn ',').map trim))
    else .ok (.keyValue (trim key) (trim value))
  | none => .ok (.values ((item.splitOn ',').map trim))

/-- `Map::from_str` -/
def mapItems (s : Text) : Except String (List MapItem) := (s.splitOn '/').mapM mapItem

/-! ## Settings -/

variable (ini : Ini)

def getDebug : Except String Bool :=
  match ini.get "GENERAL".toList "debug".toList with
  | some debug => parseBool debug
  | none => .ok false

def controlPortFlag (controlPort : ControlPort) (v : Text) : Except String ControlPort :=
  let v := toLowercase v
  if v = "tcp".toList then .ok { controlPort with tcp := true }
  else if v = "udp".toList then .ok { controlPort with udp := true }
  else .error s!"[GENERAL] port: Unknown option: {String.ofList v}"

def controlPortItem (controlPort : ControlPort) : MapItem → Except String ControlPort
  | .keyValue k _ | .keyValues k _ => .error s!"[GENERAL] port: Unknown option: {String.ofList k}"
  | .values vs =>
    if vs.length = 1 ∧ isNumber (vs.headD []) then do
      let port ← parseU16 (vs.headD [])
      return { controlPort with port }
    else vs.foldlM controlPortFlag controlPort

def getPort : Except String ControlPort :=
  match ini.get "GENERAL".toList "port".toList with
  | some port => do
    let items ← (mapItems port).mapError fun _ => "[GENERAL] port"
    let controlPort ← items.foldlM controlPortItem { port := 5800, tcp := false, udp := false }
    if !controlPort.tcp && !controlPort.udp then return { controlPort with tcp := true }
    else return controlPort
  | none => .ok {}

def getControlTimeout : Except String Nat :=
  match ini.get "GENERAL".toList "control-timeout".toList with
  | some timeout => parseDuration timeout
  | none => .ok 5000

def getControlErrorPolicy : Except String ErrorPolicy :=
  match ini.get "GENERAL".toList "control-error-policy".toList with
  | some policy => ErrorPolicy.fromStr policy
  | none => .ok .always

def getSeccomp : Except String Seccomp :=
  match ini.get "GENERAL".toList "seccomp".toList with
  | some seccomp => Seccomp.fromStr seccomp
  | none => .ok .off

def getDefaultUser : Except String UserId :=
  match ini.get "CLIENT".toList "default-user".toList with
  | some defaultUser => UserId.fromStr defaultUser
  | none => .ok ⟨0⟩

def getNftExe : Except String String :=
  match ini.get "NFTABLES".toList "exe".toList with
  | some nftExe => .ok (String.ofList (trim nftExe))
  | none => .ok "nft"

def getNftFamily : Except String String :=
  match ini.get "NFTABLES".toList "family".toList with
  | some nftFamily =>
    let nftFamily := trim nftFamily
    if nftFamily ∈ ["inet".toList, "ip".toList, "ip6".toList] then .ok (String.ofList nftFamily)
    else .error s!"[NFTABLES] family={String.ofList nftFamily} is invalid"
  | none => .ok ""

def getNftTable : Except String String :=
  match ini.get "NFTABLES".toList "table".toList with
  | some nftTable => .ok (String.ofList (trim nftTable))
  | none => .ok ""

def getNftChainInput : Except String String :=
  match ini.get "NFTABLES".toList "chain-input".toList with
  | some nftChainInput => .ok (String.ofList (trim nftChainInput))
  | none => .ok ""

def getNftTimeout : Except String Nat :=
  match ini.get "NFTABLES".toList "timeout".toList with
  | some nftTimeout => parseDuration nftTimeout
  | none => .ok 600000

/-! ## Keys -/

/-- The user and the key of an option of `[KEYS]`. -/
def keyOf (name value : Text) : Except String (UserId × Key) := do
  let id ← (UserId.fromStr name).mapError fun _ => "[KEYS]"
  let key ← (parseHex 32 value).mapError fun _ => "[KEYS]"
  if key = List.Vector.replicate 32 0 then .error s!"Invalid key {idText id.id}: Key is all zeros (00)"
  else if key = List.Vector.replicate 32 0xFF then .error s!"Invalid key {idText id.id}: Key is all ones (FF)"
  else return (id, key)

def checkKey (keys : HashMap UserId Key) (id : UserId) (_ : Key) : Except String Unit :=
  if id ∈ keys then .error s!"[KEYS] Multiple definitions of key '{idText id.id}'" else .ok ()

def getKeys (it : IterOrder Text) : Except String (HashMap UserId Key) :=
  match ini.optionsIter it "KEYS".toList with
  | some options => options.foldlM (Finmap.gather keyOf checkKey) ∅
  | none => .ok ∅

/-! ## Resources -/

/-- What the items of a resource have said so far. -/
structure ResourceItems where
  port : Option UInt16 := none
  users : List Text := []
  tcp : Bool := false
  udp : Bool := false

def resourceFlag (r : ResourceItems) (v : Text) : Except String ResourceItems :=
  let v := toLowercase v
  if v = "tcp".toList then .ok { r with tcp := true }
  else if v = "udp".toList then .ok { r with udp := true }
  else .error s!"[RESOURCE] unknown option: {String.ofList v}"

def resourceItem (r : ResourceItems) : MapItem → Except String ResourceItems
  | .keyValue k v =>
    if k = "port".toList then
      if r.port.isSome then .error "[RESOURCE] multiple 'port' values"
      else do
        let port ← (parseU16 v).mapError fun _ => "[RESOURCES] port"
        return { r with port := some port }
    else if k = "users".toList then
      if !r.users.isEmpty then .error "[RESOURCE] multiple 'users' values"
      else .ok { r with users := r.users ++ [v] }
    else .error s!"[RESOURCE] unknown option: {String.ofList k}"
  | .keyValues k vs =>
    if k = "port".toList then .error "[RESOURCE] invalid 'port' option"
    else if k = "users".toList then
      if !r.users.isEmpty then .error "[RESOURCE] multiple 'users' values"
      else .ok { r with users := vs }
    else .error s!"[RESOURCE] unknown option: {String.ofList k}"
  | .values vs => vs.foldlM resourceFlag r

/-- The identification and the resource of an option of `[RESOURCES]`. -/
def resourceOf (name value : Text) : Except String (ResourceId × Resource) := do
  let id ← (ResourceId.fromStr name).mapError fun _ => "[RESOURCES]"
  let items ← (mapItems value).mapError fun _ => "[RESOURCES]"
  let r ← items.foldlM resourceItem {}
  -- TCP is the default if no protocol is given.
  let tcp := if !r.tcp && !r.udp then true else r.tcp
  let some port := r.port | .error s!"[RESOURCE] '{idText id.id}': No 'port' value present"
  let users ← r.users.mapM fun user =>
    (UserId.fromStr user).mapError fun _ => s!"[RESOURCE] '{idText id.id}': 'user' id is invalid"
  return (id, .port port tcp r.udp users)

/-- A new resource against one that is there. -/
def checkResourcePair (id : ResourceId) (port : UInt16) (other : ResourceId × Resource) : Except String Unit :=
  if other.1 = id then .error s!"[RESOURCE] Multiple definitions of resource ID '{idText id.id}'"
  else if other.2.portNumber = port then .error s!"[RESOURCE] Multiple definitions of resource port '{port.toNat}'"
  else .ok ()

def checkResource (itR : IterOrder ResourceId) (resources : HashMap ResourceId Resource) (id : ResourceId)
    (res : Resource) : Except String Unit :=
  (resources.iter itR).forM (checkResourcePair id res.portNumber)

def getResources (it : IterOrder Text) (itR : IterOrder ResourceId) :
    Except String (HashMap ResourceId Resource) :=
  match ini.optionsIter it "RESOURCES".toList with
  | some options => options.foldlM (Finmap.gather resourceOf (checkResource itR)) ∅
  | none => .ok ∅

/-! ## The whole configuration -/

/-- The settings of `ini` for this variant. -/
def readIni (conf : Config) (it : IterOrder Text) (itR : IterOrder ResourceId) : Except String Config := do
  let debug ← getDebug ini
  let port ← getPort ini
  let controlTimeout ← getControlTimeout ini
  let controlErrorPolicy ← getControlErrorPolicy ini
  let seccomp ← getSeccomp ini
  let keys ← getKeys ini it
  let resources ← getResources ini it itR
  let read := { conf with debug, port, controlTimeout, controlErrorPolicy, seccomp, keys, resources }
  match conf.variant with
  | .client =>
    let defaultUser ← getDefaultUser ini
    return { read with
      defaultUser, nftExe := "", nftFamily := "", nftTable := "", nftChainInput := "", nftTimeout := 600000 }
  | .server =>
    let nftExe ← getNftExe ini
    let nftFamily ← getNftFamily ini
    let nftTable ← getNftTable ini
    let nftChainInput ← getNftChainInput ini
    let nftTimeout ← getNftTimeout ini
    return { read with defaultUser := ⟨0⟩, nftExe, nftFamily, nftTable, nftChainInput, nftTimeout }

/-- The configuration is left as it was when a setting is not valid. -/
def Config.loadIni (conf : Config) (it : IterOrder Text) (itR : IterOrder ResourceId) :
    Except String Unit × Config :=
  match readIni ini conf it itR with
  | .ok conf' => (.ok (), conf')
  | .error e => (.error e, conf)

end

end Letmein
