import Letmein.Lib.HashMap
import Mathlib.Data.Vector.Basic

/-!
# Configuration (`letmein-conf/src/lib.rs`)

The settings of `letmeind.conf` that the daemons read, with the defaults of a missing entry. Users
and resources are named by 32 bit numbers (`letmein-proto/src/lib.rs`).
-/

namespace Letmein

structure UserId where
  id : UInt32
deriving DecidableEq, Repr

structure ResourceId where
  id : UInt32
deriving DecidableEq, Repr

/-- A shared key, `KEY_SIZE` bytes. -/
abbrev Key := List.Vector UInt8 32

structure ControlPort where
  port : UInt16 := 5800
  tcp : Bool := true
  udp : Bool := false
deriving DecidableEq, Repr

inductive Resource where
  | port (port : UInt16) (tcp udp : Bool) (users : List UserId)
deriving DecidableEq, Repr

/-- A resource without users is unrestricted. -/
def Resource.containsUser (id : UserId) : Resource → Bool
  | .port _ _ _ users => users.isEmpty || users.contains id

def Resource.portNumber : Resource → UInt16
  | .port p _ _ _ => p

/-- Which errors the server reports to the peer. -/
inductive ErrorPolicy where
  | always
  | basicAuth
  | fullAuth
deriving DecidableEq, Repr

/-- Which of the daemons' system calls are filtered. -/
inductive Seccomp where
  | off
  | log
  | kill
deriving DecidableEq, Repr

inductive ConfigVariant where
  | server
  | client
deriving DecidableEq, Repr

/-- Durations are in milliseconds. -/
structure Config where
  variant : ConfigVariant := .server
  path : Option String := none
  debug : Bool := false
  port : ControlPort := {}
  controlTimeout : Nat := 5000
  controlErrorPolicy : ErrorPolicy := .always
  seccomp : Seccomp := .off
  keys : HashMap UserId Key := ∅
  resources : HashMap ResourceId Resource := ∅
  defaultUser : UserId := ⟨0⟩
  nftExe : String := ""
  nftFamily : String := ""
  nftTable : String := ""
  nftChainInput : String := ""
  nftTimeout : Nat := 600000

namespace Config

def new (variant : ConfigVariant) : Config := { variant }

/-- The same settings but for `debug`. -/
def withDebug (conf : Config) (debug : Bool) : Config := { conf with debug := debug }

def key (conf : Config) (id : UserId) : Option Key := conf.keys.lookup id

def resource (conf : Config) (id : ResourceId) : Option Resource := conf.resources.lookup id

/-- The first resource in the iteration order that has this port and, if a user is given, allows it. -/
def resourceIdByPort (conf : Config) (it : IterOrder ResourceId) (port : UInt16)
    (userId : Option UserId) : Option ResourceId :=
  (it.order conf.resources.keys).find? fun k =>
    match conf.resources.lookup k, userId with
    | some (.port p tcp udp users), some userId =>
      p == port && (Resource.port p tcp udp users).containsUser userId
    | some (.port p _ _ _), none => p == port
    | none, _ => false

variable {conf : Config} {it : IterOrder ResourceId} {port : UInt16} {id : ResourceId}

/-- A resource that is found by its port has that port and allows the user. -/
theorem resourceIdByPort_some {userId : Option UserId} (h : conf.resourceIdByPort it port userId = some id) :
    ∃ res, conf.resource id = some res ∧ res.portNumber = port ∧
      ∀ user, userId = some user → res.containsUser user = true := by
  have hid := List.find?_some h
  rcases hres : conf.resources.lookup id with _ | ⟨p, tcp, udp, users⟩
  · simp [hres] at hid
  · refine ⟨_, hres, ?_⟩
    rcases userId with _ | user
    · simpa [hres, Resource.portNumber] using hid
    · have hid : p = port ∧ (Resource.port p tcp udp users).containsUser user = true := by
        simpa [hres] using hid
      exact ⟨hid.1, fun user' huser => by cases huser; exact hid.2⟩

/-- Some resource is found exactly if there is one that fits. -/
theorem resourceIdByPort_isSome_iff : (conf.resourceIdByPort it port none).isSome ↔
    ∃ id res, conf.resource id = some res ∧ res.portNumber = port := by
  constructor
  · intro h
    obtain ⟨id, hid⟩ := Option.isSome_iff_exists.1 h
    obtain ⟨res, hres, hport, -⟩ := resourceIdByPort_some hid
    exact ⟨id, res, hres, hport⟩
  · rintro ⟨id, ⟨p, tcp, udp, users⟩, hres, rfl⟩
    rw [resourceIdByPort, List.find?_isSome]
    have hmem : id ∈ it.order conf.resources.keys :=
      (it.mem_order _ _).2 (Finmap.mem_keys.2 (Finmap.mem_of_lookup_eq_some hres))
    rw [resource] at hres
    exact ⟨id, hmem, by simp [hres, Resource.portNumber]⟩

end Config

end Letmein
