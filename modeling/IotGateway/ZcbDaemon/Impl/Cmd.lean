import IotGateway.NfcDaemon.Impl.Commission

/-!
This module contains the commands that the ZCB daemon sends to its node for a `cmd` message, and the
attributes of the messages as they lie in memory.
-/

namespace ZcbDaemon

open Json NfcDaemon CString

def MAXINTATTRS : Nat := 30
def MAXSTRINGATTRS : Nat := 25

-- The attributes of `cmd.c`, `lmp.c`, `grp.c`, `plg.c`, `ctrl.c`, `topo.c` and `tunnel.c`
def intAttrs : List String :=
  ["reset", "startnwk", "erase", "getversion", "getpermit", "duration"]
    ++ ["lvl", "xcr", "ycr", "grpid", "scnid", "kelvin"]
    ++ ["lvl", "xcr", "ycr", "grpid", "scnid"]
    ++ ["heat", "cool"] ++ ["sid"] ++ ["close"]

def stringAttrs : List (String × Nat) :=
  [("chanmask", 8), ("setpermit", 16), ("authorize", 16), ("linkkey", 32)]
    ++ [("mac", 16), ("cmd", 6), ("grp", 8), ("scn", 8)]
    ++ [("cmd", 6), ("scn", 8)]
    ++ [("mac", 16), ("cmd", 6)]
    ++ [("mac", 16)]
    ++ [("nm", 16), ("ty", 8), ("cmd", 12), ("man", 16), ("ui", 16), ("sen", 16), ("pmp", 16),
      ("lmp", 16), ("plg", 16)]
    ++ [("open", 16)]

def parsingAddIntAttr (names : List String) (name : String) : List String :=
  if name ∈ names then
    names
  else if names.length < MAXINTATTRS then
    names ++ [name]
  else
    names

/--
A name that exists already gets the larger of the two lengths.
-/
def parsingAddStringAttr (maxlens : List (String × Nat)) (attr : String × Nat)
    : List (String × Nat) :=
  if maxlens.any fun known => known.1 = attr.1 then
    maxlens.map fun known => if known.1 = attr.1 then (known.1, max known.2 attr.2) else known
  else if maxlens.length < MAXSTRINGATTRS then
    maxlens ++ [attr]
  else
    maxlens

def intNames : List String := intAttrs.foldl parsingAddIntAttr []

def stringMaxlens : List (String × Nat) := stringAttrs.foldl parsingAddStringAttr []

/--
What a C string holds.
-/
def cvalue (value : List Char) : List Char := value.takeWhile (· ≠ NUL)

def parsingIntAttr (name : String) (value : Int32) (t : AttrTable) : AttrTable :=
  if name ∈ intNames then { t with ints := Function.update t.ints name value } else t

/--
A value that is too long is not stored.
-/
def parsingStringAttr (name : String) (value : List Char) (t : AttrTable) : AttrTable :=
  match stringMaxlens.lookup name with
  | some maxlen =>
    let value := cvalue value
    if value.length ≤ maxlen then
      let strcpy (dst : Nat → Char) : Nat → Char := fun i => (value ++ [NUL])[i]?.getD (dst i)
      { t with strings := Function.update t.strings name (strcpy (t.strings name)) }
    else
      t
  | none => t

def nibblestr2u64 (nibblestr : Nat → Char) : UInt64 :=
  (cstr NUL nibblestr 0 16).foldl (fun u64 c => (u64 <<< 4) + UInt64.ofNat (nibble2num c)) 0

/--
The messages of `eSL_SendMessage` that a `cmd` message leads to.
-/
inductive NodeMessage where
  | erasePersistentData
  | reset
  | startNetwork
  | getVersion
  | getPermitJoin
  | authenticateDeviceRequest (u64IEEEAddress : UInt64) (au8LinkKey : Vector UInt8 16)
  | permitJoiningRequest (u8Interval : UInt8)
  | setChannelmask (u32ChannelMask : UInt32)
  deriving DecidableEq

/--
What the daemon finds when it handles a message: whether the node only answers the erase command
later or not at all, whether it accepts the interval, what `rand` returns, and memory that is not
initialized.
-/
structure NodeAnswers where
  eraseNoMessage : Bool := false
  eraseStatus : Bool := true
  permitOk : Bool := true
  rand : Nat := 0
  linkkey_hex : Vector UInt8 16 := .replicate 16 0

/--
The channel: the first bit of the mask from a random one on, or 15.
-/
def channel (mask : Int32) (rand : Nat) : Nat :=
  let bits := (List.range 32).map fun i => (i + rand) % 32
  (bits.find? fun bit => mask.toBitVec.getLsbD bit).getD 15

def authenticate (linkkey_hex : Vector UInt8 16) (t : AttrTable) : List NodeMessage :=
  let mac := t.strings "authorize"
  if mac 0 ≠ NUL then
    let linkkey := t.strings "linkkey"
    [.authenticateDeviceRequest (nibblestr2u64 mac) (nibblestr2hex linkkey_hex (some linkkey) 32)]
  else
    []

def eSetPermitJoining (permitOk : Bool) (u8Interval : UInt8) : List NodeMessage :=
  .permitJoiningRequest u8Interval :: if permitOk then [.getPermitJoin] else []

/--
An erased node that does not report back ends the command.
-/
def cmdHandle (env : NodeAnswers) (t : AttrTable) : List NodeMessage :=
  let reset := t.ints "reset"
  let erased : List NodeMessage := if reset = 0 then [.erasePersistentData] else []
  if reset = 0 ∧ env.eraseNoMessage ∧ ¬ env.eraseStatus then
    erased
  else
    let duration := t.ints "duration"
    erased ++ (if 0 ≤ reset then [.reset] else [])
      ++ (if 0 ≤ t.ints "startnwk" then [.startNetwork] else [])
      ++ (if 0 ≤ t.ints "getversion" then [.getVersion] else [])
      ++ (if 0 ≤ t.ints "getpermit" then [.getPermitJoin] else [])
      ++ authenticate env.linkkey_hex t
      ++ (if t.strings "setpermit" 0 ≠ NUL ∧ 0 ≤ duration then
          eSetPermitJoining env.permitOk (UInt8.ofInt duration.toInt)
        else
          [])
      ++ (if t.strings "chanmask" 0 ≠ NUL then
          let mask := Int32.ofInt (nibblestr2u64 (t.strings "chanmask")).toNat
          [.setChannelmask (UInt32.ofNat (channel mask env.rand))]
        else
          [])

/--
The callbacks for the messages from the queue. The handlers of the other messages only read the
attributes, what they send is left out.
-/
def zcbCallback (env : NodeAnswers) (t : AttrTable) (event : Event) : AttrTable × List NodeMessage :=
  match event with
  | .objectStart _ => (t.parsingReset, [])
  | .objectComplete name => (t, if name = "cmd".toList then cmdHandle env t else [])
  | .string name value => (parsingStringAttr (String.ofList name) value t, [])
  | .integer name value => (parsingIntAttr (String.ofList name) (Int32.ofInt value) t, [])
  | .arrayStart _ => (t, [])
  | .arrayComplete _ => (t, [])
  | .error _ _ _ => (t, [])

end ZcbDaemon
