import IotGateway.Common.Parsing
import IotGateway.Json.Impl.Create
import IotGateway.Json.Impl.Parser
import IotGateway.NfcDaemon.Impl.Ndef
import IotGateway.ZcbDaemon.Impl.Nodes

/-!
This module contains how the NFC daemon answers a message of a node: it asks the secure joiner for
the network data if the node is to join, and writes a command back to the tag.
-/

namespace NfcDaemon

open Json NewDb CString

def COMMISSION_SUPPORTED_VERSION : UInt8 := 11

/--
`COMMISSION_URI`
-/
def COMMISSION_URI : List UInt8 :=
  [0x63, 0x6F, 0x6D, 0x2E, 0x6E, 0x78, 0x70, 0x3A, 0x77, 0x69, 0x73, 0x65, 0x30, 0x31]

def FROM_GATEWAY : UInt8 := 0x02
def FROM_MANAGER : UInt8 := 0x03
def FROM_ROUTER : UInt8 := 0x04
def FROM_UISENSOR : UInt8 := 0x20
def FROM_SENSOR : UInt8 := 0x22
def FROM_ACTUATOR : UInt8 := 0x23
def FROM_UI_ONLY : UInt8 := 0x24
def FROM_PLUGMETER : UInt8 := 0x30
def FROM_LAMP_ONOFF : UInt8 := 0x40
def FROM_LAMP_DIMM : UInt8 := 0x41
def FROM_LAMP_TW : UInt8 := 0x42
def FROM_LAMP_RGB : UInt8 := 0x43

def COMMAND_FACTORYNEW : UInt8 := 1
def COMMAND_JOIN : UInt8 := 2
def COMMAND_LEAVE : UInt8 := 4

def NFC_MODE_COMMISSION : Int := 0
def NFC_MODE_DECOMMISSION : Int := 1
def NFC_MODE_FACTORYRESET : Int := 2

def LEN_MAC : Nat := 8
def LEN_LINKKEY : Nat := 16
def LEN_EXTPAN : Nat := 8
def LEN_TCADDR : Nat := 8
def LEN_MIC : Nat := 4
def LEN_NWKEY : Nat := 16

/--
`secjoin_t`
-/
structure Secjoin where
  channel : UInt8
  keyseq : UInt8
  pan : UInt16
  extpan : Vector UInt8 LEN_EXTPAN
  nwkey : Vector UInt8 LEN_NWKEY
  mic : Vector UInt8 LEN_MIC
  tcaddr : Vector UInt8 LEN_TCADDR
  deriving DecidableEq

def nibble2num (c : Char) : Nat :=
  if '0' ≤ c ∧ c ≤ '9' then
    c.toNat - '0'.toNat
  else if 'A' ≤ c ∧ c ≤ 'F' then
    c.toNat - 'A'.toNat + 10
  else if 'a' ≤ c ∧ c ≤ 'f' then
    c.toNat - 'a'.toNat + 10
  else
    0

/--
`srclen` characters are converted, also if a string ends before that.
-/
def nibblestr2hex {dstlen : Nat} (dst : Vector UInt8 dstlen) (src : Option (Nat → Char))
    (srclen : Nat) : Vector UInt8 dstlen :=
  match src with
  | some src =>
    let hexbytes := srclen / 2
    if dstlen < hexbytes ∨ srclen % 2 = 1 then
      dst
    else
      Vector.ofFn fun i =>
        let leading := dstlen - hexbytes
        if i < leading then
          0
        else
          UInt8.ofNat (16 * nibble2num (src (2 * (i - leading)))
            + nibble2num (src (2 * (i - leading) + 1)))
  | none => dst

def isxdigit (c : Char) : Bool :=
  ('0' ≤ c && c ≤ '9') || ('A' ≤ c && c ≤ 'F') || ('a' ≤ c && c ≤ 'f')

/--
`strtol` of the C library to base 16, cast to `int`.
-/
def strtol16 (string : List Char) : Int :=
  let string := string.dropWhile isspace
  let magnitude (digits : List Char) : Int :=
    let digits :=
      match digits with
      | '0' :: x :: d :: rest =>
        if (x = 'x' ∨ x = 'X') ∧ isxdigit d = true then d :: rest else digits
      | _ => digits
    (digits.takeWhile isxdigit).foldl (fun n d => 16 * n + nibble2num d) (0 : Nat)
  let long : Int :=
    match string with
    | '-' :: digits => max (-2 ^ 63) (-magnitude digits)
    | '+' :: digits => min (2 ^ 63 - 1) (magnitude digits)
    | digits => min (2 ^ 63 - 1) (magnitude digits)
  Int.bmod long (2 ^ 32)

def AtoiHex (string : List Char) : Int := if string = [] then -1 else strtol16 string

def hex2nibblestr (src : List UInt8) : String :=
  String.ofList
    (src.flatMap fun b =>
      [ZcbDaemon.num2nibble (b.toNat / 16), ZcbDaemon.num2nibble (b.toNat % 16)])

def intAttrs : List String := ["keyseq", "chan"]

def stringMaxlens : List (String × Nat) :=
  [("nwkey", 32), ("mic", 8), ("tcaddr", 16), ("pan", 4), ("extpan", 16)]

def MAXSTRINGVALUE : Nat := 40

/--
The attributes of the parser as they lie in memory. What is behind the end of a string stays.
-/
structure AttrTable where
  ints : String → Int32 := fun _ => 0
  strings : String → Nat → Char := fun _ _ => NUL

namespace AttrTable

def parsingReset (t : AttrTable) : AttrTable where
  ints := fun _ => Attrs.INT_MIN
  strings := fun name => Function.update (t.strings name) 0 NUL

def parsingIntAttr (name : String) (value : Int32) (t : AttrTable) : AttrTable :=
  if name ∈ intAttrs then { t with ints := Function.update t.ints name value } else t

/--
A value that is too long is not stored.
-/
def parsingStringAttr (name : String) (value : List Char) (t : AttrTable) : AttrTable :=
  match stringMaxlens.lookup name with
  | some maxlen =>
    if value.length ≤ maxlen then
      let strcpy (dst : Nat → Char) : Nat → Char := fun i => (value ++ [NUL])[i]?.getD (dst i)
      { t with strings := Function.update t.strings name (strcpy (t.strings name)) }
    else
      t
  | none => t

def parsingGetStringAttr (t : AttrTable) (name : String) : List Char :=
  cstr NUL (t.strings name) 0 (MAXSTRINGVALUE + 2)

def parsingGetStringAttr0 (t : AttrTable) (name : String) : Option (Nat → Char) :=
  if t.strings name 0 = NUL then none else some (t.strings name)

end AttrTable

/--
The variables that the callbacks write.
-/
structure Joining where
  attrs : AttrTable
  secjoin : Secjoin
  ready : Bool

def zeros (n : Nat) : Vector UInt8 n := Vector.replicate n 0

def secjoinOf (attrs : AttrTable) : Secjoin where
  channel := UInt8.ofInt (attrs.ints "chan").toInt
  keyseq := UInt8.ofInt (attrs.ints "keyseq").toInt
  pan := UInt16.ofInt (AtoiHex (attrs.parsingGetStringAttr "pan"))
  extpan := nibblestr2hex (zeros LEN_EXTPAN) (attrs.parsingGetStringAttr0 "extpan") (LEN_EXTPAN * 2)
  nwkey := nibblestr2hex (zeros LEN_NWKEY) (attrs.parsingGetStringAttr0 "nwkey") (LEN_NWKEY * 2)
  mic := nibblestr2hex (zeros LEN_MIC) (attrs.parsingGetStringAttr0 "mic") (LEN_MIC * 2)
  tcaddr := nibblestr2hex (zeros LEN_TCADDR) (attrs.parsingGetStringAttr0 "tcaddr") (LEN_TCADDR * 2)

/--
The callbacks of `commissionInit`. Those for arrays and errors have no effect.
-/
def Joining.callback (j : Joining) : Event → Joining
  | .objectStart _ => { j with attrs := j.attrs.parsingReset }
  | .objectComplete name =>
    if String.ofList name = "joinsecure" then
      { j with secjoin := secjoinOf j.attrs, ready := true }
    else
      j
  | .string name value =>
    { j with attrs := j.attrs.parsingStringAttr (String.ofList name) value }
  | .integer name value =>
    { j with attrs := j.attrs.parsingIntAttr (String.ofList name) (Int32.ofInt value) }
  | .arrayStart _ => j
  | .arrayComplete _ => j
  | .error _ _ _ => j

/--
The parser with a listener whose callbacks are called for what a character completes.
-/
def eat {σ : Type} (callback : σ → Event → σ) (s : ParserData × σ) (c : Char) : ParserData × σ :=
  let p := jsonEat s.1 c
  (p, (p.events.drop s.1.events.length).foldl callback s.2)

/--
The results of `socketReadWithTimeout` one after the other. An empty one, and the end of the list,
is a time-out, an error or the end of the connection.
-/
def readLoop {σ : Type} (callback : σ → Event → σ) (ready : σ → Bool)
    : List (List Char) → ParserData × σ → ParserData × σ
  | [], s => s
  | inputBuffer :: rest, s =>
    if ready s.2 || inputBuffer.isEmpty then
      s
    else
      readLoop callback ready rest (inputBuffer.foldl (eat callback) s)

/--
How the socket of the secure joiner behaves.
-/
structure Joiner where
  opened : Bool
  written : Bool
  answer : List (List Char)

/--
The variables of the module and of the parser.
-/
structure Commission where
  handled_seqnr : UInt8 := 255
  out_seqnr : UInt8 := 0
  prevNfcMode : Int := -1
  parser : ParserData := jsonReset .init
  attrs : AttrTable := {}

/--
The result is `success`. `secjoin` is not initialized before the call.
-/
def commission (joiner : Joiner) (secjoin : Secjoin) (s : Commission)
    : Commission × Secjoin × Bool :=
  if joiner.opened then
    if joiner.written then
      let j : Joining := { attrs := s.attrs, secjoin, ready := false }
      let (parser, j) :=
        readLoop Joining.callback Joining.ready joiner.answer (jsonReset s.parser, j)
      ({ s with parser, attrs := j.attrs }, j.secjoin, true)
    else
      (s, secjoin, false)
  else
    (s, secjoin, true)

-- Offsets in `commission_t`
def VERSION : Nat := 0
def OUT_FROM : Nat := 1
def OUT_SEQNR : Nat := 2
def OUT_NODEMACADDRESS : Nat := 72
def OUT_NODELINKKEY : Nat := 80
def IN : Nat := 96
def IN_COMMAND : Nat := 98

/--
`commission_in_t`
-/
def commissionIn (seqNr command : UInt8) (network : List UInt8) : List UInt8 :=
  [FROM_GATEWAY, seqNr, command] ++ List.replicate 66 0 ++ network

/--
The fields of `commission_in_t` behind `GatewayExtra`.
-/
def networkOf (secjoin : Secjoin) : List UInt8 :=
  [secjoin.channel, secjoin.keyseq, (secjoin.pan >>> 8).toUInt8, secjoin.pan.toUInt8]
    ++ List.replicate 12 0 ++ secjoin.mic.toList ++ secjoin.nwkey.toList ++ secjoin.extpan.toList
    ++ secjoin.tcaddr.toList

def noNetwork : List UInt8 := List.replicate 52 0

def setIn (payload : Mem) (commission_in : List UInt8) : Mem :=
  memcpy payload IN commission_in.length fun k => commission_in[k]?.getD 0

def getDeviceDev (from' : UInt8) : Int :=
  if from' = FROM_ROUTER then
    DEVICE_DEV_SWITCH
  else if from' = FROM_MANAGER then
    DEVICE_DEV_MANAGER
  else if from' = FROM_UISENSOR then
    DEVICE_DEV_UISENSOR
  else if from' = FROM_SENSOR then
    DEVICE_DEV_SENSOR
  else if from' = FROM_ACTUATOR then
    DEVICE_DEV_PUMP
  else if from' = FROM_UI_ONLY then
    DEVICE_DEV_UI
  else if from' = FROM_PLUGMETER then
    DEVICE_DEV_PLUG
  else if from' ∈ [FROM_LAMP_ONOFF, FROM_LAMP_DIMM, FROM_LAMP_TW, FROM_LAMP_RGB] then
    DEVICE_DEV_LAMP
  else
    DEVICE_DEV_UNKNOWN

def getDeviceType (from' : UInt8) : Option String :=
  if from' = FROM_MANAGER then
    some "h"
  else if from' = FROM_LAMP_ONOFF ∨ from' = FROM_ROUTER then
    some "onoff"
  else if from' = FROM_LAMP_DIMM then
    some "dim"
  else if from' = FROM_LAMP_TW then
    some "tw"
  else if from' = FROM_LAMP_RGB then
    some "col"
  else
    none

/--
What a call finds: the mode in the database, the secure joiner, the tag with how it takes the write
commands, and memory that is not initialized.
-/
structure Surroundings where
  nfcmode : Int
  joiner : Joiner
  secjoin : Secjoin
  tag : Tag
  ndefCache : Mem
  answer : Nat → WriteAnswer
  triggered : Bool
  garbage : Mem

/--
What a call does. `written` is the message that `ndef_write` gets, `linkinfo` is for the secure
joiner and `dbEdit` for the control interface.
-/
structure Handled where
  ret : Int
  tag : Tag
  alreadyHandled : Bool := false
  written : Option Mem := none
  stored : Bool := false
  linkinfo : Option Object := none
  dbEdit : Option Object := none

def Surroundings.ndef_write (env : Surroundings) (payload : Mem) (plen : Nat) : Tag × Int :=
  NfcDaemon.ndef_write env.tag env.answer env.triggered (bytes payload 0 plen) COMMISSION_URI
    env.garbage env.ndefCache

/--
A command is written back, and if this succeeds then the database is edited.
-/
def writeBack (env : Surroundings) (payload : Mem) (plen : Nat) (edit : Object) : Handled :=
  let (tag, res) := env.ndef_write payload plen
  { ret := if res ≠ 0 then 1 else 0
    tag
    written := some payload
    stored := res ≠ 0
    dbEdit := if res ≠ 0 then some edit else none }

/--
The modes in which a node is to leave its network.
-/
def handleLeave (command : UInt8) (env : Surroundings) (payload : Mem) (plen : Nat) (s : Commission)
    : Commission × Handled :=
  if payload IN_COMMAND ≠ command then
    let mac := hex2nibblestr (bytes payload OUT_NODEMACADDRESS LEN_MAC)
    ({ s with out_seqnr := s.out_seqnr + 1 },
      writeBack env (setIn payload (commissionIn s.out_seqnr command noNetwork)) plen
        (jsonDbEditRem mac))
  else
    -- Tag already contains the command
    (s, { ret := 1, tag := env.tag })

def handleJoin (env : Surroundings) (payload : Mem) (plen : Nat) (s : Commission)
    : Commission × Handled :=
  let mac := hex2nibblestr (bytes payload OUT_NODEMACADDRESS LEN_MAC)
  let linkinfo :=
    if env.joiner.opened then
      some (jsonLinkInfo 0 0 0 mac (hex2nibblestr (bytes payload OUT_NODELINKKEY LEN_LINKKEY)))
    else
      none
  match commission env.joiner env.secjoin s with
  | (s, secjoin, true) =>
    let dev := getDeviceDev (payload OUT_FROM)
    let ty := getDeviceType (payload OUT_FROM)
    let message :=
      setIn payload (commissionIn s.out_seqnr COMMAND_JOIN (networkOf secjoin))
    ({ s with out_seqnr := s.out_seqnr + 1 },
      { writeBack env message plen (jsonDbEditAdd mac (Int32.ofInt dev) ty) with
        linkinfo })
  | (s, _, false) => (s, { ret := 0, tag := env.tag, linkinfo })

def handleMode (env : Surroundings) (payload : Mem) (plen : Nat) (s : Commission)
    : Commission × Handled :=
  if env.nfcmode = NFC_MODE_DECOMMISSION then
    handleLeave COMMAND_LEAVE env payload plen s
  else if env.nfcmode = NFC_MODE_FACTORYRESET then
    handleLeave COMMAND_FACTORYNEW env payload plen s
  else if env.nfcmode = NFC_MODE_COMMISSION then
    handleJoin env payload plen s
  else
    (s, { ret := 0, tag := env.tag })

def commissionHandleNfc (env : Surroundings) (payload : Mem) (plen : Nat) (s : Commission)
    : Commission × Handled :=
  if payload VERSION = COMMISSION_SUPPORTED_VERSION then
    if payload OUT_SEQNR = s.handled_seqnr ∧ s.prevNfcMode = env.nfcmode then
      (s, { ret := 1, tag := env.tag, alreadyHandled := true })
    else
      let (s, handled) := handleMode env payload plen { s with prevNfcMode := env.nfcmode }
      ({ s with handled_seqnr := payload OUT_SEQNR }, handled)
  else
    (s, { ret := 0, tag := env.tag })

def commissionReset (s : Commission) : Commission := { s with handled_seqnr := 255 }

end NfcDaemon
