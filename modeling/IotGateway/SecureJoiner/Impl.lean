import IotGateway.NfcDaemon.Impl.Commission

/-!
This module contains the secure joiner. It handles one client at a time: it asks the ZCB for the
network data of the device, and takes what comes back through its own queue.
-/

namespace SecureJoiner

open Json ZcbDaemon NfcDaemon IotError

def MAXMESSAGESIZE : Nat := 300

def QREAD_POLL : Nat := 50

def LEN_AUTH : Nat := 16
def LEN_NWKEY : Nat := 32
def LEN_MIC : Nat := 8
def LEN_TCADDR : Nat := 16
def LEN_PAN : Nat := 4
def LEN_EXTPAN : Nat := 16

structure AuthenticateResponse where
  u64IEEEAddress : UInt64
  au8NetworkKey : Vector UInt8 16
  au8MIC : Vector UInt8 4
  u64TrustCenterAddress : UInt64
  u8KeySequenceNumber : UInt8
  u8Channel : UInt8
  u16PanID : UInt16
  u64PanID : UInt64
  deriving DecidableEq

namespace AuthenticateResponse

variable (r : AuthenticateResponse)

def mac : String := u642nibblestr r.u64IEEEAddress

def nwkey : String := hex2nibblestr r.au8NetworkKey.toList

def mic : String := hex2nibblestr r.au8MIC.toList

def tcaddr : String := u642nibblestr r.u64TrustCenterAddress

/--
`%04X`
-/
def pan : String := String.ofList (nibbles 4 r.u16PanID.toNat [])

def extpan : String := u642nibblestr r.u64PanID

/--
`HandleAuthResponse`
-/
def object : Object :=
  jsonZcbAuthorizeResponse r.mac r.nwkey r.mic r.tcaddr (Int32.ofNat r.u8KeySequenceNumber.toNat)
    (Int32.ofNat r.u8Channel.toNat) r.pan r.extpan

end AuthenticateResponse

/--
The static variables that the callbacks of the parser store in.
-/
structure Zcb where
  zcbOk : Bool
  keyseq : Int
  channel : Int
  authorize : List Char
  nwkey : List Char
  mic : List Char
  tcaddress : List Char
  pan : List Char
  extpan : List Char
  deriving DecidableEq

/--
Static storage before the first call.
-/
def Zcb.init : Zcb where
  zcbOk := false
  keyseq := 0
  channel := 0
  authorize := []
  nwkey := []
  mic := []
  tcaddress := []
  pan := []
  extpan := []

/--
The callbacks `zcb_onObjectStart`, `zcb_onObjectComplete`, `zcb_onString` and `zcb_onInteger`. The
others only print.
-/
def zcbOn (s : Zcb) (event : Event) : Zcb :=
  match event with
  | .objectStart _ => { Zcb.init with zcbOk := s.zcbOk, keyseq := -1, channel := -1 }
  | .objectComplete _ =>
    if s.keyseq ≠ -1 ∧ s.channel ≠ -1 ∧ s.authorize.length ≠ 0 ∧ s.nwkey.length ≠ 0
        ∧ s.mic.length ≠ 0 ∧ s.tcaddress.length ≠ 0 ∧ s.pan.length ≠ 0 ∧ s.extpan.length ≠ 0 then
      { s with zcbOk := true }
    else
      s
  | .string name value =>
    if name = "authorize".toList then
      if value.length ≤ LEN_AUTH then { s with authorize := value } else s
    else if name = "key".toList then
      if value.length ≤ LEN_NWKEY then { s with nwkey := value } else s
    else if name = "mic".toList then
      if value.length ≤ LEN_MIC then { s with mic := value } else s
    else if name = "tcaddr".toList then
      if value.length ≤ LEN_TCADDR then { s with tcaddress := value } else s
    else if name = "pan".toList then
      if value.length ≤ LEN_PAN then { s with pan := value } else s
    else if name = "extpan".toList then
      if value.length ≤ LEN_EXTPAN then { s with extpan := value } else s
    else
      s
  | .integer name value =>
    if name = "keyseq".toList then
      { s with keyseq := value }
    else if name = "chan".toList then
      { s with channel := value }
    else
      s
  | _ => s

/--
What is written to the socket of the client.
-/
inductive Answer where
  | joinSecure (channel keysequence : Int) (pan extendedPan networkKey mic tcAddress : List Char)
  | error (error : Int)
  deriving DecidableEq

def Answer.isJoinSecure : Answer → Bool
  | .joinSecure .. => true
  | .error _ => false

/--
Where `commission` stands: in the call of `queueReadWithMsecTimeout` that flushes the queue, before
`queueWriteOneMessage`, or in the call that reads the response. `msec` is what is left of the
time-out.
-/
inductive Phase where
  | idle
  | flush (mac linkkey : String) (msec : Nat)
  | send (mac linkkey : String)
  | wait (mac : String) (msec : Nat)
  deriving DecidableEq

/--
What a client has asked for, when the ZCB was asked, whether a response for this device has arrived
within two seconds from then, and what the client got. The program remembers none of it.
-/
structure Request where
  mac : String
  sentAt : Option Nat := none
  inTime : Bool := false
  answer : Option Answer := none
  deriving DecidableEq

/--
The response is for this request and not too late.
-/
def Request.Hears (q : Request) (now : Nat) (r : AuthenticateResponse) : Prop :=
  (∃ sentAt ∈ q.sentAt, now ≤ sentAt + 2000) ∧ r.mac = strtoupper q.mac

instance Request.decidableHears (q : Request) (now : Nat) (r : AuthenticateResponse)
    : Decidable (q.Hears now r) :=
  match h : q.sentAt with
  | none => isFalse (by simp [Request.Hears, h])
  | some sentAt =>
    decidable_of_iff (now ≤ sentAt + 2000 ∧ r.mac = strtoupper q.mac) (by simp [Request.Hears, h])

def Request.hear (now : Nat) (r : AuthenticateResponse) (q : Request) : Request :=
  if q.Hears now r then { q with inTime := true } else q

/--
The joiner with its queue and what it has written to the one of the ZCB. The process sleeps until
`wake`. `requests`, the last one first, and `dispatched` only remember.
-/
structure State where
  now : Nat
  wake : Nat
  phase : Phase
  parser : ParserData
  zcb : Zcb
  queue : List AuthenticateResponse
  zcbIn : List Object
  requests : List Request
  dispatched : List AuthenticateResponse

def State.start : State where
  now := 0
  wake := 0
  phase := .idle
  parser := .init
  zcb := .init
  queue := []
  zcbIn := []
  requests := []
  dispatched := []

inductive Step where
  -- The ZCB dispatches a response, whenever and however often it likes
  | arrive (r : AuthenticateResponse)
  -- A client has sent a linkinfo, and the joiner queue is opened for it or not
  | linkinfo (mac linkkey : String) (opened : Bool)
  -- The joiner goes on, if it does not sleep. `written` is what `queueWriteOneMessage` would return.
  | resume (written : Bool)
  -- A millisecond passes
  | tick
  deriving DecidableEq

def State.updateRequest (s : State) (f : Request → Request) : State :=
  { s with requests := s.requests.modifyHead f }

def State.answer (s : State) (a : Answer) : State :=
  { s.updateRequest fun q => { q with answer := some a } with phase := .idle }

/--
A response that is read, and what is made of it.
-/
def State.handle (s : State) (mac : String) (r : AuthenticateResponse) : State :=
  let queueInputBuffer := r.object.message.take (MAXMESSAGESIZE - 1)
  let (parser, zcb) :=
    queueInputBuffer.foldl (eat zcbOn) (jsonReset s.parser, { s.zcb with zcbOk := false })
  let response :=
    if zcb.zcbOk = true ∧ (strtoupper mac).toList = zcb.authorize then
      .joinSecure zcb.channel zcb.keyseq zcb.pan zcb.extpan zcb.nwkey zcb.mic zcb.tcaddress
    else
      .error IOT_ERROR_AUTHORIZE_RESPONSE
  { s with parser, zcb }.answer response

/--
What `commission` does up to the next time it reads the queue, writes or sleeps.
-/
def State.resume (s : State) (written : Bool) : State :=
  match s.phase with
  | .idle => s
  | .flush mac linkkey msec =>
    match s.queue with
    | _ :: queue => { s with queue, phase := .flush mac linkkey 100 }
    | [] =>
      if QREAD_POLL < msec then
        { s with phase := .flush mac linkkey (msec - QREAD_POLL), wake := s.now + QREAD_POLL }
      else
        { s with phase := .send mac linkkey }
  | .send mac linkkey =>
    if written then
      { s.updateRequest fun q => { q with sentAt := some s.now } with
        zcbIn := s.zcbIn ++ [jsonCmdAuthorizeRequest (strtoupper mac) linkkey]
        phase := .wait mac 2000 }
    else
      { s with phase := .idle }
  | .wait mac msec =>
    match s.queue with
    | r :: queue => { s with queue }.handle mac r
    | [] =>
      if QREAD_POLL < msec then
        { s with phase := .wait mac (msec - QREAD_POLL), wake := s.now + QREAD_POLL }
      else
        s.answer (.error IOT_ERROR_AUTHORIZE_TIMEOUT)

def State.next (s : State) : Step → State
  | .arrive r =>
    { s with
      queue := s.queue ++ [r]
      requests := s.requests.map (·.hear s.now r)
      dispatched := r :: s.dispatched }
  | .linkinfo mac linkkey opened =>
    match s.phase with
    | .idle =>
      { s with
        requests := { mac } :: s.requests
        phase := if opened then .flush mac linkkey 100 else .idle }
    | _ => s
  | .resume written => if s.now < s.wake then s else s.resume written
  | .tick => { s with now := s.now + 1 }

end SecureJoiner
