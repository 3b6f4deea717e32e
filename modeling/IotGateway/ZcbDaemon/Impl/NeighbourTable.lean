import IotGateway.ZcbDaemon.Impl.Discovery
import IotGateway.ZcbDaemon.Impl.Requests

/-!
This module contains the requests for the neighbour table of the control bridge, which the main loop
makes one after the other, and the bytes that are read from a response.
-/

namespace ZcbDaemon

open NewDb Packed

def E_SL_MSG_MANAGEMENT_LQI_REQUEST : UInt16 := 0x004E
def CZD_NW_STATUS_SUCCESS : UInt8 := 0x00

/--
The number of elements of `asNeighbours`, where they start, and their size.
-/
def NEIGHBOURS : Nat := 2
def neighbourOffset (i : Nat) : Nat := 5 + 21 * i

namespace Response

variable (response : Response)

def bytesAt (offset : Nat) : Nat → UInt8 := fun n => response.pvMessage (offset + n)

def u8Status : UInt8 := response.pvMessage 1
def u8NeighbourTableSize : UInt8 := response.pvMessage 2
def u8TableEntries : UInt8 := response.pvMessage 3

def u16ShortAddress (i : Nat) : UInt16 := ntohs (response.bytesAt (neighbourOffset i))
def u64IEEEAddress (i : Nat) : UInt64 := be64toh (response.bytesAt (neighbourOffset i + 10))

end Response

/--
The clock when an entry is looked at, and what becomes of the requests that are sent for it.
-/
structure Occasion where
  now : Int
  now' : Int
  sendings : List Sending

def Response.neighbour (response : Response) (occasion : Occasion) (i : Nat) : Neighbour where
  u16ShortAddress := response.u16ShortAddress i
  u64IEEEAddress := response.u64IEEEAddress i
  now := occasion.now
  now' := occasion.now'

/--
An entry of the table: what is returned if all entries are like this one, and the database. `none`
means that the loop of the request that is made for a new node goes on for ever.
-/
def handleEntry (neighbour : Neighbour) (sendings : List Sending) (ret : Int) (db : Db)
    : Option (Int × Db) :=
  if neighbour.legal then
    match newDbGetZcbSaddr db neighbour.u16ShortAddress.toNat with
    -- Existing node
    | some _ => some (ret, db)
    -- New node
    | none =>
      let db :=
        (zcbAddNode neighbour.u16ShortAddress neighbour.u64IEEEAddress neighbour.now neighbour.now'
          db).1
      (SimpleDescriptorRequest neighbour.u16ShortAddress sendings).map fun (eStatus, _) =>
        (if eStatus ≠ E_ZCB_OK then -1 else ret, db)
  else
    -- Illegal short / IEEE address
    some (ret, db)

/--
The entries from `i` on.
-/
def handleEntries (response : Response) (occasions : Nat → Occasion)
    : (n i : Nat) → (ret : Int) → Db → Option (Int × Db)
  | 0, _, ret, db => some (ret, db)
  | n + 1, i, ret, db =>
    match handleEntry (response.neighbour (occasions i) i) (occasions i).sendings ret db with
    | some (ret, db) => handleEntries response occasions n (i + 1) ret db
    | none => none

/--
The index that is requested next.
-/
def nextStart (response : Response) (start : Int) : Int :=
  if 0 < response.u8TableEntries then
    let start := start + response.u8TableEntries.toNat
    -- Make sure we're still in table boundaries
    if response.u8NeighbourTableSize.toNat ≤ start then 0 else start
  else
    0

def managementLQICommand (start : Int) : Command where
  u16Type := E_SL_MSG_MANAGEMENT_LQI_REQUEST
  pvMessage := layout [u16 (htons 0), u8 (UInt8.ofInt start)]

/--
What happens while a request is made.
-/
structure Answers where
  line : Command → Sending
  responses : List Response
  occasions : Nat → Occasion

/--
The response that is looked at.
-/
def Answers.response (answers : Answers) (start : Int) : Option Response :=
  let sending := answers.line (managementLQICommand start)
  if eSL_SendMessage sending ≠ E_SL_OK then
    none
  else
    awaitMatching sending.u8SequenceNo answers.responses

def eZCB_NeighbourTableRequest (start : Int) (answers : Answers) (db : Db) : Option (Int × Db) :=
  match answers.response start with
  | none => some (-1, db)
  | some response =>
    if response.u8Status = CZD_NW_STATUS_SUCCESS then
      (handleEntries response answers.occasions response.u8TableEntries.toNat 0 0 db).map
        fun (ret, db) => (if ret = 0 then nextStart response start else ret, db)
    else
      some (-1, db)

/--
What the main loop waits for, and what the control bridge reports in between. The `sendings` are those
of the request that an announcement may cause.
-/
inductive LoopEvent where
  -- A message from the queue, which does not write the node table
  | message
  -- No message within the time
  | request (answers : Answers)
  | descriptor (u16ShortAddress : UInt16) (descriptor : SimpleDescriptor) (now now' : Int)
  | announce (u16ShortAddress : UInt16) (u64IEEEAddress : UInt64) (now now' : Int)
    (sendings : List Sending)
  | leave (u64IEEEAddress : UInt64) (bRejoin : Bool) (now : Int)

/--
The database and the index that is requested next. A loop that is stuck stays in a request for ever.
-/
structure MainLoop where
  db : Db
  start : Int := 0
  stuck : Bool := false

def MainLoop.next (s : MainLoop) : LoopEvent → MainLoop
  | .message => s
  | .request answers =>
    if s.stuck then
      s
    else
      match eZCB_NeighbourTableRequest s.start answers s.db with
      -- Request is successful, ask for more, or restart from beginning
      | some (ret, db) => { s with db, start := if 0 ≤ ret then ret else 0 }
      | none => { s with stuck := true }
  | .descriptor u16ShortAddress descriptor now now' =>
    { s with db := ZCB_HandleSimpleDescriptorResponse u16ShortAddress descriptor now now' s.db }
  | .announce u16ShortAddress u64IEEEAddress now now' _ =>
    { s with db := ZCB_HandleDeviceAnnounce u16ShortAddress u64IEEEAddress now now' s.db }
  | .leave u64IEEEAddress bRejoin now =>
    { s with db := ZCB_HandleDeviceLeave u64IEEEAddress bRejoin now s.db }

/--
Whether the handler of an announcement asks the node what it is, which it does after it has stored it.
-/
def announceRequests (u16ShortAddress : UInt16) (db : Db) : Bool :=
  (newDbGetZcbSaddr db u16ShortAddress.toNat).any fun sZcb => sZcb.type = SIMPLE_DESCR_UNKNOWN

/--
What is read from a message: bytes, or an element of `asNeighbours`.
-/
inductive Access where
  | bytes (offset width : Nat)
  | element (i : Nat)
  deriving DecidableEq

/--
An entry of a neighbour table. The last three bytes are printed only.
-/
def entryAccesses (response : Response) (i : Nat) : List Access :=
  let offset := neighbourOffset i
  let legal := (response.neighbour { now := 0, now' := 0, sendings := [] } i).legal
  [.element i, .bytes offset 2, .bytes (offset + 2) 8, .bytes (offset + 10) 8]
    ++ if legal then [.bytes (offset + 18) 1, .bytes (offset + 19) 1, .bytes (offset + 20) 1] else []

/--
What `eZCB_NeighbourTableRequest` reads from a response.
-/
def neighbourAccesses (u8SequenceNo : UInt8) (response : Response) : List Access :=
  [.bytes 0 1]
    ++ if u8SequenceNo ≠ response.pvMessage 0 then
        []
      else
        [.bytes 1 1]
          ++ if response.u8Status = CZD_NW_STATUS_SUCCESS then
              [.bytes 2 1, .bytes 3 1, .bytes 4 1]
                ++ (List.range response.u8TableEntries.toNat).flatMap (entryAccesses response)
                ++ [.bytes 3 1]
                ++ if 0 < response.u8TableEntries then [.bytes 2 1] else []
            else
              []

namespace Response

variable (response : Response)

-- the fields of `tsZDSimpleDescRsp`
def descriptorShortAddress : UInt16 := ntohs (response.bytesAt 2)
def descriptorEndpoint : UInt8 := response.pvMessage 5
def u8ClusterCount : UInt8 := response.pvMessage 11
def au16Clusters (k : Nat) : UInt16 := ntohs (response.bytesAt (12 + 2 * k))

def descriptor : SimpleDescriptor where
  u16DeviceID := ntohs (response.bytesAt 8)
  u16ProfileID := ntohs (response.bytesAt 6)
  -- u8DeviceVersion :4
  u8DeviceVersion := response.pvMessage 10 &&& 0x0F

end Response

/--
The attribute requests that are sent for the input clusters: the end point of each.
-/
def descriptorRequests (response : Response) : List UInt8 :=
  (List.range response.u8ClusterCount.toNat).flatMap fun k =>
    if response.au16Clusters k = E_ZB_CLUSTERID_ONOFF then [response.descriptorEndpoint] else []

/--
The handler on the message as it has been received.
-/
def handleDescriptorMessage (response : Response) (now now' : Int) (db : Db) : Db × List UInt8 :=
  let u16ShortAddress := response.descriptorShortAddress
  (ZCB_HandleSimpleDescriptorResponse u16ShortAddress response.descriptor now now' db,
    if (newDbGetZcbSaddr db u16ShortAddress.toNat).isSome then descriptorRequests response else [])

/--
What `ZCB_HandleSimpleDescriptorResponse` reads from a response.
-/
def descriptorAccesses (db : Db) (response : Response) : List Access :=
  [.bytes 2 2, .bytes 8 2, .bytes 10 1, .bytes 6 2]
    ++ if (newDbGetZcbSaddr db response.descriptorShortAddress.toNat).isSome then
        [.bytes 11 1]
          ++ (List.range response.u8ClusterCount.toNat).flatMap (fun k =>
              [.bytes (12 + 2 * k) 2]
                ++ if response.au16Clusters k = E_ZB_CLUSTERID_ONOFF then [.bytes 5 1] else [])
          ++ [.bytes 11 1]
      else
        []

end ZcbDaemon
