import IotGateway.ZcbDaemon.Impl.Nodes

/-!
This module contains the handlers by which the ZCB daemon learns which nodes are in the network and
what they are: announcements, leaves, neighbour tables and simple descriptors.
-/

namespace ZcbDaemon

open NewDb

/--
`tsZDSimpleDescRsp` without the addresses and the clusters.
-/
structure SimpleDescriptor where
  u16DeviceID : UInt16
  u16ProfileID : UInt16
  u8DeviceVersion : UInt8
  deriving DecidableEq

def ZCB_HandleDeviceAnnounce (u16ShortAddress : UInt16) (u64IEEEAddress : UInt64) (now now' : Int)
    (db : Db) : Db :=
  (zcbAddNode u16ShortAddress u64IEEEAddress now now' db).1

def ZCB_HandleDeviceLeave (u64IEEEAddress : UInt64) (bRejoin : Bool) (now : Int) (db : Db) : Db :=
  (zcbNodeLeft u64IEEEAddress bRejoin now db).1

/--
The row is stored before the clusters are looked at and once more after that.
-/
def ZCB_HandleSimpleDescriptorResponse (u16ShortAddress : UInt16) (descriptor : SimpleDescriptor)
    (now now' : Int) (db : Db) : Db :=
  match newDbGetZcbSaddr db u16ShortAddress.toNat with
  | some sZcb =>
    let sZcb : Zcb :=
      { sZcb with
        type := descriptor.u16DeviceID.toNat
        u16ProfileId := descriptor.u16ProfileID
        u8DeviceVersion := descriptor.u8DeviceVersion }
    (newDbSetZcb (newDbSetZcb db sZcb now).1 { sZcb with lastupdate := now } now').1
  | none => db

/--
An entry of a neighbour table, and the clock when it is looked at.
-/
structure Neighbour where
  u16ShortAddress : UInt16
  u64IEEEAddress : UInt64
  now : Int
  now' : Int

def Neighbour.legal (neighbour : Neighbour) : Bool :=
  neighbour.u16ShortAddress < 0xFFFA && neighbour.u64IEEEAddress != 0

def handleNeighbour (db : Db) (neighbour : Neighbour) : Db :=
  if neighbour.legal then
    match newDbGetZcbSaddr db neighbour.u16ShortAddress.toNat with
    -- Existing node
    | some _ => db
    -- New node
    | none =>
      (zcbAddNode neighbour.u16ShortAddress neighbour.u64IEEEAddress neighbour.now neighbour.now'
        db).1
  else
    db

/--
What `eZCB_ManagementLQIRequest` makes of a response.
-/
def managementLQI (asNeighbours : List Neighbour) (db : Db) : Db :=
  asNeighbours.foldl handleNeighbour db

end ZcbDaemon
