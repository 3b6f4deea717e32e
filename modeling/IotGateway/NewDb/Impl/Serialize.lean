import IotGateway.NewDb.Impl.Lastupdate
import Mathlib.Algebra.Order.Ring.Int

/-!
This module contains the serialization of the tables into a buffer of the caller. Rows are separated
by a semicolon and the columns of a row by a comma, and the first row holds the names of the columns.
-/

namespace NewDb

inductive Column where
  | int (num : Int)
  | str (string : String)
  deriving DecidableEq

/--
`intbuf` after `%d`
-/
def intbuf (num : Int) : List Char :=
  if num < 0 then '-' :: Nat.toDigits 10 num.natAbs else Nat.toDigits 10 num.natAbs

def Column.text : Column → List Char
  | .int num => intbuf num
  | .str string => string.toList

/--
The buffer of the caller from `start` to the terminator, and the offset of `buf` from `start`. The
offset may stay behind the terminator.
-/
structure Buffer where
  text : List Char := []
  buf : Option Nat := some 0
  deriving DecidableEq

/--
What has been written into the buffer, with the terminator.
-/
def Buffer.bytes (b : Buffer) : Nat := b.text.length + 1

/--
The pointer that the serialization of a table returns.
-/
def Buffer.returned (b : Buffer) : Option (List Char) :=
  match b.buf with
  | some _ => some b.text
  | none => none

def strcat (b : Buffer) (str : List Char) : Buffer := { b with text := b.text ++ str }

def newDbSerializeHelperStr (MAXBUF : Int) (b : Buffer) (str : List Char) (proceedComma : Bool)
    : Buffer :=
  match b.buf with
  | none => b
  | some buf =>
    let blen := b.text.length - buf
    let slen := str.length
    if ((blen + slen + 1 : Nat) : Int) < MAXBUF then
      let b := if proceedComma then strcat b [','] else b
      { strcat b str with buf := some (buf + (blen + slen)) }
    else
      { b with buf := none }

def newDbSerializeHelperInt (MAXBUF : Int) (b : Buffer) (num : Int) (proceedComma : Bool) : Buffer :=
  newDbSerializeHelperStr MAXBUF b (intbuf num) proceedComma

/--
`MAXBUF - (int)( buf-start )`, which is not used once `buf` is `NULL`.
-/
def Buffer.room (b : Buffer) (MAXBUF : Int) : Int := MAXBUF - b.buf.getD 0

def newDbSerializeHelper (MAXBUF : Int) (b : Buffer) (column : Column) (proceedComma : Bool)
    : Buffer :=
  match column with
  | .int num => newDbSerializeHelperInt (b.room MAXBUF) b num proceedComma
  | .str string => newDbSerializeHelperStr (b.room MAXBUF) b string.toList proceedComma

/--
The columns of one row. There is no comma in front of the first one.
-/
def serializeColumns (MAXBUF : Int) (b : Buffer) : List Column → Bool → Buffer
  | [], _ => b
  | column :: columns, addComma =>
    serializeColumns MAXBUF (newDbSerializeHelper MAXBUF b column addComma) columns true

/--
The loop stops at `NULL`, where the helpers do nothing.
-/
def newDbSerializeHelperHeader (MAXBUF : Int) (b : Buffer) (headers : List String) : Buffer :=
  serializeColumns MAXBUF b (headers.map .str) false

/--
What a serialization goes through: the header, and the rows, where those that it skips have no
columns.
-/
structure Sheet where
  headers : List String
  rows : List (Option (List Column))

def Sheet.liveRows (s : Sheet) : List (List Column) := s.rows.filterMap id

def serializeRow (MAXBUF : Int) (b : Buffer) (row : Option (List Column)) : Buffer :=
  match b.buf, row with
  | some _, some columns => serializeColumns MAXBUF (strcat b [';']) columns false
  | _, _ => b

def Sheet.serialize (s : Sheet) (MAXBUF : Int) : Buffer :=
  s.rows.foldl (serializeRow MAXBUF) (newDbSerializeHelperHeader MAXBUF {} s.headers)

def View.sheet {n : Nat} {ρ : Type} (v : View n ρ) (db : Db) (headers : List String)
    (columns : ρ → List Column) : Sheet where
  headers
  rows := (List.finRange n).map fun i =>
    if v.used (v.table db i) then some (columns (v.table db i)) else none

def newdb_system_columns : List String := ["id", "name", "intval", "strval", "lastupdate"]

def newdb_devs_columns : List String :=
  ["id", "mac", "dev", "ty", "par", "nm", "heat", "cool", "tmp", "hum", "prs", "co2", "bat", "batl",
    "als", "xloc", "yloc", "zloc", "sid", "cmd", "lvl", "rgb", "kelvin", "act", "sum", "flags",
    "lastupdate"]

def newdb_plughist_columns : List String := ["id", "mac", "sum", "lastupdate"]

def newdb_zcb_columns : List String := ["id", "mac", "status", "saddr", "type", "lastupdate"]

def System.columns (sys : System) : List Column :=
  [.int sys.id, .str sys.name, .int sys.intval, .str sys.strval, .int sys.lastupdate]

def Device.columns (dev : Device) : List Column :=
  [.int dev.id, .str dev.mac, .int dev.dev, .str dev.ty, .int dev.par, .str dev.nm, .int dev.heat,
    .int dev.cool, .int dev.tmp, .int dev.hum, .int dev.prs, .int dev.co2, .int dev.bat,
    .int dev.batl, .int dev.als, .int dev.xloc, .int dev.yloc, .int dev.zloc, .int dev.sid,
    .str dev.cmd, .int dev.lvl, .int dev.rgb, .int dev.kelvin, .int dev.act, .int dev.sum,
    .int dev.flags.toInt, .int dev.lastupdate]

def PlugHist.columns (hist : PlugHist) : List Column :=
  [.int hist.id, .str hist.mac, .int hist.sum, .int hist.lastupdate]

def ZcbStatus.toInt : ZcbStatus → Int
  | .free => 0
  | .used => 1
  | .joined => 2
  | .left => 3

def Zcb.columns (zcb : Zcb) : List Column :=
  [.int zcb.id, .str zcb.mac, .int zcb.status.toInt, .int zcb.saddr, .int zcb.type,
    .int zcb.lastupdate]

section

variable (db : Db)

def systemSheet : Sheet := systemView.sheet db newdb_system_columns System.columns

def devsSheet (dev1 dev2 : Int) : Sheet :=
  (devicesView dev1 dev2).sheet db newdb_devs_columns Device.columns

def plughistSheet : Sheet := plughistView.sheet db newdb_plughist_columns PlugHist.columns

def zcbSheet : Sheet := zcbView.sheet db newdb_zcb_columns Zcb.columns

variable (MAXBUF : Int)

def newDbSerializeSystem : Buffer := (systemSheet db).serialize MAXBUF

def newDbSerializeDevsDev (dev1 dev2 : Int) : Buffer := (devsSheet db dev1 dev2).serialize MAXBUF

def newDbSerializeDevs : Buffer :=
  newDbSerializeDevsDev db MAXBUF DEVICE_DEV_UNKNOWN DEVICE_DEV_UNKNOWN

def newDbSerializePlugs : Buffer := newDbSerializeDevsDev db MAXBUF DEVICE_DEV_PLUG DEVICE_DEV_PLUG

def newDbSerializeLamps : Buffer := newDbSerializeDevsDev db MAXBUF DEVICE_DEV_LAMP DEVICE_DEV_LAMP

def newDbSerializeLampsAndPlugs : Buffer :=
  newDbSerializeDevsDev db MAXBUF DEVICE_DEV_LAMP DEVICE_DEV_PLUG

def newDbSerializeClimate : Buffer :=
  newDbSerializeDevsDev db MAXBUF DEVICE_DEV_MANAGER DEVICE_DEV_PUMP

def newDbSerializePlugHist : Buffer := (plughistSheet db).serialize MAXBUF

def newDbSerializeZcb : Buffer := (zcbSheet db).serialize MAXBUF

end

/--
The calls that serialize a table.
-/
inductive Serialize where
  | system
  | devs
  | plugs
  | lamps
  | lampsAndPlugs
  | climate
  | plugHist
  | zcb

def Serialize.run (db : Db) (MAXBUF : Int) : Serialize → Buffer
  | .system => newDbSerializeSystem db MAXBUF
  | .devs => newDbSerializeDevs db MAXBUF
  | .plugs => newDbSerializePlugs db MAXBUF
  | .lamps => newDbSerializeLamps db MAXBUF
  | .lampsAndPlugs => newDbSerializeLampsAndPlugs db MAXBUF
  | .climate => newDbSerializeClimate db MAXBUF
  | .plugHist => newDbSerializePlugHist db MAXBUF
  | .zcb => newDbSerializeZcb db MAXBUF

def Serialize.sheet (db : Db) : Serialize → Sheet
  | .system => systemSheet db
  | .devs => devsSheet db DEVICE_DEV_UNKNOWN DEVICE_DEV_UNKNOWN
  | .plugs => devsSheet db DEVICE_DEV_PLUG DEVICE_DEV_PLUG
  | .lamps => devsSheet db DEVICE_DEV_LAMP DEVICE_DEV_LAMP
  | .lampsAndPlugs => devsSheet db DEVICE_DEV_LAMP DEVICE_DEV_PLUG
  | .climate => devsSheet db DEVICE_DEV_MANAGER DEVICE_DEV_PUMP
  | .plugHist => plughistSheet db
  | .zcb => zcbSheet db

end NewDb
