import IotGateway.NewDb.Impl.Tables

/-!
This module contains how the tables are saved to a file with a backup and restored from the two. A
file is the list of the cells in it, and `results` is what the system calls that may fail return,
one after the other: the process dies in front of the call that finds no result left.
-/

namespace NewDb

section

variable {α : Type}

/--
The file `iot_<table>.db` and its backup `iot_<table>.bck`, if they exist.
-/
structure Disk (α : Type) where
  filename : Option (List α)
  backup : Option (List α)
  deriving DecidableEq

/--
How a part of `newDbSaveTable` ends.
-/
inductive Progress where
  | died
  | error
  | next (results : List Int)

def removeBackup (results : List Int) (disk : Disk α) : Disk α × Progress :=
  match disk.backup, results with
  | none, results => (disk, .next results)
  | some _, [] => (disk, .died)
  | some _, ret :: results =>
    if ret = 0 then ({ disk with backup := none }, .next results) else (disk, .error)

def renameToBackup (results : List Int) (disk : Disk α) : Disk α × Progress :=
  match results with
  | [] => (disk, .died)
  | ret :: results =>
    if ret = 0 then
      ({ filename := none, backup := disk.filename }, .next results)
    else
      (disk, .error)

/--
The file becomes the backup. If there is no file then the backup stays.
-/
def backUp (results : List Int) (disk : Disk α) : Disk α × Progress :=
  match disk.filename with
  | none => (disk, .next results)
  | some _ =>
    match removeBackup results disk with
    | (disk, .next results) => renameToBackup results disk
    | (disk, ended) => (disk, ended)

/--
`open` without `O_TRUNC`
-/
def fileCreateRW (results : List Int) (disk : Disk α) : Disk α × Progress :=
  match results with
  | [] => (disk, .died)
  | fd :: results =>
    if 0 ≤ fd then
      ({ disk with filename := some (disk.filename.getD []) }, .next results)
    else
      (disk, .error)

def overwrite (file : List α) (pos : Nat) (buf : List α) : List α :=
  file.take pos ++ buf ++ file.drop (pos + buf.length)

/--
The loop around `write`, which returns the number of bytes that it has written. The last component
is the value of `bytestowrite == 0`, `none` if the process died.
-/
def writeLoop : (results : List Int) → (buf : List α) → (pos : Nat) → (file : List α)
    → List α × Option (List Int × Bool)
  | results, [], _, file => (file, some (results, true))
  | [], _ :: _, _, file => (file, none)
  | byteswritten :: results, b :: buf, pos, file =>
    if 0 ≤ byteswritten then
      let chunk := (b :: buf).take byteswritten.toNat
      writeLoop results ((b :: buf).drop chunk.length) (pos + chunk.length)
        (overwrite file pos chunk)
    else
      (file, some (results, false))

/--
`open`, the loop and `fsync`
-/
def writeData (data : List α) (results : List Int) (file : List α) : List α × Option Bool :=
  match results with
  | [] => (file, none)
  | fd :: results =>
    if 0 ≤ fd then
      match writeLoop results data 0 file with
      | (file, some (_ :: _, ret)) => (file, some ret)
      | (file, _) => (file, none)
    else
      (file, some data.isEmpty)

/--
There is no result if the process died.
-/
def newDbSaveTable (data : List α) (results : List Int) (disk : Disk α) : Disk α × Option Bool :=
  if 0 < data.length then
    match backUp results disk with
    | (disk, .died) => (disk, none)
    | (disk, .error) => (disk, some false)
    | (disk, .next results) =>
      match fileCreateRW results disk with
      | (disk, .died) => (disk, none)
      | (disk, .error) => (disk, some false)
      | (disk, .next results) =>
        let (file, ret) := writeData data results (disk.filename.getD [])
        ({ disk with filename := some file }, ret)
  else
    (disk, some false)

/--
The backup is opened only if there is no file.
-/
def newDbRestoreTable (len : Nat) (disk : Disk α) : Option (List α) :=
  if 0 < len then
    match disk.filename <|> disk.backup with
    | some file => if len ≤ file.length then some (file.take len) else none
    | none => none
  else
    none

end

/--
The static copies of the `lastupdate_*` values.
-/
structure Stamps where
  lastupdate_sys : Int := 0
  lastupdate_rooms : Int := 0
  lastupdate_devices : Int := 0
  lastupdate_plughist : Int := 0
  lastupdate_zcb : Int := 0
  deriving DecidableEq

def Db.stamps (db : Db) : Stamps where
  lastupdate_sys := db.lastupdate_sys
  lastupdate_rooms := db.lastupdate_rooms
  lastupdate_devices := db.lastupdate_devices
  lastupdate_plughist := db.lastupdate_plughist
  lastupdate_zcb := db.lastupdate_zcb

/--
The whole structure is one cell. There are no stamps if the process died.
-/
def newDbSave (db : Db) (results : List Int) (stamps : Stamps) (disk : Disk Db)
    : Disk Db × Option Stamps :=
  if db.stamps ≠ stamps then
    match newDbSaveTable [db] results disk with
    | (disk, some true) => (disk, some db.stamps)
    | (disk, some false) => (disk, some stamps)
    | (disk, none) => (disk, none)
  else
    (disk, some stamps)

def newDbRestore (disk : Disk Db) : Option Db :=
  match newDbRestoreTable 1 disk with
  | some [pnewdb] => if pnewdb.version = NEWDB_VERSION then some pnewdb else none
  | _ => none

/--
What the process that creates the shared memory puts into it.
-/
def newDbOpen (disk : Disk Db) : Db := (newDbRestore disk).getD Db.init

end NewDb
