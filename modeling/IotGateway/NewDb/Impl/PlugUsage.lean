import IotGateway.Common.Parsing
import IotGateway.NewDb.Impl.Tables

/-!
This module contains the cleanup of the plug history. Policy is to keep all minute values for last
hour and all hour readings of last 24 hours.
-/

namespace NewDb

def MAXCLEANIDLIST : Nat := 10

/--
The static variables that the cleanup uses. The arrays are set to -1 before each scan.
-/
structure CleanScan where
  minhourday : Int → Int := fun _ => -1
  mhd_sample : Int → Int := fun _ => -1
  cleanIdList : List Int := []

/--
The index in `minhourday` of a sample of the minute `min`.
-/
inductive Sample where
  | none
  | index (sample : Int)
  | clean

def sampleAt (cleanstart min : Int) : Sample :=
  if min < cleanstart then
    -- Future : keep
    .none
  else if min < cleanstart + 60 then
    -- Less than 1 hour old: keep highest minute sample
    .index (cleanstart - min)
  else if min < cleanstart + 60 * 24 then
    -- Less than 1 day old: keep highest hour sample
    .index (60 + Int.tdiv (cleanstart - min) 60)
  else if min < cleanstart + 60 * 24 * 2 then
    -- Less than 2 day old: keep highest day sample
    .index (60 + 24)
  else
    -- Older than 2 days
    .clean

/--
The id that is put on the list is -1 if none is.
-/
def plugCleanPrepareCb (cleanstart : Int) (phist : PlugHist) (s : CleanScan) : CleanScan × Bool :=
  let min := Int.tdiv phist.lastupdate 60
  let (clean, s) :=
    match sampleAt cleanstart min with
    | .clean => (phist.id, s)
    | .none => (-1, s)
    | .index sample =>
      let keep : CleanScan :=
        { s with
          minhourday := Function.update s.minhourday sample phist.sum
          mhd_sample := Function.update s.mhd_sample sample phist.id }
      if sample < 0 then
        (-1, s)
      else if s.minhourday sample < 0 then
        (-1, keep)
      else if s.minhourday sample ≤ phist.sum then
        (s.mhd_sample sample, keep)
      else
        (phist.id, s)
  if 0 ≤ clean then
    let s :=
      if s.cleanIdList.length < MAXCLEANIDLIST then
        { s with cleanIdList := s.cleanIdList ++ [clean] }
      else
        s
    (s, s.cleanIdList.length < MAXCLEANIDLIST)
  else
    (s, true)

/--
`clock` is what the clock shows in each deletion. The first one that fails is the last.
-/
def deleteAll : List Int → (clock : Nat → Int) → Db → Db
  | [], _, db => db
  | id :: ids, clock, db =>
    match newDbDeletePlugHist db id (clock 0) with
    | (db, true) => deleteAll ids (fun i => clock (i + 1)) db
    | (db, false) => db

def cleanList (mac : String) (now : Int) (db : Db) : List Int :=
  (newDbLoopPlugHist db mac (plugCleanPrepareCb (Int.tdiv now 60)) {}).1.cleanIdList

/--
The result is false when there is still work to do.
-/
def plugHistoryCleanup (mac : String) (now : Int) (clock : Nat → Int) (db : Db) : Db × Bool :=
  let cleanIdList := cleanList mac now db
  (deleteAll cleanIdList clock db, cleanIdList.length < MAXCLEANIDLIST)

end NewDb
