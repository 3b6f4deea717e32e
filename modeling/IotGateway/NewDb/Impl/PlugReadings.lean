import IotGateway.NewDb.Impl.Tables

/-!
This module contains what is computed of the readings in the plug history. Times are rounded to
minutes.
-/

namespace NewDb

/--
The static variables `findmax` and `findmin`.
-/
structure FindUsage where
  findmax : Int := -1
  findmin : Int := -1

def plugFindUsageCb (findstart findend : Int) (phist : PlugHist) (s : FindUsage) : FindUsage × Bool :=
  let min := Int.tdiv phist.lastupdate 60
  if min < findstart then
    -- Future? Ignore
    (s, true)
  else if min ≤ findend then
    ({ findmax := if s.findmax < 0 ∨ phist.sum > s.findmax then phist.sum else s.findmax
       findmin := if s.findmin < 0 ∨ phist.sum < s.findmin then phist.sum else s.findmin }, true)
  else
    (s, true)

/--
The usage in the last `period` minutes.
-/
def plugFindUsage (db : Db) (mac : String) (now period : Int) : Int :=
  let findstart := Int.tdiv now 60
  let findend := findstart - period
  let s := (newDbLoopPlugHist db mac (plugFindUsageCb findstart findend) {}).1
  if 0 ≤ s.findmax ∧ 0 ≤ s.findmin then s.findmax - s.findmin else 0

def plugFindHourUsage (db : Db) (mac : String) (now : Int) : Int := plugFindUsage db mac now 60

def plugFindDayUsage (db : Db) (mac : String) (now : Int) : Int := plugFindUsage db mac now (24 * 60)

/--
The static variables `histbuffer`, `histmin` and `histmax`.
-/
structure History where
  histbuffer : Nat → Int := fun _ => 0
  histmin : Int := 0
  histmax : Int := 0

def plugHistCb (histstart histperiod : Int) (histnum : Nat) (phist : PlugHist) (s : History)
    : History × Bool :=
  let min := Int.tdiv phist.lastupdate 60
  let sample := Int.tdiv (histstart - min) histperiod
  if sample < 0 then
    -- Future? Ignore
    (s, true)
  else if sample < histnum then
    ({ s with
        histbuffer :=
          if phist.sum > s.histbuffer sample.toNat then
            Function.update s.histbuffer sample.toNat phist.sum
          else
            s.histbuffer
        histmin := if s.histmin = 0 ∨ phist.sum < s.histmin then phist.sum else s.histmin }, true)
  else
    ({ s with
        histmax := if s.histmax = 0 ∨ phist.sum > s.histmax then phist.sum else s.histmax }, true)

/--
The loop that fills the gaps, from the period `i - 1` on to the last one.
-/
def fillGaps (histbuffer : Nat → Int) : Nat → Nat → Int
  | 0 => histbuffer
  | i + 1 =>
    if histbuffer i = 0 then
      fillGaps (Function.update histbuffer i (histbuffer (i + 1))) i
    else
      fillGaps histbuffer i

/--
The buffer of `num` periods. The newest period has the index 0.
-/
def plugGetHistory (db : Db) (mac : String) (now period : Int) (num : Nat) : Nat → Int :=
  let s := (newDbLoopPlugHist db mac (plugHistCb (Int.tdiv now 60) period num) {}).1
  let histbuffer :=
    if s.histbuffer (num - 1) = 0 then
      -- Set start value
      Function.update s.histbuffer (num - 1) (if s.histmax ≠ 0 then s.histmax else s.histmin)
    else
      s.histbuffer
  fillGaps histbuffer (num - 1)

end NewDb
