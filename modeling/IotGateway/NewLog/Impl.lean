import Mathlib.Algebra.Ring.Int.Defs
import Mathlib.Algebra.Ring.Nat
import Mathlib.Logic.Function.Basic

/-!
This module contains the log that all programs share: a ring of lines, to which `newLogAdd` adds and
over which `newLogLoop` loops. Each of the functions locks the log.
-/

namespace NewLog

def NEWLOG_MAX_LOGS : Nat := 120
def NEWLOG_MAX_TEXT : Nat := 98

def NEWLOG_FROM_NONE : Nat := 0

/--
`onelog_t`. `logFrom` is its field `from`, and `text` are the bytes before the zero.
-/
structure OneLog where
  logFrom : Nat
  ts : Int
  text : List UInt8
  deriving DecidableEq

/--
`newlog_t` without the fields that are not read. The slots are numbered from 0 on.
-/
structure Log where
  cnt : Int
  index : Nat
  log : Nat → OneLog
  index_lt : index < NEWLOG_MAX_LOGS

/--
An `int` from a number that it may not hold.
-/
def toInt (n : Int) : Int := Int.bmod n (2 ^ 32)

def emptyLine : OneLog where
  logFrom := 0
  ts := 0
  text := []

/--
The log that `newLogOpen` creates.
-/
def Log.create : Log where
  cnt := 0
  index := 0
  log := fun _ => emptyLine
  index_lt := by decide

def nextIndex (index : Nat) : Nat := if index + 1 ≥ NEWLOG_MAX_LOGS then 0 else index + 1

theorem nextIndex_lt (index : Nat) : nextIndex index < NEWLOG_MAX_LOGS := by
  unfold nextIndex
  split
  . decide
  . omega

/--
A line is stored in the ring.
-/
def Log.store (l : Log) (line : OneLog) : Log where
  cnt := toInt (l.cnt + 1)
  index := nextIndex l.index
  log := Function.update l.log l.index line
  index_lt := nextIndex_lt l.index

/--
The loop of `newLogAdd`, which takes `NEWLOG_MAX_TEXT` bytes a turn.
-/
def addLoop (logFrom : Nat) (now : Int) (text : List UInt8) (len : Int) (l : Log) : Log :=
  if 0 < len then
    addLoop logFrom now (text.drop NEWLOG_MAX_TEXT) (len - NEWLOG_MAX_TEXT)
      (l.store { logFrom, ts := now, text := text.take NEWLOG_MAX_TEXT })
  else
    l
termination_by len.toNat
decreasing_by
  simp only [NEWLOG_MAX_TEXT]
  omega

def newLogAdd (logFrom : Nat) (now : Int) (text : List UInt8) (l : Log) : Log :=
  addLoop logFrom now text (toInt text.length) l

def newLogEmpty (l : Log) : Log where
  cnt := 0
  index := 0
  log := l.log
  index_lt := by decide

def newLogGetIndex (l : Log) : Int := if 0 < l.cnt then l.index else -1

/--
The slots from `start` on. `cb` says if its call number `k` returns something else than 0. The lines
with which it is called come back, and where the loop has stopped.
-/
def loopFrom (log : Nat → OneLog) (logFrom : Nat) (cb : Nat → Bool)
    : Nat → Nat → Int → List OneLog × Int
  | 0, _, start => ([], start)
  | turns + 1, k, start =>
    let line := log start.toNat
    let next := if start + 1 ≥ NEWLOG_MAX_LOGS then 0 else start + 1
    if logFrom = NEWLOG_FROM_NONE ∨ line.logFrom = logFrom then
      if cb k then
        let rest := loopFrom log logFrom cb turns (k + 1) next
        (line :: rest.1, rest.2)
      else
        ([line], next)
    else
      loopFrom log logFrom cb turns k next

/--
`cnt` in `newLogLoop`.
-/
def Log.loopCount (l : Log) (startIndex : Int) : Int :=
  if startIndex < 0 then
    l.cnt.tmod NEWLOG_MAX_LOGS
  else if (l.index : Int) - startIndex < 0 then
    (l.index : Int) - startIndex + NEWLOG_MAX_LOGS
  else
    (l.index : Int) - startIndex

def newLogLoop (logFrom : Nat) (startIndex : Int) (cb : Nat → Bool) (l : Log)
    : List OneLog × Int :=
  let cnt := l.loopCount startIndex
  let start := (l.index : Int) - cnt
  let start := if start < 0 then start + NEWLOG_MAX_LOGS else start
  loopFrom l.log logFrom cb cnt.toNat 0 start

end NewLog
