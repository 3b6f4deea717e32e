import IotGateway.SerialLink.Basic

/-!
This module contains the slots in which threads wait for a message: `eSL_MessageQueue`, which the
reader thread calls, and `eSL_MessageWait`, which any number of threads call. What a thread does
under the mutex of a slot is one step, and the steps of all threads interleave.
-/

namespace SerialLink

/--
The arguments of a call of `eSL_MessageWait`. `psStatus` is the `u16MessageType` of the
`tsSL_Msg_Status` that `*ppvMessage` points at, `none` for a null pointer.
-/
structure WaitArgs where
  u16Type : UInt16
  u32WaitTimeout : Nat
  psStatus : Option UInt16

/--
What `pu8Message` points at: a `tsSL_Msg_Status` of a waiting call, or one of the copies that
`eSL_MessageQueue` has made, in the order in which it made them.
-/
inductive Pointer where
  | null
  | caller (call : Nat)
  | copy (k : Nat)
  deriving DecidableEq

/--
An element of `asReaderMessageQueue`.
-/
structure Slot where
  u16Type : UInt16
  u16Length : UInt16
  pu8Message : Pointer

abbrev SlotIndex := Fin SL_MAX_MESSAGE_QUEUES

def firstSlot : SlotIndex := ⟨0, by decide⟩

/--
What a call of `eSL_MessageWait` returns, with the length and the pointer it stores on `E_SL_OK`.
-/
inductive WaitResult where
  | ok (u16Length : UInt16) (pvMessage : Pointer)
  | noMessage
  | error
  deriving DecidableEq

/--
Where a call of `eSL_MessageWait` stands. In the last but one states `pthread_cond_timedwait` has
been signalled or has timed out and waits for the mutex.
-/
inductive CallPc where
  | idle
  | look (i : SlotIndex)
  | waiting (i : SlotIndex)
  | signalled (i : SlotIndex)
  | expired (i : SlotIndex)
  | returned (result : WaitResult)
  deriving DecidableEq

/--
Where the reader thread stands in `eSL_MessageQueue`.
-/
inductive ReaderPc where
  | idle
  | look (m : Message) (i : SlotIndex)
  | broadcast (i : SlotIndex)

/--
`locked` marks the mutexes that a failed allocation left locked. `copies` are the messages copied so
far, and `registered` remembers how many there were when a call took its slot.
-/
structure Listeners where
  slots : SlotIndex → Slot
  locked : SlotIndex → Bool
  reader : ReaderPc
  calls : Nat → CallPc
  copies : List Message
  registered : Nat → Nat

inductive Act where
  | queue (m : Message)
  | lookSlot (mallocOk : Bool)
  | broadcast
  | wait (call : Nat)
  | lookFree (call : Nat) (tv_usec : Nat)
  | wake (call : Nat)
  | expire (call : Nat)
  | giveUp (call : Nat)

/--
The next turn of the loop over the slots.
-/
def nextSlot (i : SlotIndex) : Option SlotIndex :=
  if h : i.val + 1 < SL_MAX_MESSAGE_QUEUES then some ⟨i.val + 1, h⟩ else none

/--
`sTimeout.tv_nsec` of `eSL_MessageWait`. `pthread_cond_timedwait` refuses 10^9 and more.
-/
def timeoutNsec (u32WaitTimeout tv_usec : Nat) : Nat :=
  let tv_nsec := (tv_usec + u32WaitTimeout % 1000 * 1000) * 1000
  if 1000000000 < tv_nsec then tv_nsec - 1000000000 else tv_nsec

/--
`ntohs(psRxStatus->u16MessageType)`
-/
def Message.statusType (m : Message) : UInt16 := word (m.au8Message 2) (m.au8Message 3)

/--
The message is copied and the copy put into the slot; the signal is still to come.
-/
def Listeners.fill (s : Listeners) (i : SlotIndex) (m : Message) : Listeners :=
  let slot := { s.slots i with u16Length := m.u16Length, pu8Message := .copy s.copies.length }
  { s with
    slots := Function.update s.slots i slot
    copies := s.copies ++ [m]
    reader := .broadcast i }

/--
`pthread_cond_broadcast`, after the mutex has been released.
-/
def Listeners.signal (s : Listeners) (i : SlotIndex) : Listeners :=
  { s with
    calls := fun c => if s.calls c = .waiting i then .signalled i else s.calls c
    reader := .idle }

section

-- the arguments of all calls, and the memory behind each copy
variable (args : Nat → WaitArgs) (heap : Nat → Nat → UInt8)

def Listeners.copyByte (s : Listeners) (k n : Nat) : UInt8 :=
  match s.copies[k]? with
  | some m => if n < m.u16Length.toNat then m.au8Message n else heap k n
  | none => heap k n

/--
`psWaitStatus->u16MessageType`, in the order of bytes of a little endian host.
-/
def Listeners.waitStatus (s : Listeners) : Pointer → Option UInt16
  | .null => none
  | .caller call => (args call).psStatus
  | .copy k => some (word (s.copyByte heap k 3) (s.copyByte heap k 2))

/--
The tests under which `eSL_MessageQueue` hands the message to a slot.
-/
def Listeners.takes (s : Listeners) (i : SlotIndex) (m : Message) : Bool :=
  (s.slots i).u16Type = m.u16Type
    && (m.u16Type ≠ E_SL_MSG_STATUS
      || match s.waitStatus args heap (s.slots i).pu8Message with
        | some u16MessageType => u16MessageType = m.statusType
        | none => true)

/--
The slot with the type the call waits for and, if that is the status, the pointer.
-/
def Listeners.request (s : Listeners) (call : Nat) (i : SlotIndex) : Slot :=
  { s.slots i with
    u16Type := (args call).u16Type
    pu8Message :=
      if (args call).u16Type = E_SL_MSG_STATUS then
        if (args call).psStatus = none then .null else .caller call
      else
        (s.slots i).pu8Message }

/--
One step of one thread. `none` means that the thread is somewhere else or the mutex is not free.
-/
def Listeners.step (s : Listeners) : Act → Option Listeners
  | .queue m =>
    match s.reader with
    | .idle => some { s with reader := .look m firstSlot }
    | _ => none
  | .lookSlot mallocOk =>
    match s.reader with
    | .look m i =>
      if s.locked i then
        none
      else if s.takes args heap i m then
        if mallocOk then
          some (s.fill i m)
        else
          -- returns E_SL_ERROR_NOMEM without unlocking
          some { s with locked := Function.update s.locked i true, reader := .idle }
      else
        match nextSlot i with
        | some j => some { s with reader := .look m j }
        | none => some { s with reader := .idle }
    | _ => none
  | .broadcast =>
    match s.reader with
    | .broadcast i => some (s.signal i)
    | _ => none
  | .wait call =>
    match s.calls call with
    | .idle => some { s with calls := Function.update s.calls call (.look firstSlot) }
    | _ => none
  | .lookFree call tv_usec =>
    match s.calls call with
    | .look i =>
      if s.locked i then
        none
      else if (s.slots i).u16Type = 0 then
        if timeoutNsec (args call).u32WaitTimeout tv_usec < 1000000000 then
          some { s with
            slots := Function.update s.slots i (s.request args call i)
            calls := Function.update s.calls call (.waiting i)
            registered := Function.update s.registered call s.copies.length }
        else
          -- EINVAL, the default branch
          some { s with
            slots := Function.update s.slots i { s.request args call i with u16Type := 0 }
            calls := Function.update s.calls call (.returned .error) }
      else
        match nextSlot i with
        | some j => some { s with calls := Function.update s.calls call (.look j) }
        | none => some { s with calls := Function.update s.calls call (.returned .error) }
    | _ => none
  | .wake call =>
    match s.calls call with
    | .signalled i =>
      if s.locked i then
        none
      else
        let result := .ok (s.slots i).u16Length (s.slots i).pu8Message
        some { s with
          slots := Function.update s.slots i { s.slots i with u16Type := 0 }
          calls := Function.update s.calls call (.returned result) }
    | _ => none
  | .expire call =>
    match s.calls call with
    | .waiting i => some { s with calls := Function.update s.calls call (.expired i) }
    | _ => none
  | .giveUp call =>
    match s.calls call with
    | .expired i =>
      if s.locked i then
        none
      else
        some { s with
          slots := Function.update s.slots i { s.slots i with u16Type := 0 }
          calls := Function.update s.calls call (.returned .noMessage) }
    | _ => none

end

/--
The state that `eSL_Init` leaves.
-/
def Listeners.init : Listeners where
  slots := fun _ => { u16Type := 0, u16Length := 0, pu8Message := .null }
  locked := fun _ => false
  reader := .idle
  calls := fun _ => .idle
  copies := []
  registered := fun _ => 0

end SerialLink
