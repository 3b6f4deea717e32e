import IotGateway.Lib.Accesses
import IotGateway.NfcDaemon.Impl.Commission

/-!
This module contains one pass of the loop in which the NFC daemon handles a tag, and the places of
its buffers that the pass reads and writes.
-/

namespace NfcDaemon

open Accesses

/--
`payload` and `uri` are the arrays of `mfulHandle`.
-/
inductive Buffer where
  | ndefCache
  | ndefContent
  | payload
  | uri
  deriving DecidableEq

def Buffer.size : Buffer → Nat
  | .ndefCache => NDEF_MAX_SIZE
  | .ndefContent => NDEF_MAX_SIZE
  | .payload => NDEF_MAX_PAYLOAD + 2
  | .uri => NDEF_MAX_URI + 2

/--
An `int` as it is given to `memcpy`. The processor has 32 bits.
-/
def size_t (n : Int) : Nat := (n % 2 ^ 32).toNat

/--
The answers to the reads from the `i`-th on. Each has 16 bytes.
-/
def readBlocksAccesses (answered : Nat → Bool) : (n i : Nat) → List (Access Buffer)
  | 0, _ => []
  | n + 1, i =>
    if answered i then ⟨.ndefCache, i * 16, 16⟩ :: readBlocksAccesses answered n (i + 1) else []

def tagHeaderAccesses (ndefCache : Mem) : List (Access Buffer) :=
  if ndefCache 1 = 0xFF then
    [⟨.ndefCache, 1, 1⟩, ⟨.ndefCache, 2, 2⟩]
  else
    [⟨.ndefCache, 1, 1⟩]

def ndefHeaderAccesses (ndefCache : Mem) (ndefStart : Nat) : List (Access Buffer) :=
  -- sr bit set?
  if ndefCache ndefStart &&& 0x10 ≠ 0 then
    [⟨.ndefCache, ndefStart, 1⟩, ⟨.ndefCache, ndefStart + 1, 2⟩]
  else
    [⟨.ndefCache, ndefStart, 1⟩, ⟨.ndefCache, ndefStart + 1, 5⟩]

def NdefHeader.payloadStart (h : NdefHeader) : Nat := h.uriStart + h.uri_len

def cutAccesses (h : NdefHeader) (maxpayload maxuri : Nat) : List (Access Buffer) :=
  (if h.uri_len < maxuri then
    [⟨.ndefCache, h.uriStart, h.uri_len⟩, ⟨.uri, 0, h.uri_len⟩, ⟨.uri, h.uri_len, 1⟩]
  else
    [])
  ++ (if h.plen < maxpayload then
    [⟨.ndefCache, h.payloadStart, size_t h.plen⟩, ⟨.payload, 0, size_t h.plen⟩]
  else
    [])

def ndef_readAccesses (tag : Tag) (answered : Nat → Bool) (maxpayload maxuri : Nat)
    (ndefCache : Mem) : List (Access Buffer) :=
  -- Defined output
  [⟨.uri, 0, 1⟩, ⟨.payload, 0, 1⟩]
  ++ (if answered 0 then
    let ndefCache := memcpy ndefCache 0 16 (tag.read (UInt8.ofNat NDEF_OFFSET))
    [⟨.ndefCache, 0, 16⟩, ⟨.ndefCache, 0, 1⟩]
    ++ (if ndefCache 0 = 0x03 then
      let header := tagHeader ndefCache
      tagHeaderAccesses ndefCache
      ++ (if header.currLen < NDEF_MAX_SIZE - 2 then
        readBlocksAccesses answered (header.num16 - 1) 1
        ++ (match readBlocks tag answered (header.num16 - 1) 1 ndefCache with
          | (ndefCache, true) =>
            -- the dump
            [⟨.ndefCache, 0, header.num16 * 16⟩] ++ ndefHeaderAccesses ndefCache header.ndefStart
            ++ cutAccesses (ndefHeader ndefCache header.ndefStart) maxpayload maxuri
          | (_, false) => [])
      else
        [])
    else
      [])
  else
    [])

/--
The blocks from the `i`-th on, until a write command fails.
-/
def writeBlocksAccesses (answer : Nat → WriteAnswer) (ndefCache ndefContent : Mem)
    : (n i : Nat) → List (Access Buffer)
  | 0, _ => []
  | n + 1, i =>
    [⟨.ndefCache, i * 4, 4⟩, ⟨.ndefContent, i * 4, 4⟩]
    ++ (if SameBlock ndefCache ndefContent i then
      writeBlocksAccesses answer ndefCache ndefContent n (i + 1)
    else
      match answer i with
      | .done => writeBlocksAccesses answer ndefCache ndefContent n (i + 1)
      | .failed _ => [])

def ndef_writeAccesses (answer : Nat → WriteAnswer) (payload uri : List UInt8)
    (garbage ndefCache : Mem) : List (Access Buffer) :=
  let ndef_len := ndef_len payload.length uri.length
  let uriStart := tag_hdr_size ndef_len + ndef_hdr_size payload.length
  let payloadStart := uriStart + uri.length
  let len := tag_hdr_size ndef_len + ndef_len + 1
  [⟨.ndefContent, 0, uriStart⟩, ⟨.ndefContent, uriStart, uri.length⟩, ⟨.payload, 0, payload.length⟩,
    ⟨.ndefContent, payloadStart, payload.length⟩,
    -- Put an NDEF end-marker after our NDEF
    ⟨.ndefContent, payloadStart + payload.length, 1⟩,
    -- the dump
    ⟨.ndefContent, 0, len⟩]
  ++ writeBlocksAccesses answer ndefCache (ndefContent payload uri garbage) ((len + 3) / 4) 0

/--
What `mfulHandle` has in its array after a read.
-/
def NdefRead.fill (r : NdefRead) (payload : Mem) : Mem :=
  memcpy (memcpy payload 0 1 fun _ => 0) 0 r.payload.length fun k => r.payload[k]?.getD 0

/--
`strcmp( uri, COMMISSION_URI ) == 0`
-/
def NdefRead.hasCommissionUri (r : NdefRead) : Bool := r.uri.takeWhile (· ≠ 0) = COMMISSION_URI

/--
A pass of the loop, with what the read gives and what is done with it.
-/
def mfulHandle (env : Surroundings) (answered : Nat → Bool) (payload : Mem) (s : Commission)
    : NdefRead × Commission × Option Handled :=
  let r := ndef_read env.tag answered NDEF_MAX_PAYLOAD NDEF_MAX_URI env.ndefCache
  if 0 < r.ret ∧ r.hasCommissionUri then
    let env := { env with ndefCache := r.ndefCache }
    let (s, handled) := commissionHandleNfc env (r.fill payload) r.ret.toNat s
    (r, s, some handled)
  else
    (r, s, none)

/--
The accesses of `ndef_read`, and of `ndef_write` if a message is written.
-/
def mfulAccesses (env : Surroundings) (answered : Nat → Bool) (payload : Mem) (s : Commission)
    : List (Access Buffer) :=
  let (r, _, handled) := mfulHandle env answered payload s
  ndef_readAccesses env.tag answered NDEF_MAX_PAYLOAD NDEF_MAX_URI env.ndefCache
  ++ (match handled.bind Handled.written with
    | some message =>
      ndef_writeAccesses env.answer (bytes message 0 r.ret.toNat) COMMISSION_URI env.garbage
        r.ndefCache
    | none => [])

end NfcDaemon
