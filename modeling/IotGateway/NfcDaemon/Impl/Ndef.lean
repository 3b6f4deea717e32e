import Mathlib.Data.List.Basic

/-!
This module contains how the NFC daemon reads a message from a tag and writes one to it, with the
cache that saves it from writing what the tag has already.
-/

namespace NfcDaemon

def NDEF_MAX_SIZE : Nat := 2048
def NDEF_MAX_PAYLOAD : Nat := 2048
def NDEF_MAX_URI : Nat := 40
def NDEF_OFFSET : Nat := 4

/--
Memory of the program, from the start of an array on.
-/
abbrev Mem : Type := Nat → UInt8

def memcpy (dst : Mem) (p n : Nat) (src : Nat → UInt8) : Mem :=
  fun j => if p ≤ j ∧ j < p + n then src (j - p) else dst j

def bytes (mem : Mem) (p n : Nat) : List UInt8 := (List.range n).map fun k => mem (p + k)

/--
The bytes of a tag. They are in 256 pages of 4 bytes.
-/
abbrev Tag : Type := Nat → UInt8

/--
The answer to the command 0x30, which has 16 bytes.
-/
def Tag.read (tag : Tag) (address : UInt8) : Nat → UInt8 :=
  fun k => tag ((4 * address.toNat + k) % 1024)

/--
The command 0xA2, with the 4 bytes of a page.
-/
def Tag.write (tag : Tag) (address : UInt8) (data : Nat → UInt8) : Tag :=
  memcpy tag (4 * address.toNat) 4 data

-- The sizes of the headers
def tag_header_small : Nat := 2
def tag_header_large : Nat := 4
def ndef_header_small : Nat := 3
def ndef_header_large : Nat := 6

def tag2local_uint32 (tag : UInt32) : UInt32 :=
  ((tag &&& 0xFF) <<< 24) + ((tag &&& 0xFF00) <<< 8) + ((tag &&& 0xFF0000) >>> 8)
    + ((tag >>> 24) &&& 0xFF)

def local2tag_uint32 (loc : UInt32) : UInt32 := tag2local_uint32 loc

/--
A `uint32_t` in memory has its low byte first.
-/
def uint32Bytes (x : UInt32) : List UInt8 :=
  [x.toUInt8, (x >>> 8).toUInt8, (x >>> 16).toUInt8, (x >>> 24).toUInt8]

def uint32At (mem : Mem) (p : Nat) : UInt32 :=
  (mem p).toUInt32 + ((mem (p + 1)).toUInt32 <<< 8) + ((mem (p + 2)).toUInt32 <<< 16)
    + ((mem (p + 3)).toUInt32 <<< 24)

/--
What the first bytes of a tag say.
-/
structure TagHeader where
  currLen : Nat
  bytesRead : Nat
  ndefStart : Nat

def tagHeader (ndefCache : Mem) : TagHeader :=
  if ndefCache 1 = 0xFF then
    { currLen := (ndefCache 2).toNat * 256 + (ndefCache 3).toNat
      bytesRead := 16 - tag_header_large
      ndefStart := tag_header_large }
  else
    { currLen := (ndefCache 1).toNat
      bytesRead := 16 - tag_header_small
      ndefStart := tag_header_small }

/--
The number of times that 16 bytes are read.
-/
def TagHeader.num16 (header : TagHeader) : Nat :=
  let bytesToRead : Int := header.currLen - header.bytesRead
  ((bytesToRead + 15).tdiv 16 + 1).toNat

structure NdefHeader where
  uri_len : Nat
  plen : Int
  uriStart : Nat

def ndefHeader (ndefCache : Mem) (ndefStart : Nat) : NdefHeader :=
  -- sr bit set?
  if ndefCache ndefStart &&& 0x10 ≠ 0 then
    { uri_len := (ndefCache (ndefStart + 1)).toNat
      plen := (ndefCache (ndefStart + 2)).toNat
      uriStart := ndefStart + ndef_header_small }
  else
    { uri_len := (ndefCache (ndefStart + 1)).toNat
      plen := (tag2local_uint32 (uint32At ndefCache (ndefStart + 2))).toInt32.toInt
      uriStart := ndefStart + ndef_header_large }

/--
The `i`-th read and those after it, until one is not answered.
-/
def readBlocks (tag : Tag) (answered : Nat → Bool) : (n i : Nat) → (ndefCache : Mem) → Mem × Bool
  | 0, _, ndefCache => (ndefCache, true)
  | n + 1, i, ndefCache =>
    if answered i then
      readBlocks tag answered n (i + 1)
        (memcpy ndefCache (i * 16) 16 (tag.read (UInt8.ofNat (i * 4 + NDEF_OFFSET))))
    else
      (ndefCache, false)

/--
The result of `ndef_read`, with the cache and the bytes that it has put into the buffers.
-/
structure NdefRead where
  ret : Int
  ndefCache : Mem
  payload : List UInt8 := []
  uri : List UInt8 := []

/--
`answered` says which of the read commands are answered.
-/
def ndef_read (tag : Tag) (answered : Nat → Bool) (maxpayload maxuri : Nat) (ndefCache : Mem)
    : NdefRead :=
  if answered 0 then
    let ndefCache := memcpy ndefCache 0 16 (tag.read (UInt8.ofNat NDEF_OFFSET))
    if ndefCache 0 = 0x03 then
      let header := tagHeader ndefCache
      if header.currLen < NDEF_MAX_SIZE - 2 then
        match readBlocks tag answered (header.num16 - 1) 1 ndefCache with
        | (ndefCache, true) =>
          let h := ndefHeader ndefCache header.ndefStart
          let payloadStart := h.uriStart + h.uri_len
          { ret := h.plen
            ndefCache
            uri := if h.uri_len < maxuri then bytes ndefCache h.uriStart h.uri_len else []
            payload :=
              if h.plen < maxpayload then bytes ndefCache payloadStart h.plen.toNat else [] }
        | (ndefCache, false) => { ret := 0, ndefCache }
      else
        { ret := 0, ndefCache }
    else
      { ret := 0, ndefCache }
  else
    { ret := -1, ndefCache }

def ndef_hdr_size (payload_len : Nat) : Nat :=
  if 255 ≤ payload_len then ndef_header_large else ndef_header_small

def ndef_len (payload_len uri_len : Nat) : Nat := ndef_hdr_size payload_len + uri_len + payload_len

def tag_hdr_size (ndef_len : Nat) : Nat :=
  if ndef_len < 255 then tag_header_small else tag_header_large

def tagHeaderBytes (ndef_len : Nat) : List UInt8 :=
  if ndef_len < 255 then
    [0x03, UInt8.ofNat ndef_len]
  else
    [0x03, 0xFF, UInt8.ofNat (ndef_len / 256), UInt8.ofNat (ndef_len % 256)]

def ndefHeaderBytes (payload_len uri_len : Nat) : List UInt8 :=
  if payload_len < 255 then
    -- flags: mb=1, me=1, cf=0, sr=1, il=0, tnf=100
    [0xd4, UInt8.ofNat uri_len, UInt8.ofNat payload_len]
  else
    -- flags: mb=1, me=1, cf=0, sr=0, il=0, tnf=100
    [0xc4, UInt8.ofNat uri_len] ++ uint32Bytes (local2tag_uint32 (UInt32.ofNat payload_len))

/--
The message without its end-marker.
-/
def message (payload uri : List UInt8) : List UInt8 :=
  tagHeaderBytes (ndef_len payload.length uri.length)
    ++ ndefHeaderBytes payload.length uri.length ++ uri ++ payload

/--
What is behind the message is not initialized.
-/
def ndefContent (payload uri : List UInt8) (garbage : Mem) : Mem :=
  fun j => (message payload uri ++ [0xFE])[j]?.getD (garbage j)

/--
How a write command ends. If there is no answer then the page may or may not have been written.
-/
inductive WriteAnswer where
  | done
  | failed (performed : Bool)
  deriving DecidableEq

def SameBlock (ndefCache ndefContent : Mem) (i : Nat) : Prop :=
  ∀ k < 4, ndefCache (i * 4 + k) = ndefContent (i * 4 + k)

instance decidableSameBlock (ndefCache ndefContent : Mem) (i : Nat)
    : Decidable (SameBlock ndefCache ndefContent i) :=
  inferInstanceAs (Decidable (∀ k < 4, _))

/--
The blocks from the `i`-th on, until a write command fails.
-/
def writeBlocks (answer : Nat → WriteAnswer) (ndefCache ndefContent : Mem)
    : (n i : Nat) → Tag → Tag × Bool
  | 0, _, tag => (tag, true)
  | n + 1, i, tag =>
    if SameBlock ndefCache ndefContent i then
      writeBlocks answer ndefCache ndefContent n (i + 1) tag
    else
      let written := tag.write (UInt8.ofNat (i + NDEF_OFFSET)) fun k => ndefContent (i * 4 + k)
      match answer i with
      | .done => writeBlocks answer ndefCache ndefContent n (i + 1) written
      | .failed true => (written, false)
      | .failed false => (tag, false)

/--
The node is triggered by a read from the last block.
-/
def ndef_write (tag : Tag) (answer : Nat → WriteAnswer) (triggered : Bool)
    (payload uri : List UInt8) (garbage ndefCache : Mem) : Tag × Int :=
  let ndef_len := ndef_len payload.length uri.length
  let len := tag_hdr_size ndef_len + ndef_len + 1
  match writeBlocks answer ndefCache (ndefContent payload uri garbage) ((len + 3) / 4) 0 tag with
  | (tag, true) => (tag, if triggered then 1 else 0)
  | (tag, false) => (tag, 0)

end NfcDaemon
