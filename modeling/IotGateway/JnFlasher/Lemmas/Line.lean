import IotGateway.Lib.Lockstep
import IotGateway.Lib.Packed
import IotGateway.Lib.Tiles
import IotGateway.JnFlasher.Impl.Line

/-!
This module says what the host gets over the serial line: the answers of the device, whatever the
pieces are in which they arrive, and no message whose bytes have been changed so that the checksum
does not match.
-/

namespace JnFlasher

namespace Line

open BootLoader Machine

/--
The bytes of a message: the length, the type, the payload and the checksum.
-/
def frame (eType : UInt8) (payload : List UInt8) : List UInt8 :=
  let au8Msg := UInt8.ofNat (payload.length + 2) :: eType :: payload
  au8Msg ++ [checkSum au8Msg]

structure Request where
  eTxType : UInt8
  pu8Header : List UInt8
  pu8TxData : List UInt8 := []

def Request.payload (q : Request) : List UInt8 := q.pu8Header ++ q.pu8TxData

/--
What the device answers.
-/
structure Response where
  eType : UInt8
  eResponse : UInt8
  data : List UInt8 := []

def Response.frame (r : Response) : List UInt8 := Line.frame r.eType (r.eResponse :: r.data)

def Response.reply (r : Response) : Reply where
  eResponse := r.eResponse
  message := some (r.eType, r.data)

/--
The device answers each message with a message of its own, of at most 255 bytes behind the length.
-/
structure Speaks {σ : Type} (world : World σ) (answer : σ → UInt8 → List UInt8 → σ × Response)
    : Prop where
  serve : ∀ s eType payload, payload.length < 0xfe →
    world.serve s (frame eType payload)
      = ((answer s eType payload).1, (answer s eType payload).2.frame)
  length : ∀ s eType payload, (answer s eType payload).2.data.length ≤ 252

/--
The number of calls after which `missing` bytes that have arrived are read, if the loop of
`eBL_ReadMessage` does not give up before.
-/
def collect (read : Nat → Option Nat) (missing iAttempts calls : Nat) : Option Nat :=
  match read calls with
  | none => none
  | some count =>
    if missing ≤ count then
      some (calls + 1)
    else if 0 < count ∨ iAttempts + 1 < 10 then
      collect read (missing - count) (iAttempts + 1) (calls + 1)
    else
      none
  termination_by missing + (10 - iAttempts)

/--
The same for a message of `length` bytes behind its first one.
-/
def whole (read : Nat → Option Nat) (length calls : Nat) : Option Nat :=
  match read calls with
  | some (_ + 1) => collect read length 0 (calls + 1)
  | _ => none

section CheckSum

variable {xs ys : List UInt8}

theorem foldl_xor (xs : List UInt8) (sum : UInt8)
    : xs.foldl (· ^^^ ·) sum = sum ^^^ checkSum xs := by
  induction xs generalizing sum with
  | nil => exact UInt8.xor_zero.symm
  | cons x xs ih =>
    rw [checkSum, List.foldl_cons, List.foldl_cons, ih, ih, UInt8.zero_xor, UInt8.xor_assoc]

@[simp]
theorem checkSum_cons (x : UInt8) (xs : List UInt8) : checkSum (x :: xs) = x ^^^ checkSum xs := by
  rw [checkSum, List.foldl_cons, foldl_xor, UInt8.zero_xor]

@[simp]
theorem checkSum_append (xs ys : List UInt8)
    : checkSum (xs ++ ys) = checkSum xs ^^^ checkSum ys := by
  rw [checkSum, List.foldl_append, foldl_xor]
  rfl

theorem checkSum_zipWith (h : xs.length = ys.length)
    : checkSum (List.zipWith (· ^^^ ·) xs ys) = checkSum xs ^^^ checkSum ys := by
  induction xs generalizing ys with
  | nil =>
    rw [List.length_eq_zero_iff.mp h.symm]
    rfl
  | cons x xs ih =>
    cases ys with
    | nil => cases h
    | cons y ys =>
      rw [List.zipWith_cons_cons, checkSum_cons, checkSum_cons, checkSum_cons, ih (Nat.succ.inj h)]
      ac_rfl

/--
The checksum makes the exclusive or of the whole message zero.
-/
@[simp]
theorem checkSum_frame (eType : UInt8) (payload : List UInt8)
    : checkSum (frame eType payload) = 0 := by
  have hone (x : UInt8) : checkSum [x] = x := UInt8.zero_xor
  rw [frame, checkSum_append, hone, UInt8.xor_self]

end CheckSum

section Read

variable {σ : Type} {world : World σ} {n missing iAttempts calls : Nat} {au8Msg : List UInt8}

theorem eUART_Read_some {s : State σ} {count : Nat} (hread : world.read s.calls = some count)
    (iBufferLen : Nat)
    : eUART_Read world iBufferLen s
      = (some (s.received.take (min count iBufferLen)),
          { s with received := s.received.drop (min count iBufferLen), calls := s.calls + 1 }) := by
  unfold eUART_Read
  rw [hread]

theorem eUART_Read_none {s : State σ} (hread : world.read s.calls = none) (iBufferLen : Nat)
    : eUART_Read world iBufferLen s = (none, { s with calls := s.calls + 1 }) := by
  unfold eUART_Read
  rw [hread]

variable (world iAttempts au8Msg) in
/--
What the loop reads if the bytes have arrived: all of them, or it is not complete.
-/
theorem readRest_eq {s : State σ} (hmissing : au8Msg.length + missing = n) (hpos : 0 < missing)
    (harrived : missing ≤ s.received.length)
    : match collect world.read missing iAttempts s.calls with
      | some calls =>
        readRest world n iAttempts au8Msg s
          = (some (au8Msg ++ s.received.take missing),
              { s with received := s.received.drop missing, calls })
      | none =>
        ∀ found, (readRest world n iAttempts au8Msg s).1 = some found → found.length ≠ n := by
  have hsub : n - au8Msg.length = missing := by omega
  generalize hcalls : s.calls = calls
  fun_induction collect world.read missing iAttempts calls generalizing s au8Msg with
  | case1 missing iAttempts calls hread =>
    subst hcalls
    intro found h
    rw [readRest, hsub, eUART_Read_none hread] at h
    cases h
  | case2 missing iAttempts calls count hread hle =>
    subst hcalls
    rw [readRest, hsub, eUART_Read_some hread, Nat.min_eq_right hle]
    have hwhole : ¬(au8Msg ++ s.received.take missing).length < n := by
      rw [List.length_append, List.length_take, Nat.min_eq_left harrived]
      omega
    simp only [hwhole, false_and, if_false]
  | case3 missing iAttempts calls count hread hlt hagain ih =>
    subst hcalls
    have hmin : min count missing = count := Nat.min_eq_left (by omega)
    have hfound : (s.received.take count).length = count := by
      rw [List.length_take]
      omega
    have hnext : (au8Msg ++ s.received.take count).length < n
        ∧ (0 < (s.received.take count).length ∨ iAttempts + 1 < 10) := by
      rw [List.length_append, hfound]
      exact ⟨by omega, hagain⟩
    have hstep : readRest world n iAttempts au8Msg s
        = readRest world n (iAttempts + 1) (au8Msg ++ s.received.take count)
            { s with received := s.received.drop count, calls := s.calls + 1 } := by
      rw [readRest, hsub, eUART_Read_some hread, hmin]
      simp only [hnext, true_and, if_true]
    have hcount : (au8Msg ++ s.received.take count).length + (missing - count) = n := by
      rw [List.length_append, hfound]
      omega
    have hrest := ih (au8Msg ++ s.received.take count)
      (s := { s with received := s.received.drop count, calls := s.calls + 1 }) hcount
      (by omega) (by rw [List.length_drop]; omega) (by rw [List.length_append, hfound]; omega) rfl
    have htake : s.received.take count ++ (s.received.drop count).take (missing - count)
        = s.received.take missing := by
      rw [← List.take_add, Nat.add_sub_cancel' (by omega)]
    rw [hstep]
    split
    . next calls' hcollect =>
      rw [hcollect] at hrest
      simp only at hrest
      rw [hrest, List.append_assoc, htake, List.drop_drop, Nat.add_sub_cancel' (by omega)]
    . next hcollect =>
      rw [hcollect] at hrest
      exact hrest
  | case4 missing iAttempts calls count hread hlt hstop =>
    subst hcalls
    intro found h
    have hmin : min count missing = count := Nat.min_eq_left (by omega)
    have hfound : (s.received.take count).length = count := by
      rw [List.length_take]
      omega
    rw [readRest, hsub, eUART_Read_some hread, hmin] at h
    simp only [hfound, hstop, and_false, if_false, Option.some.injEq] at h
    rw [← h, List.length_append, hfound]
    omega

/--
The calls of `eBL_ReadMessage`, one after the other.
-/
theorem readMessage_run (s : State σ)
    : eBL_ReadMessage world s
      = match eUART_Read world 1 s with
        | (some [u8Length], s) =>
          if u8Length < 3 then
            ({ eResponse := E_BL_RESPONSE_NO_RESPONSE }, s)
          else
            match readRest world u8Length.toNat 0 [] s with
            | (none, s) => ({ eResponse := E_BL_RESPONSE_NO_RESPONSE }, s)
            | (some au8Msg, s) => (checkMessage u8Length au8Msg, s)
        | (_, s) => ({ eResponse := E_BL_RESPONSE_NO_RESPONSE }, s) := by
  unfold eBL_ReadMessage
  simp only [bind, StateT.bind]
  rcases eUART_Read world 1 s with ⟨_ | _ | ⟨u8Length, _ | _⟩, s⟩
  . rfl
  . rfl
  . simp only
    split
    . rfl
    . simp only [StateT.bind]
      rcases readRest world u8Length.toNat 0 [] s with ⟨_ | _, _⟩
      . rfl
      . rfl
  . rfl

variable (world) in
/--
A message that has arrived is checked, or there is no response.
-/
theorem readMessage_eq {s : State σ} {u8Length : UInt8} {arrived : List UInt8}
    (hthree : 3 ≤ u8Length) (hreceived : s.received = u8Length :: arrived)
    (harrived : u8Length.toNat ≤ arrived.length)
    : match whole world.read u8Length.toNat s.calls with
      | some calls =>
        eBL_ReadMessage world s
          = (checkMessage u8Length (arrived.take u8Length.toNat),
              { s with received := arrived.drop u8Length.toNat, calls })
      | none => (eBL_ReadMessage world s).1 = { eResponse := E_BL_RESPONSE_NO_RESPONSE } := by
  have hshort : ¬u8Length < 3 := UInt8.not_lt.mpr hthree
  have hpos : 0 < u8Length.toNat :=
    Nat.lt_of_lt_of_le (Nat.zero_lt_succ 2) (UInt8.le_iff_toNat_le.mp hthree)
  have hrest := readRest_eq world 0 [] (s := { s with received := arrived, calls := s.calls + 1 })
    (Nat.zero_add _) hpos harrived
  rw [readMessage_run, whole]
  rcases hread : world.read s.calls with _ | _ | count
  . rw [eUART_Read_none hread]
  . rw [eUART_Read_some hread, Nat.zero_min, List.take_zero]
  . rw [eUART_Read_some hread, hreceived, Nat.min_eq_right (Nat.le_add_left 1 count)]
    simp only [List.take_succ_cons, List.take_zero, List.drop_succ_cons, List.drop_zero, hshort,
      if_false]
    split
    . next calls hcollect =>
      rw [hcollect] at hrest
      simp only at hrest
      rw [hrest, List.nil_append]
    . next hcollect =>
      rw [hcollect] at hrest
      simp only at hrest
      split
      . rfl
      . next au8Msg s' heq =>
        rw [heq] at hrest
        rw [checkMessage, if_pos (hrest au8Msg rfl)]

/--
What the calls from one on find, as `BootLoader.Env` gives it.
-/
def pieces (read : Nat → Option Nat) : (received : List UInt8) → (calls : Nat) → Nat
    → Option (List UInt8)
  | received, calls, 0 => (read calls).map received.take
  | received, calls, i + 1 => pieces read (received.drop ((read calls).getD 0)) (calls + 1) i

def State.env (world : World σ) (s : State σ) : BootLoader.Env where
  write _ := true
  read
    | 0 => (world.read s.calls).map fun count => s.received.take (min count 1)
    | i + 1 =>
      pieces world.read (s.received.drop (min ((world.read s.calls).getD 0) 1)) (s.calls + 1) i

theorem readRest_env (env : BootLoader.Env) {s : State σ}
    (henv : ∀ i, env.read (iAttempts + 1 + i) = pieces world.read s.received s.calls i)
    : BootLoader.readRest env n iAttempts au8Msg = (readRest world n iAttempts au8Msg s).1 := by
  fun_induction BootLoader.readRest env n iAttempts au8Msg generalizing s with
  | case1 iAttempts au8Msg hread =>
    have hfirst := (henv 0).symm.trans hread
    rw [pieces, Option.map_eq_none_iff] at hfirst
    rw [readRest, eUART_Read_none hfirst]
  | case2 iAttempts au8Msg found hread bytes hnext =>
    rename_i ih
    have hfirst := (henv 0).symm.trans hread
    rw [pieces, Option.map_eq_some_iff] at hfirst
    obtain ⟨count, hcount, rfl⟩ := hfirst
    have hbytes : s.received.take (min count (n - au8Msg.length)) = bytes := by
      rw [Nat.min_comm, ← List.take_take]
    have hdrop : s.received.drop (min count (n - au8Msg.length)) = s.received.drop count := by
      have hlength := hnext.1
      rw [← hbytes, List.length_append, List.length_take] at hlength
      rcases Nat.le_total count (n - au8Msg.length) with hle | hle
      . rw [Nat.min_eq_left hle]
      . rw [List.drop_eq_nil_of_le (by omega), List.drop_eq_nil_of_le (by omega)]
    rw [readRest, eUART_Read_some hcount, hbytes]
    simp only
    rw [if_pos hnext]
    apply ih
    intro i
    rw [show iAttempts + 1 + 1 + i = iAttempts + 1 + (i + 1) by omega, henv (i + 1), pieces, hcount,
      Option.getD_some, hdrop]
  | case3 iAttempts au8Msg found hread bytes =>
    rename_i hstop
    have hfirst := (henv 0).symm.trans hread
    rw [pieces, Option.map_eq_some_iff] at hfirst
    obtain ⟨count, hcount, rfl⟩ := hfirst
    have hbytes : s.received.take (min count (n - au8Msg.length)) = bytes := by
      rw [Nat.min_comm, ← List.take_take]
    rw [readRest, eUART_Read_some hcount, hbytes]
    simp only
    rw [if_neg hstop]

/--
What is accepted over the line is what is accepted from these calls.
-/
theorem readMessage_env (s : State σ)
    : BootLoader.eBL_ReadMessage (s.env world) = (eBL_ReadMessage world s).1 := by
  have htake (count : Nat)
      : (s.received.take (min count 1)).take 1 = s.received.take (min count 1) := by
    apply List.take_of_length_le
    rw [List.length_take]
    omega
  rw [readMessage_run]
  unfold BootLoader.eBL_ReadMessage
  rcases hread : world.read s.calls with _ | count
  . rw [eUART_Read_none hread]
    simp only [State.env, hread, Option.map_none]
  . rw [eUART_Read_some hread]
    have hfirst : (s.env world).read 0 = some (s.received.take (min count 1)) := by
      simp only [State.env, hread, Option.map_some]
    rw [hfirst, Option.map_some, htake]
    rcases htaken : s.received.take (min count 1) with _ | ⟨u8Length, _ | ⟨_, _⟩⟩
    . rfl
    . simp only
      split
      . rfl
      . rw [readRest_env (s.env world)
          (s := { s with received := s.received.drop (min count 1), calls := s.calls + 1 })]
        . rcases readRest world u8Length.toNat 0 [] _ with ⟨_ | _, _⟩
          . rfl
          . rfl
        . intro i
          rw [Nat.zero_add, Nat.add_comm]
          simp only [State.env, hread, Option.getD_some]
    . rfl

end Read

section Session

variable {σ : Type} {world : World σ} {answer : σ → UInt8 → List UInt8 → σ × Response}

/--
A message that is not too long is written as a frame.
-/
theorem writeMessage_eq (eType : UInt8) {pu8Header pu8Data : List UInt8}
    (hfits : (pu8Header ++ pu8Data).length < 0xfe)
    : eBL_WriteMessage world eType pu8Header pu8Data
      = eUART_Write world (frame eType (pu8Header ++ pu8Data)) := by
  rw [List.length_append] at hfits
  have hlong : ¬pu8Header.length + pu8Data.length ≥ 0xfe := Nat.not_le.mpr hfits
  rw [eBL_WriteMessage, if_neg hlong, frame, List.length_append]

/--
A frame that is read whole is the message of the device.
-/
theorem checkMessage_frame (r : Response) (hlength : r.data.length ≤ 252)
    : ∃ u8Length au8Msg, r.frame = u8Length :: au8Msg ∧ 3 ≤ u8Length
        ∧ u8Length.toNat = r.data.length + 3 ∧ au8Msg.length = r.data.length + 3
        ∧ checkMessage u8Length au8Msg = r.reply := by
  have hsum := checkSum_frame r.eType (r.eResponse :: r.data)
  have hcount : (UInt8.ofNat ((r.eResponse :: r.data).length + 2)).toNat = r.data.length + 3 := by
    rw [List.length_cons, UInt8.toNat_ofNat']
    omega
  rw [frame] at hsum
  rw [Response.frame, frame]
  generalize UInt8.ofNat ((r.eResponse :: r.data).length + 2) = u8Length at hsum hcount ⊢
  have hthree : 3 ≤ u8Length := by
    rw [UInt8.le_iff_toNat_le, hcount]
    exact Nat.le_add_left 3 _
  refine ⟨u8Length, _, rfl, hthree, hcount, by simp, ?_⟩
  . have hdata : (u8Length - 3).toNat = r.data.length := by
      rw [UInt8.toNat_sub_of_le _ _ hthree, hcount]
      rfl
    rw [checkMessage, if_neg, if_neg, hdata]
    . simp [Response.reply]
    . exact not_not.mpr hsum
    . rw [hcount]
      simp

def Request.Fits (q : Request) : Prop := q.payload.length < 0xfe

/--
One request and its reply.
-/
def exchange (world : World σ) (s : State σ) (q : Request) : State σ × List Reply :=
  let (reply, s) := eBL_Request world q.eTxType q.pu8Header q.pu8TxData s
  (s, [reply])

/--
The same without the line.
-/
def asked (answer : σ → UInt8 → List UInt8 → σ × Response) (device : σ) (q : Request)
    : σ × List Reply :=
  let (device, response) := answer device q.eTxType q.payload
  (device, [response.reply])

/--
The request is written, and the answer is there before the host gives up.
-/
def inTime (world : World σ) (answer : σ → UInt8 → List UInt8 → σ × Response) (s : State σ)
    (q : Request) : Bool :=
  (world.writeFails s.calls).isNone
    && (whole world.read ((answer s.device q.eTxType q.payload).2.data.length + 3)
      (s.calls + 1)).isSome

/--
There is no message, but an error.
-/
def NoReply (replies : List Reply) : Prop :=
  replies = [{ eResponse := E_BL_RESPONSE_NO_RESPONSE }]
    ∨ replies = [{ eResponse := E_BL_RESPONSE_ERROR }]

/--
Everything that this device has sent has been read.
-/
def AtRest (s : State σ) (device : σ) : Prop := s.device = device ∧ s.received = []

theorem request_eq {q : Request} (hfits : q.Fits) (s : State σ)
    : eBL_Request world q.eTxType q.pu8Header q.pu8TxData s
      = match eUART_Write world (frame q.eTxType q.payload) s with
        | (true, s) => eBL_ReadMessage world s
        | (false, s) => ({ eResponse := E_BL_RESPONSE_ERROR }, s) := by
  have hlong : ¬q.pu8TxData.length > 0xfd := by
    rw [Request.Fits, Request.payload, List.length_append] at hfits
    omega
  rw [eBL_Request, if_neg hlong, writeMessage_eq _ hfits]
  simp only [bind, StateT.bind, Request.payload]
  rcases eUART_Write world (frame q.eTxType (q.pu8Header ++ q.pu8TxData)) s with ⟨_ | _, _⟩
  . rfl
  . rfl

theorem write_eq (hspeaks : Speaks world answer) {s : State σ}
    (hwrite : world.writeFails s.calls = none) (hreceived : s.received = []) (eType : UInt8)
    {payload : List UInt8} (hfits : payload.length < 0xfe)
    : eUART_Write world (frame eType payload) s
      = (true, { device := (answer s.device eType payload).1
                 received := (answer s.device eType payload).2.frame
                 calls := s.calls + 1 }) := by
  unfold eUART_Write
  simp only [hwrite, hspeaks.serve s.device eType payload hfits, hreceived, List.nil_append,
    Option.isNone_none]

theorem exchange_inTime (hspeaks : Speaks world answer) {s : State σ} {q : Request} (hfits : q.Fits)
    (hreceived : s.received = []) (hgood : inTime world answer s q)
    : (exchange world s q).2 = (asked answer s.device q).2
      ∧ AtRest (exchange world s q).1 (asked answer s.device q).1 := by
  simp only [inTime, Bool.and_eq_true, Option.isNone_iff_eq_none, Option.isSome_iff_exists] at hgood
  obtain ⟨hwrite, calls, hwhole⟩ := hgood
  obtain ⟨u8Length, au8Msg, hframe, hthree, hcount, hlength, hcheck⟩ :=
    checkMessage_frame (answer s.device q.eTxType q.payload).2 (hspeaks.length _ _ _)
  have hread := readMessage_eq world
    (s := { device := (answer s.device q.eTxType q.payload).1
            received := (answer s.device q.eTxType q.payload).2.frame
            calls := s.calls + 1 })
    hthree hframe (Nat.le_of_eq (hcount.trans hlength.symm))
  rw [hcount, hwhole] at hread
  simp only at hread
  rw [← hlength, List.take_length, List.drop_length, hcheck] at hread
  have hrun : eBL_Request world q.eTxType q.pu8Header q.pu8TxData s
      = ((answer s.device q.eTxType q.payload).2.reply,
          { device := (answer s.device q.eTxType q.payload).1, received := [], calls }) := by
    rw [request_eq hfits, write_eq hspeaks hwrite hreceived _ hfits]
    exact hread
  unfold exchange asked
  rw [hrun]
  exact ⟨rfl, rfl, rfl⟩

theorem exchange_late (hspeaks : Speaks world answer) {s : State σ} {q : Request} (hfits : q.Fits)
    (hreceived : s.received = []) (hbad : ¬inTime world answer s q)
    : NoReply (exchange world s q).2 := by
  unfold exchange
  rw [request_eq hfits]
  rcases hwrite : world.writeFails s.calls with _ | count
  . rw [write_eq hspeaks hwrite hreceived _ hfits]
    simp only [inTime, hwrite, Option.isNone_none, Bool.true_and, Bool.not_eq_true,
      Option.isSome_eq_false_iff, Option.isNone_iff_eq_none] at hbad
    obtain ⟨u8Length, au8Msg, hframe, hthree, hcount, hlength, -⟩ :=
      checkMessage_frame (answer s.device q.eTxType q.payload).2 (hspeaks.length _ _ _)
    have hread := readMessage_eq world
      (s := { device := (answer s.device q.eTxType q.payload).1
              received := (answer s.device q.eTxType q.payload).2.frame
              calls := s.calls + 1 })
      hthree hframe (Nat.le_of_eq (hcount.trans hlength.symm))
    rw [hcount, hbad] at hread
    left
    exact congrArg (fun reply => [reply]) hread
  . right
    unfold eUART_Write
    simp only [hwrite, Option.isNone_some]

/--
Over the line the host gets what the device answers, up to the first request that cannot be written
or is not answered in time. For that one it gets an error.
-/
theorem session_replies (world : World σ) (answer : σ → UInt8 → List UInt8 → σ × Response)
    (hspeaks : Speaks world answer) (requests : List Request) (hfits : ∀ q ∈ requests, q.Fits)
    (device : σ) (calls : Nat)
    : ∃ rest,
        trace (exchange world) { device, calls } requests
          = trace (asked answer) device
              (agreed (exchange world) (inTime world answer) { device, calls } requests) ++ rest
        ∧ (agreed (exchange world) (inTime world answer) { device, calls } requests = requests
            ∧ rest = []
            ∧ AtRest (exec (exchange world) { device, calls } requests)
                (exec (asked answer) device requests)
          ∨ ∃ failed rest', rest = failed ++ rest' ∧ NoReply failed) := by
  obtain ⟨rest, htrace, hexec, hrest⟩ := trace_lockstep (exchange world) (asked answer) (inTime world answer)
    (s := { device, calls }) (t := device) AtRest NoReply Request.Fits
    (fun s t q hR hq hgood => by
      obtain ⟨rfl, hreceived⟩ := hR
      exact exchange_inTime hspeaks hq hreceived hgood)
    (fun s t q hR hq hbad => exchange_late hspeaks hq hR.2 hbad) ⟨rfl, rfl⟩ hfits
  refine ⟨rest, htrace, hrest.imp_left fun h => ⟨h.1, h.2, ?_⟩⟩
  rw [h.1] at hexec
  exact hexec

/--
An address as the device reads it.
-/
def addressOf (payload : List UInt8) : Nat := Packed.host (payload.take 4)

/--
A device with a flash in which bits can only be cleared. It does not know any other request.
-/
def chip (flash : Nat → UInt8) (eType : UInt8) (payload : List UInt8) : (Nat → UInt8) × Response :=
  if eType = E_BL_MSG_TYPE_FLASH_ERASE_REQUEST then
    (fun _ => 0xFF, { eType := E_BL_MSG_TYPE_FLASH_ERASE_RESPONSE, eResponse := E_BL_RESPONSE_OK })
  else if eType = E_BL_MSG_TYPE_FLASH_PROGRAM_REQUEST then
    (fun x => Tiles.put (fun _ => 0xFF) (addressOf payload) (payload.drop 4) x &&& flash x,
      { eType := E_BL_MSG_TYPE_FLASH_PROGRAM_RESPONSE, eResponse := E_BL_RESPONSE_OK })
  else if eType = E_BL_MSG_TYPE_FLASH_READ_REQUEST then
    (flash,
      { eType := E_BL_MSG_TYPE_FLASH_READ_RESPONSE, eResponse := E_BL_RESPONSE_OK
        data := (List.range (min 252 (payload.getD 4 0).toNat)).map fun i =>
          flash (addressOf payload + i) })
  else
    (flash, { eType := eType + 1, eResponse := E_BL_RESPONSE_NOT_SUPPORTED })

/--
The first answer arrives in small pieces with pauses between them.
-/
def chipWorld : World (Nat → UInt8) where
  serve flash bytes :=
    match bytes with
    | _ :: eType :: rest =>
      let (flash, response) := chip flash eType rest.dropLast
      (flash, response.frame)
    | _ => (flash, [])
  read calls := some (([0, 1, 0, 2, 0, 1] : List Nat).getD calls 100)
  writeFails _ := none

theorem chipWorld_speaks : Speaks chipWorld chip := by
  constructor
  . intro flash eType payload _
    simp [chipWorld, frame]
  . intro flash eType payload
    unfold chip
    split
    . exact Nat.zero_le _
    . split
      . exact Nat.zero_le _
      . split
        . rw [List.length_map, List.length_range]
          exact Nat.min_le_left _ _
        . exact Nat.zero_le _

/--
The flash is erased, written and read.
-/
def chipRequests : List Request :=
  [{ eTxType := E_BL_MSG_TYPE_FLASH_ERASE_REQUEST, pu8Header := [] },
    { eTxType := E_BL_MSG_TYPE_FLASH_PROGRAM_REQUEST, pu8Header := littleEndian 16
      pu8TxData := [1, 2, 3] },
    { eTxType := E_BL_MSG_TYPE_FLASH_READ_REQUEST, pu8Header := readCommand 15 4 }]

def chipState : State (Nat → UInt8) where
  device := fun _ => 0

theorem session_replies_chip
    : ∃ rest,
        trace (exchange chipWorld) chipState chipRequests
          = trace (asked chip) chipState.device
              (agreed (exchange chipWorld) (inTime chipWorld chip) chipState
                chipRequests) ++ rest
        ∧ (agreed (exchange chipWorld) (inTime chipWorld chip) chipState
              chipRequests = chipRequests
            ∧ rest = []
            ∧ AtRest (exec (exchange chipWorld) chipState chipRequests)
                (exec (asked chip) chipState.device chipRequests)
          ∨ ∃ failed rest', rest = failed ++ rest' ∧ NoReply failed) := by
  apply session_replies chipWorld chip chipWorld_speaks
  intro q hq
  rw [chipRequests] at hq
  simp only [List.mem_cons, List.not_mem_nil, or_false] at hq
  rcases hq with rfl | rfl | rfl
  . exact Nat.zero_lt_succ _
  . exact Nat.lt_of_sub_eq_succ rfl
  . exact Nat.lt_of_sub_eq_succ rfl

end Session

section Errors

variable {σ : Type}

/--
What arrives of a message if these bits change behind its length.
-/
def garbled (r : Response) (errors : List UInt8) : List UInt8 :=
  r.frame.take 1 ++ List.zipWith (· ^^^ ·) (r.frame.drop 1) errors

theorem checkSum_oneByte (n i : Nat) (hi : i < n) (error : UInt8)
    : checkSum ((List.replicate n 0).set i error) = error := by
  induction n generalizing i with
  | zero => cases hi
  | succ n ih =>
    rw [List.replicate_succ]
    cases i with
    | zero =>
      have hzero : checkSum (List.replicate n 0) = 0 := by
        clear ih hi
        induction n with
        | zero => rfl
        | succ n ih => rw [List.replicate_succ, checkSum_cons, ih, UInt8.xor_zero]
      rw [List.set_cons_zero, checkSum_cons, hzero, UInt8.xor_zero]
    | succ i =>
      rw [List.set_cons_succ, checkSum_cons, ih i (Nat.lt_of_succ_lt_succ hi), UInt8.zero_xor]

/--
A message whose bytes have been changed behind its length is accepted if and only if the changes
cancel each other out. So a change of one byte is always seen.
-/
theorem garbled_accepted_iff (world : World σ) (r : Response) (hlength : r.data.length ≤ 252)
    (s : State σ) (hintime : (whole world.read (r.data.length + 3) s.calls).isSome)
    : (∀ errors, errors.length = r.data.length + 3 → s.received = garbled r errors →
        ((eBL_ReadMessage world s).1.message.isSome ↔ checkSum errors = 0)
          ∧ (checkSum errors ≠ 0 →
            (eBL_ReadMessage world s).1 = { eResponse := E_BL_RESPONSE_CRC_ERROR }))
      ∧ ∀ i < r.data.length + 3, ∀ error ≠ 0,
        s.received = garbled r ((List.replicate (r.data.length + 3) 0).set i error) →
          (eBL_ReadMessage world s).1 = { eResponse := E_BL_RESPONSE_CRC_ERROR } := by
  have hall : ∀ errors, errors.length = r.data.length + 3 → s.received = garbled r errors →
      ((eBL_ReadMessage world s).1.message.isSome ↔ checkSum errors = 0)
        ∧ (checkSum errors ≠ 0 →
          (eBL_ReadMessage world s).1 = { eResponse := E_BL_RESPONSE_CRC_ERROR }) := by
    intro errors herrors hreceived
    obtain ⟨u8Length, au8Msg, hframe, hthree, hcount, hmsg, -⟩ := checkMessage_frame r hlength
    obtain ⟨calls, hwhole⟩ := Option.isSome_iff_exists.mp hintime
    have hsum := checkSum_frame r.eType (r.eResponse :: r.data)
    rw [← Response.frame, hframe, checkSum_cons] at hsum
    rw [garbled, hframe, List.take_succ_cons, List.take_zero, List.drop_succ_cons, List.drop_zero,
      List.singleton_append] at hreceived
    have harrived : (List.zipWith (· ^^^ ·) au8Msg errors).length = u8Length.toNat := by
      rw [List.length_zipWith, hmsg, herrors, Nat.min_self, hcount]
    have hread := readMessage_eq world hthree hreceived (Nat.le_of_eq harrived.symm)
    rw [hcount, hwhole] at hread
    simp only at hread
    rw [← hcount, ← harrived, List.take_length] at hread
    have hchanged : checkSum (u8Length :: List.zipWith (· ^^^ ·) au8Msg errors)
        = checkSum errors := by
      rw [checkSum_cons, checkSum_zipWith (hmsg.trans herrors.symm), ← UInt8.xor_assoc, hsum,
        UInt8.zero_xor]
    rw [hread, checkMessage, if_neg (not_not.mpr harrived), hchanged]
    by_cases hzero : checkSum errors = 0
    . simp [hzero]
    . simp [hzero]
  refine ⟨hall, fun i hi error herror hreceived => ?_⟩
  have hlengths : ((List.replicate (r.data.length + 3) 0).set i error).length
      = r.data.length + 3 := by
    rw [List.length_set, List.length_replicate]
  apply (hall _ hlengths hreceived).2
  rw [checkSum_oneByte _ _ hi]
  exact herror

/--
One byte of the data has changed.
-/
theorem garbled_accepted_iff_chip
    : let r : Response := { eType := 0x0c, eResponse := 0, data := [1, 2] }
      let s : State (Nat → UInt8) := 
        { chipState with received := garbled r [0, 0, 0, 4, 0], calls := 1 }
      (∀ errors, errors.length = r.data.length + 3 → s.received = garbled r errors →
        ((eBL_ReadMessage chipWorld s).1.message.isSome ↔ checkSum errors = 0)
          ∧ (checkSum errors ≠ 0 →
            (eBL_ReadMessage chipWorld s).1 = { eResponse := E_BL_RESPONSE_CRC_ERROR }))
      ∧ ∀ i < r.data.length + 3, ∀ error ≠ 0,
        s.received = garbled r ((List.replicate (r.data.length + 3) 0).set i error) →
          (eBL_ReadMessage chipWorld s).1
            = { eResponse := E_BL_RESPONSE_CRC_ERROR } := by
  intro r s
  apply garbled_accepted_iff chipWorld r
  . decide
  . decide +kernel

end Errors

end Line

end JnFlasher
