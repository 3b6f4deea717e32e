import IotGateway.SerialLink.Lemmas.ReaderThread

/-!
This module says when a read timeout is harmless. The statics of `eSL_ReadMessage` survive it and
the caller's buffer does not, so it is harmless where the buffer holds nothing that is still needed.
-/

namespace SerialLink

open Machine

def Output.isDeliver : Output → Bool
  | .store _ => false
  | .deliver .. => true

/--
The messages handed on, in order.
-/
def deliveries (t : Thread) (es : List RxEvent) : List Output :=
  (trace threadStep t es).filter Output.isDeliver

/--
Nothing of what a timeout wipes is used later.
-/
def Harmless (t : Thread) : Prop :=
  (∀ i < SL_MAX_MESSAGE_LENGTH.toNat, t.msg.au8Message i = 0)
    ∧ SL_MAX_MESSAGE_LENGTH < t.msg.u16Length
    ∧ match t.dec.eRxState with
      | .waitStart | .waitTypeMsb => True
      | .waitTypeLsb | .waitLenMsb => t.msg.u16Type = 0
      | .waitLenLsb | .waitCrc | .waitData => False

def TimeoutsHarmless (es : List RxEvent) : Prop :=
  Along threadStep (fun t e => e = .timeout → Harmless t) threadStart es

/--
Two threads that differ at most in fields of `sMessage` that are written before they are read.
-/
structure Alike (t t' : Thread) : Prop where
  dec_eq : t'.dec = t.dec
  buf_eq : ∀ i < SL_MAX_MESSAGE_LENGTH.toNat, t'.msg.au8Message i = t.msg.au8Message i
  fields :
    (t'.msg.u16Type = t.msg.u16Type ∧ t'.msg.u16Length = t.msg.u16Length)
      ∨ (SL_MAX_MESSAGE_LENGTH < t.msg.u16Length ∧ SL_MAX_MESSAGE_LENGTH < t'.msg.u16Length
          ∧ match t.dec.eRxState with
            | .waitStart | .waitTypeMsb => True
            | .waitTypeLsb | .waitLenMsb => t'.msg.u16Type = t.msg.u16Type
            | .waitLenLsb | .waitCrc | .waitData => False)

theorem Alike.refl (t : Thread) : Alike t t := ⟨rfl, fun _ _ => rfl, Or.inl ⟨rfl, rfl⟩⟩

theorem calculateCRC_congr {u16Type u16Length : UInt16} {buf buf' : Nat → UInt8}
    (h : ∀ i < u16Length.toNat, buf' i = buf i)
    : calculateCRC u16Type u16Length buf' = calculateCRC u16Type u16Length buf := by
  rw [calculateCRC_eq_xorAll, calculateCRC_eq_xorAll]
  have : (List.range u16Length.toNat).map buf' = (List.range u16Length.toNat).map buf := by
    apply List.map_congr_left
    intro i hi
    exact h i (List.mem_range.mp hi)
  rw [this]

theorem update_eq_of_eq {buf buf' : Nat → UInt8} {n : Nat} (h : ∀ i < n, buf' i = buf i) (k : Nat)
    (b : UInt8)
    : ∀ i < n, Function.update buf' k b i = Function.update buf k b i := by
  intro i hi
  by_cases hik : i = k
  . subst hik
    simp
  . rw [Function.update_of_ne hik, Function.update_of_ne hik, h i hi]

theorem alike_receiveData {t t' : Thread} (h : Alike t t') (b : UInt8)
    : Alike (receiveData SL_MAX_MESSAGE_LENGTH t b) (receiveData SL_MAX_MESSAGE_LENGTH t' b) := by
  obtain ⟨d, m⟩ := t
  obtain ⟨d', m'⟩ := t'
  obtain ⟨hdec, hbuf, hfields⟩ := h
  dsimp only at hdec hbuf hfields
  subst hdec
  cases hst : d'.eRxState with
  | waitStart | waitTypeMsb | waitTypeLsb | waitLenMsb =>
    simp only [receiveData, readData, hst] at hfields ⊢
    refine ⟨rfl, hbuf, ?_⟩
    simp only [hst]
    rcases hfields with ⟨hty, hlen⟩ | ⟨hlen, hlen', hty⟩
    . simp [hty, hlen]
    . simp [hlen, hlen', hty]
  | waitCrc =>
    simp only [receiveData, readData, hst] at hfields ⊢
    refine ⟨rfl, hbuf, ?_⟩
    simpa using hfields
  | waitLenLsb =>
    simp only [hst, and_false, or_false] at hfields
    obtain ⟨hty, hlen⟩ := hfields
    simp only [receiveData, readData, hst, hlen]
    by_cases hgt : SL_MAX_MESSAGE_LENGTH < m.u16Length + b.toUInt16
    . simp only [hgt, ↓reduceIte]
      exact ⟨rfl, hbuf, Or.inl ⟨hty, rfl⟩⟩
    . simp only [hgt, ↓reduceIte]
      exact ⟨rfl, hbuf, Or.inl ⟨hty, rfl⟩⟩
  | waitData =>
    simp only [hst, and_false, or_false] at hfields
    obtain ⟨hty, hlen⟩ := hfields
    simp only [receiveData, readData, hst, hlen]
    by_cases hlt : d'.u16Bytes < m.u16Length
    . simp only [hlt, ↓reduceIte]
      exact ⟨rfl, update_eq_of_eq hbuf _ _, Or.inl ⟨hty, rfl⟩⟩
    . simp only [hlt, ↓reduceIte]
      exact ⟨rfl, hbuf, Or.inl ⟨hty, hlen⟩⟩

theorem alike_withEsc {t t' : Thread} (h : Alike t t') (bInEsc : Bool)
    : Alike (t.withEsc bInEsc) (t'.withEsc bInEsc) := by
  obtain ⟨hdec, hbuf, hfields⟩ := h
  refine ⟨?_, hbuf, hfields⟩
  simp only [Thread.withEsc, hdec]

/--
The end character completes a message in both threads or in neither, and then the same one.
-/
theorem alike_end {t t' : Thread} (h : Alike t t')
    : (threadStep t' (.byte SL_END_CHAR)).2 = (threadStep t (.byte SL_END_CHAR)).2
        ∧ Alike (threadStep t (.byte SL_END_CHAR)).1 (threadStep t' (.byte SL_END_CHAR)).1 := by
  obtain ⟨d, m⟩ := t
  obtain ⟨d', m'⟩ := t'
  obtain ⟨hdec, hbuf, hfields⟩ := h
  dsimp only at hdec hbuf hfields
  subst hdec
  rcases hfields with ⟨hty, hlen⟩ | ⟨hlen, hlen', hty⟩
  . by_cases hgt : SL_MAX_MESSAGE_LENGTH < m.u16Length
    . simp only [threadStep, readByte_end, hlen, hgt, ↓reduceIte, Bool.false_eq_true, true_and]
      exact ⟨rfl, hbuf, Or.inl ⟨hty, hlen⟩⟩
    . have hpre : ∀ i < m.u16Length.toNat, m'.au8Message i = m.au8Message i := by
        intro i hi
        have := UInt16.le_iff_toNat_le.mp (UInt16.not_lt.mp hgt)
        exact hbuf i (by omega)
      have hcalc : calculateCRC m.u16Type m.u16Length m'.au8Message
          = calculateCRC m.u16Type m.u16Length m.au8Message := calculateCRC_congr hpre
      have hpay : m'.payload = m.payload := by
        unfold Message.payload
        rw [hlen]
        apply List.map_congr_left
        intro i hi
        exact hpre i (List.mem_range.mp hi)
      by_cases hcrc : d'.u8CRC = calculateCRC m.u16Type m.u16Length m.au8Message
      . simp only [threadStep, readByte_end, hlen, hgt, hty, hcalc, hcrc, ↓reduceIte, handleMessage,
          hpay]
        by_cases hlog : m.u16Type = E_SL_MSG_LOG
        . simp only [hlog, ↓reduceIte, true_and]
          refine ⟨rfl, ?_, Or.inl ⟨rfl, rfl⟩⟩
          intro i hi
          simp [Message.clear, hi]
        . simp only [hlog, ↓reduceIte, true_and]
          refine ⟨rfl, ?_, Or.inl ⟨rfl, rfl⟩⟩
          intro i hi
          simp [Message.clear, hi]
      . simp only [threadStep, readByte_end, hlen, hgt, hty, hcalc, hcrc, ↓reduceIte,
          Bool.false_eq_true, true_and]
        exact ⟨rfl, hbuf, Or.inl ⟨hty, hlen⟩⟩
  . simp only [threadStep, readByte_end, hlen, hlen', ↓reduceIte, Bool.false_eq_true, true_and]
    exact ⟨rfl, hbuf, Or.inr ⟨hlen, hlen', trivial⟩⟩

theorem filter_stores (indices : List Nat)
    : (indices.map Output.store).filter Output.isDeliver = [] := by
  simp [Output.isDeliver]

theorem filter_threadStep_of_ne_end (t : Thread) {b : UInt8} (h : b ≠ SL_END_CHAR)
    : (threadStep t (.byte b)).2.filter Output.isDeliver = [] := by
  simp only [threadStep, readByte_ok_false _ _ _ h, Bool.false_eq_true, ↓reduceIte]
  apply filter_stores

theorem alike_byte {t t' : Thread} (h : Alike t t') (b : UInt8)
    : (threadStep t' (.byte b)).2.filter Output.isDeliver
          = (threadStep t (.byte b)).2.filter Output.isDeliver
        ∧ Alike (threadStep t (.byte b)).1 (threadStep t' (.byte b)).1 := by
  by_cases hend : b = SL_END_CHAR
  . subst hend
    obtain ⟨hout, hnext⟩ := alike_end h
    exact ⟨by rw [hout], hnext⟩
  . rw [filter_threadStep_of_ne_end t hend, filter_threadStep_of_ne_end t' hend]
    rw [threadStep_byte_of_ne_end t hend, threadStep_byte_of_ne_end t' hend]
    refine ⟨rfl, ?_⟩
    by_cases hstart : b = SL_START_CHAR
    . subst hstart
      obtain ⟨hdec, hbuf, hfields⟩ := h
      rw [receive_start, receive_start]
      refine ⟨?_, hbuf, ?_⟩
      . simp only [hdec]
      . rcases hfields with hsame | ⟨hlen, hlen', -⟩
        . exact Or.inl hsame
        . exact Or.inr ⟨hlen, hlen', trivial⟩
    . by_cases hesc : b = SL_ESC_CHAR
      . rw [hesc, receive_esc, receive_esc]
        exact alike_withEsc h true
      . rw [receive_data hstart hesc hend, receive_data hstart hesc hend, h.dec_eq]
        exact alike_receiveData (alike_withEsc h false) _

theorem alike_timeout {t t' : Thread} (h : Alike t t') (hharm : Harmless t)
    : Alike (threadStep t .timeout).1 t' := by
  obtain ⟨d, m⟩ := t
  obtain ⟨d', m'⟩ := t'
  obtain ⟨hdec, hbuf, hfields⟩ := h
  obtain ⟨hzero, hlen, hst⟩ := hharm
  dsimp only at hdec hbuf hfields hzero hlen hst
  subst hdec
  refine ⟨rfl, ?_, Or.inr ⟨?_, ?_, ?_⟩⟩
  . intro i hi
    simp [threadStep, Message.clear, hi, hbuf i hi, hzero i hi]
  . simp [threadStep, Message.clear, SL_MAX_MESSAGE_LENGTH]
  . rcases hfields with ⟨-, hlen'⟩ | ⟨-, hlen', -⟩
    . rw [hlen']
      exact hlen
    . exact hlen'
  . simp only [threadStep, Message.clear]
    cases hrx : d'.eRxState with
    | waitStart | waitTypeMsb => trivial
    | waitTypeLsb | waitLenMsb =>
      simp only [hrx] at hst hfields
      rcases hfields with ⟨hty, -⟩ | ⟨-, -, hty⟩
      . simp [hty, hst]
      . simp [hty, hst]
    | waitLenLsb | waitCrc | waitData => simp [hrx] at hst

theorem deliveries_eq_of_alike {t t' : Thread} (h : Alike t t') {es : List RxEvent}
    (hok : Along threadStep (fun t e => e = .timeout → Harmless t) t es)
    : deliveries t es = deliveries t' (es.filter (· ≠ .timeout)) := by
  induction es generalizing t t' with
  | nil => rfl
  | cons e es ih =>
    obtain ⟨he, hrest⟩ := hok
    cases e with
    | timeout =>
      have hnext := ih (alike_timeout h (he rfl)) hrest
      simpa [deliveries, threadStep] using hnext
    | byte b =>
      obtain ⟨hout, hnext⟩ := alike_byte h b
      have := ih hnext hrest
      simp only [deliveries] at this ⊢
      simp [hout, this]

theorem deliveries_append (t : Thread) (xs ys : List RxEvent)
    : deliveries t (xs ++ ys) = deliveries t xs ++ deliveries (exec threadStep t xs) ys := by
  simp [deliveries]

theorem deliveries_of_not_mem_end (t : Thread) {bs : List UInt8} (h : SL_END_CHAR ∉ bs)
    : deliveries t (bs.map .byte) = [] := by
  induction bs generalizing t with
  | nil => rfl
  | cons b bs ih =>
    simp only [List.mem_cons, not_or] at h
    have hnext := ih (threadStep t (.byte b)).1 h.2
    have hnow := filter_threadStep_of_ne_end t (Ne.symm h.1)
    simp only [deliveries] at hnext ⊢
    simp only [List.map_cons, trace_cons, List.filter_append, hnow, hnext, List.append_nil]

theorem deliveries_end (t : Thread)
    : deliveries t [.byte SL_END_CHAR]
        =
      if t.msg.u16Length ≤ SL_MAX_MESSAGE_LENGTH
          ∧ t.dec.u8CRC = calculateCRC t.msg.u16Type t.msg.u16Length t.msg.au8Message then
        [.deliver t.msg.u16Type t.msg.u16Length t.msg.payload]
      else
        [] := by
  simp only [deliveries, trace_cons, trace_nil, List.append_nil, threadStep, readByte_end]
  by_cases hgt : SL_MAX_MESSAGE_LENGTH < t.msg.u16Length
  . simp [hgt, UInt16.not_le.mpr hgt]
  . by_cases hcrc : t.dec.u8CRC = calculateCRC t.msg.u16Type t.msg.u16Length t.msg.au8Message
    . simp only [hgt, hcrc, UInt16.not_lt.mp hgt, ↓reduceIte, handleMessage, List.map_nil,
        List.nil_append, and_self]
      split <;> rfl
    . simp [hgt, hcrc]

theorem deliveries_tx_end (t : Thread) {bs : List UInt8} (h : SL_END_CHAR ∉ bs)
    : deliveries t ((bs ++ [SL_END_CHAR]).map .byte)
        =
      deliveries (bs.foldl (receive SL_MAX_MESSAGE_LENGTH) t) [.byte SL_END_CHAR] := by
  rw [List.map_append, deliveries_append, deliveries_of_not_mem_end t h, exec_threadStep_bytes t h]
  rfl

theorem foldl_receive_tx (t : Thread) (bs : List UInt8)
    (hesc : unescape t.dec.bInEsc (bs.flatMap (txByte false)) = bs)
    : ∃ bInEsc, (bs.flatMap (txByte false)).foldl (receive SL_MAX_MESSAGE_LENGTH) t
        = (bs.foldl (receiveData SL_MAX_MESSAGE_LENGTH) t).withEsc bInEsc := by
  have hstart := not_mem_flatMap_txByte bs SL_START_CHAR (Or.inl rfl)
  have hend := not_mem_flatMap_txByte bs SL_END_CHAR (Or.inr rfl)
  rw [foldl_receive _ _ _ hstart hend, hesc]
  exact ⟨_, rfl⟩

/--
Every later byte stream makes the interrupted thread deliver what the other one delivers.
-/
def Undetected (t : Thread) : Prop :=
  ∀ bs : List UInt8, deliveries ⟨t.dec, t.msg.clear⟩ (bs.map .byte) = deliveries t (bs.map .byte)

/--
Undetected means in particular: not by escaped bytes followed by the end character, whether or not
a start character comes first.
-/
theorem Undetected.tx {t : Thread} (h : Undetected t) (bs : List UInt8)
    (hesc : unescape t.dec.bInEsc (bs.flatMap (txByte false)) = bs)
    : deliveries (bs.foldl (receiveData SL_MAX_MESSAGE_LENGTH) ⟨t.dec, t.msg.clear⟩)
          [.byte SL_END_CHAR]
        =
      deliveries (bs.foldl (receiveData SL_MAX_MESSAGE_LENGTH) t) [.byte SL_END_CHAR] := by
  have hend := not_mem_flatMap_txByte bs SL_END_CHAR (Or.inr rfl)
  have hsame := h (bs.flatMap (txByte false) ++ [SL_END_CHAR])
  rw [deliveries_tx_end _ hend, deliveries_tx_end _ hend] at hsame
  obtain ⟨e, he⟩ := foldl_receive_tx t bs hesc
  obtain ⟨e', he'⟩ := foldl_receive_tx ⟨t.dec, t.msg.clear⟩ bs hesc
  rw [he, he', deliveries_end, deliveries_end] at hsame
  rw [deliveries_end, deliveries_end]
  exact hsame

theorem Undetected.start {t : Thread} (h : Undetected t)
    : Undetected (receive SL_MAX_MESSAGE_LENGTH t SL_START_CHAR) := by
  intro bs
  have hsame := h (SL_START_CHAR :: bs)
  have hquiet := filter_threadStep_of_ne_end t (Ne.symm end_ne_start)
  have hquiet' := filter_threadStep_of_ne_end ⟨t.dec, t.msg.clear⟩ (Ne.symm end_ne_start)
  simp only [deliveries, List.map_cons, trace_cons, List.filter_append, hquiet, hquiet',
    List.nil_append] at hsame
  rw [threadStep_byte_of_ne_end _ (Ne.symm end_ne_start),
    threadStep_byte_of_ne_end _ (Ne.symm end_ne_start)] at hsame
  exact hsame

theorem unescape_tx_of_lt (esc : Bool) {b : UInt8} (h : b < 0x10) (bs : List UInt8)
    : unescape esc ((b :: bs).flatMap (txByte false)) = b :: bs := by
  have htx : txByte false b = [SL_ESC_CHAR, b ^^^ 0x10] := by simp [txByte, h]
  have hrest := unescape_flatMap_txByte (b :: bs) []
  simp only [List.flatMap_cons, htx, List.append_nil, List.cons_append, List.nil_append, unescape,
    ↓reduceIte] at hrest ⊢
  exact hrest

theorem calculateCRC_word (a : UInt8) (u16Length : UInt16) (buf : Nat → UInt8)
    : calculateCRC (word a 0) u16Length buf = a ^^^ calculateCRC 0 u16Length buf := by
  have hfold : ∀ (l : List UInt8) (x y : UInt8),
      l.foldl (· ^^^ ·) (x ^^^ y) = x ^^^ l.foldl (· ^^^ ·) y := by
    intro l
    induction l with
    | nil => intros; rfl
    | cons b l ih =>
      intro x y
      rw [List.foldl_cons, List.foldl_cons, UInt8.xor_assoc, ih]
  have hmsb : msb 0 = 0 := by decide
  have hlsb : lsb 0 = 0 := by decide
  rw [calculateCRC_eq_xorAll, calculateCRC_eq_xorAll, msb_word, lsb_word, hmsb, hlsb]
  simp only [xorAll, List.cons_append, List.nil_append, List.foldl_cons, UInt8.zero_xor,
    UInt8.xor_zero]
  rw [UInt8.xor_assoc, hfold]

/--
A length field that passes the check would let a later end character complete a message.
-/
theorem Undetected.length_gt {t : Thread} (h : Undetected t)
    : SL_MAX_MESSAGE_LENGTH < t.msg.u16Length := by
  by_contra hle
  -- a type that makes the check byte of the earlier bytes fit
  let a := t.dec.u8CRC ^^^ calculateCRC 0 t.msg.u16Length t.msg.au8Message
  have hesc : unescape false ([a, 0].flatMap (txByte false)) = [a, 0] := by
    simpa only [List.append_nil, unescape] using unescape_flatMap_txByte [a, 0] []
  have hsame := h.start.tx [a, 0] (by rw [receive_start]; exact hesc)
  rw [receive_start, deliveries_end, deliveries_end] at hsame
  simp only [List.foldl_cons, List.foldl_nil, receiveData, readData] at hsame
  have hcrc : t.dec.u8CRC
      = calculateCRC (a.toUInt16 <<< 8 + UInt8.toUInt16 0) t.msg.u16Length t.msg.au8Message := by
    change _ = calculateCRC (word a 0) _ _
    rw [calculateCRC_word]
    simp only [a]
    rw [xor_xor_cancel]
  have hbig : ¬ (0xFFFF : UInt16) ≤ SL_MAX_MESSAGE_LENGTH := by decide
  simp only [Message.clear, hbig, false_and, ↓reduceIte, UInt16.not_lt.mp hle, true_and,
    ← hcrc] at hsame
  exact absurd hsame (by simp)

/--
A byte left in the buffer would show up in a frame that ends too early.
-/
theorem Undetected.buf_zero {t : Thread} (h : Undetected t)
    : ∀ i < SL_MAX_MESSAGE_LENGTH.toNat, t.msg.au8Message i = 0 := by
  intro i hi
  by_contra hne
  let len := UInt16.ofNat (i + 1)
  have hi' : i < 256 := hi
  have hlen : len.toNat = i + 1 := by
    simp only [len, UInt16.toNat_ofNat']
    omega
  have hle : len ≤ SL_MAX_MESSAGE_LENGTH := by
    rw [UInt16.le_iff_toNat_le, hlen]
    exact hi
  let crc := calculateCRC 0 len t.msg.au8Message
  let bs := [0, 0, msb len, lsb len, crc]
  have hesc : unescape false (bs.flatMap (txByte false)) = bs := by
    simpa only [List.append_nil, unescape] using unescape_flatMap_txByte bs []
  have hsame := h.start.tx bs (by rw [receive_start]; exact hesc)
  rw [receive_start, foldl_receiveData_header rfl, foldl_receiveData_header rfl] at hsame
  have hgt : ¬ SL_MAX_MESSAGE_LENGTH < word (msb len) (lsb len) := by
    rw [word_msb_lsb]
    exact UInt16.not_lt.mpr hle
  have hword : word 0 0 = 0 := by decide
  rw [if_neg hgt, if_neg hgt, deliveries_end, deliveries_end] at hsame
  simp only [word_msb_lsb, hword, hle, true_and, Message.payload] at hsame
  rw [if_pos rfl] at hsame
  split at hsame
  . have hpay : (List.range len.toNat).map t.msg.clear.au8Message
        = (List.range len.toNat).map t.msg.au8Message := by
      simpa using hsame
    have hat := List.map_inj_left.mp hpay i (by rw [hlen]; simp)
    rw [← hat] at hne
    simp [Message.clear, hi] at hne
  . simp at hsame

theorem lt_escaped : (0 : UInt8) < 0x10 ∧ (1 : UInt8) < 0x10 := by decide

theorem eq_zero_of_deliver_eq {c : Prop} [Decidable c] {u16Type : UInt16} {p p' : List UInt8}
    (h : (if c then [Output.deliver 0 0 p] else []) = [.deliver u16Type 0 p'])
    : u16Type = 0 := by
  split at h
  . simp only [List.cons.injEq, Output.deliver.injEq] at h
    exact h.1.1.symm
  . simp at h

/--
Type bytes other than zero would be missing in the type.
-/
theorem Undetected.type_zero {t : Thread} (h : Undetected t)
    (hst : t.dec.eRxState = .waitTypeLsb ∨ t.dec.eRxState = .waitLenMsb)
    : t.msg.u16Type = 0 := by
  by_contra hne
  let crc := calculateCRC t.msg.u16Type 0 t.msg.au8Message
  have hzero : ¬ SL_MAX_MESSAGE_LENGTH < (0 : UInt16) := by decide
  have hle : (0 : UInt16) ≤ SL_MAX_MESSAGE_LENGTH := by decide
  cases hst with
  | inl hst =>
    have hsame := h.tx [0, 0, 0, crc] (unescape_tx_of_lt _ lt_escaped.1 _)
    rw [deliveries_end, deliveries_end] at hsame
    simp [receiveData, readData, hst, hzero, hle, crc, Message.clear] at hsame
    exact hne (eq_zero_of_deliver_eq hsame)
  | inr hst =>
    have hsame := h.tx [0, 0, crc] (unescape_tx_of_lt _ lt_escaped.1 _)
    rw [deliveries_end, deliveries_end] at hsame
    simp [receiveData, readData, hst, hzero, hle, crc, Message.clear] at hsame
    exact hne (eq_zero_of_deliver_eq hsame)

/--
Between the two length bytes the wiped length 0xFFFF overflows into a small one.
-/
theorem Undetected.not_waitLenLsb {t : Thread} (h : Undetected t)
    (hmod : t.msg.u16Length.toNat % 256 = 0)
    : t.dec.eRxState ≠ .waitLenLsb := by
  intro hst
  have hgt := UInt16.lt_iff_toNat_lt.mp h.length_gt
  have hlt := t.msg.u16Length.toNat_lt
  have hnext : (t.msg.u16Length + UInt8.toUInt16 1).toNat = t.msg.u16Length.toNat + 1 := by
    have hone : UInt8.toUInt16 1 = 1 := rfl
    rw [hone, UInt16.toNat_add, UInt16.toNat_one]
    omega
  have hgt' : SL_MAX_MESSAGE_LENGTH < t.msg.u16Length + UInt8.toUInt16 1 := by
    rw [UInt16.lt_iff_toNat_lt, hnext]
    omega
  have hwrap : (0xFFFF : UInt16) + UInt8.toUInt16 1 = 0 := by decide
  have hzero : ¬ SL_MAX_MESSAGE_LENGTH < (0 : UInt16) := by decide
  have hle : (0 : UInt16) ≤ SL_MAX_MESSAGE_LENGTH := by decide
  have hcrc : ∀ buf, calculateCRC 0 0 buf = 0 := fun buf => by rfl
  have hsame := h.tx [1, 0] (unescape_tx_of_lt _ lt_escaped.2 _)
  rw [deliveries_end, deliveries_end] at hsame
  simp only [List.foldl_cons, List.foldl_nil, receiveData, readData, hst, hgt', ↓reduceIte,
    Message.clear, hwrap, hzero, hle, hcrc, and_self, UInt16.not_le.mpr hgt', false_and] at hsame
  exact absurd hsame (by simp)

/--
Between the two length bytes the buffer holds the first one only.
-/
def LengthMsbOnly (t : Thread) : Prop :=
  t.dec.eRxState = .waitLenLsb → t.msg.u16Length.toNat % 256 = 0

theorem lengthMsbOnly_receiveData (t : Thread) (b : UInt8)
    : LengthMsbOnly (receiveData SL_MAX_MESSAGE_LENGTH t b) := by
  unfold LengthMsbOnly
  cases hst : t.dec.eRxState with
  | waitStart | waitTypeMsb | waitTypeLsb | waitCrc => simp [receiveData, readData, hst]
  | waitLenMsb =>
    simp only [receiveData, readData, hst, UInt16.toNat_shiftLeft, Nat.shiftLeft_eq]
    simp
  | waitLenLsb =>
    by_cases hgt : SL_MAX_MESSAGE_LENGTH < t.msg.u16Length + b.toUInt16
    . simp [receiveData, readData, hst, hgt]
    . simp [receiveData, readData, hst, hgt]
  | waitData =>
    by_cases hlt : t.dec.u16Bytes < t.msg.u16Length
    . simp [receiveData, readData, hst, hlt]
    . simp [receiveData, readData, hst, hlt]

theorem lengthMsbOnly_byte {t : Thread} (h : LengthMsbOnly t) (b : UInt8)
    : LengthMsbOnly (threadStep t (.byte b)).1 := by
  rcases threadStep_byte_cases t b with ⟨-, hstep⟩ | ⟨-, hstep⟩ | ⟨-, hstep | ⟨m, hstep⟩⟩
    | ⟨u8Data, hstep⟩
  . rw [hstep]
    simp [LengthMsbOnly]
  . rw [hstep]
    exact h
  . rw [hstep]
    exact h
  . rw [hstep]
    simp [LengthMsbOnly]
  . rw [hstep]
    apply lengthMsbOnly_receiveData

/--
What the receive state says about the length field, as long as every timeout is harmless.
-/
theorem length_threadStep {t : Thread} {e : RxEvent} (h : LengthMsbOnly t ∧ LengthChecked t)
    (hharm : e = .timeout → Harmless t)
    : LengthMsbOnly (threadStep t e).1 ∧ LengthChecked (threadStep t e).1 := by
  cases e with
  | timeout =>
    obtain ⟨-, -, hst⟩ := hharm rfl
    cases hrx : t.dec.eRxState <;> simp only [hrx] at hst
    all_goals simp [LengthMsbOnly, LengthChecked, threadStep, hrx]
  | byte b => exact ⟨lengthMsbOnly_byte h.1 b, lengthChecked_byte h.2 b⟩

theorem Undetected.harmless {t : Thread} (h : Undetected t)
    (hlen : LengthMsbOnly t ∧ LengthChecked t)
    : Harmless t := by
  refine ⟨h.buf_zero, h.length_gt, ?_⟩
  have hgt := h.length_gt
  cases hst : t.dec.eRxState with
  | waitStart | waitTypeMsb => trivial
  | waitTypeLsb => exact h.type_zero (Or.inl hst)
  | waitLenMsb => exact h.type_zero (Or.inr hst)
  | waitLenLsb => exact h.not_waitLenLsb (hlen.1 hst) hst
  | waitCrc => exact UInt16.not_le.mpr hgt (hlen.2 (Or.inl hst))
  | waitData => exact UInt16.not_le.mpr hgt (hlen.2 (Or.inr hst))

theorem Harmless.undetected {t : Thread} (h : Harmless t) : Undetected t := by
  intro bs
  have hbytes : Along threadStep (fun t e => e = .timeout → Harmless t)
      (threadStep t .timeout).1 (bs.map .byte) := by
    generalize (threadStep t .timeout).1 = t'
    induction bs generalizing t' with
    | nil => trivial
    | cons b bs ih => exact ⟨by simp, ih _⟩
  have hfilter : (bs.map RxEvent.byte).filter (· ≠ .timeout) = bs.map .byte := by
    apply List.filter_eq_self.mpr
    simp
  have := deliveries_eq_of_alike (alike_timeout (Alike.refl t) h) hbytes
  rwa [hfilter] at this

/--
If every timeout is harmless the thread delivers what it would have delivered without them, and a
further timeout goes unnoticed by every later byte stream exactly when it is harmless too.
-/
theorem deliveries_timeouts (es : List RxEvent) (h : TimeoutsHarmless es)
    : deliveries threadStart es = deliveries threadStart (es.filter (· ≠ .timeout))
        ∧ (Harmless (exec threadStep threadStart es)
            ↔ ∀ bs : List UInt8,
                deliveries threadStart (es ++ .timeout :: bs.map .byte)
                  =
                deliveries threadStart (es ++ bs.map .byte)) := by
  refine ⟨deliveries_eq_of_alike (Alike.refl _) h, ?_⟩
  have hlen := inv_exec threadStep (fun t e hinv hok => length_threadStep hinv hok)
    (s := threadStart) ⟨by simp [LengthMsbOnly, threadStart], by simp [LengthChecked, threadStart]⟩ h
  have hundetected : Undetected (exec threadStep threadStart es)
      ↔ ∀ bs : List UInt8,
          deliveries threadStart (es ++ .timeout :: bs.map .byte)
            = deliveries threadStart (es ++ bs.map .byte) := by
    unfold Undetected
    simp only [deliveries_append, List.append_cancel_left_eq]
    rfl
  rw [← hundetected]
  exact ⟨Harmless.undetected, fun hun => hun.harmless hlen⟩

/--
A timeout before the first byte.
-/
theorem deliveries_timeouts_first
    : deliveries threadStart [.timeout, .byte SL_START_CHAR]
        =
      deliveries threadStart ([.timeout, .byte SL_START_CHAR].filter (· ≠ .timeout)) := by
  apply (deliveries_timeouts [.timeout, .byte SL_START_CHAR] _).1
  refine ⟨fun _ => ⟨?_, ?_, trivial⟩, by simp, trivial⟩
  . intro i _
    rfl
  . decide

/--
A timeout before the last byte of the payload loses the message.
-/
theorem deliveries_timeout_lost
    : ¬ ∀ es : List RxEvent,
        deliveries threadStart es = deliveries threadStart (es.filter (· ≠ .timeout)) := by
  intro h
  have := h (([0x01, 0x81, 0x02, 0x12, 0x02, 0x10, 0x02, 0x11, 0xC3].map .byte)
    ++ .timeout :: [0x41, 0x03].map .byte)
  revert this
  decide

end SerialLink
