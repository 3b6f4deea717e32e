import IotGateway.Json.Lemmas.Create
import IotGateway.NfcDaemon.Lemmas.Commission
import IotGateway.SecureJoiner.Impl
import IotGateway.ZcbDaemon.Lemmas.Nodes

/-!
This module says what the secure joiner makes of a response of the ZCB.
-/

namespace SecureJoiner

open Json ZcbDaemon NfcDaemon IotError Machine

/--
The network data that the response has for the device.
-/
def AuthenticateResponse.joinSecure (r : AuthenticateResponse) : Answer :=
  .joinSecure r.u8Channel.toNat r.u8KeySequenceNumber.toNat r.pan.toList r.extpan.toList
    r.nwkey.toList r.mic.toList r.tcaddr.toList

section

theorem num2nibble_clean {num : Nat} (h : num < 16)
    : num2nibble num ≠ '"' ∧ num2nibble num ≠ '\\' ∧ num2nibble num ≠ NUL := by
  have hall : ∀ num < 16,
      num2nibble num ≠ '"' ∧ num2nibble num ≠ '\\' ∧ num2nibble num ≠ NUL := by
    decide
  exact hall num h

theorem nibbles_clean {i num : Nat} {text : List Char}
    (h : ∀ c ∈ text, c ≠ '"' ∧ c ≠ '\\' ∧ c ≠ NUL)
    : ∀ c ∈ nibbles i num text, c ≠ '"' ∧ c ≠ '\\' ∧ c ≠ NUL := by
  induction i generalizing num text with
  | zero => exact h
  | succ i ih =>
    apply ih
    intro c hc
    cases hc with
    | head => exact num2nibble_clean (Nat.mod_lt num (by decide))
    | tail _ hmem => exact h c hmem

theorem nibblestr_clean (i num : Nat) : Clean (String.ofList (nibbles i num [])) := by
  intro c hc
  rw [String.toList_ofList] at hc
  exact nibbles_clean (List.forall_mem_nil _) c hc

theorem hex2nibblestr_clean (src : List UInt8) : Clean (hex2nibblestr src) := by
  intro c hc
  rw [hex2nibblestr, String.toList_ofList, List.mem_flatMap] at hc
  obtain ⟨b, -, hb⟩ := hc
  have hlt := b.toNat_lt
  simp only [List.mem_cons, List.not_mem_nil, or_false] at hb
  rcases hb with rfl | rfl
  . apply num2nibble_clean
    omega
  . apply num2nibble_clean
    omega

theorem hex2nibblestr_length (src : List UInt8)
    : (hex2nibblestr src).toList.length = 2 * src.length := by
  rw [hex2nibblestr, String.toList_ofList]
  induction src with
  | nil => rfl
  | cons b src ih =>
    rw [List.flatMap_cons, List.length_append, ih]
    simp only [List.length_cons, List.length_nil]
    omega

end

theorem length_string (name value : String)
    : (string name value).text.length = name.toList.length + value.toList.length + 5 := by
  show ('"' :: name.toList ++ ['"', ':'] ++ ('"' :: value.toList ++ ['"'])).length = _
  simp only [List.length_append, List.length_cons, List.length_nil]
  omega

theorem length_int_le (name : String) (value : Int32)
    : (int name value).text.length ≤ name.toList.length + 14 := by
  have hvalue := length_decimal_le value
  show ('"' :: name.toList ++ ['"', ':'] ++ decimal value).length ≤ _
  simp only [List.length_append, List.length_cons, List.length_nil]
  omega

theorem length_membersText_le (ms : List Member)
    : (membersText ms).length ≤ (ms.map (·.text.length + 2)).sum := by
  induction ms with
  | nil => exact Nat.le_refl 0
  | cons m ms ih =>
    cases ms with
    | nil =>
      show m.text.length ≤ m.text.length + 2 + 0
      omega
    | cons m' ms =>
      have hcomma : ", ".toList.length = 2 := by decide
      rw [membersText, List.length_append, List.length_append, hcomma, List.map_cons, List.sum_cons]
      . omega
      . exact List.cons_ne_nil m' ms

namespace AuthenticateResponse

variable (r : AuthenticateResponse)

theorem mac_length : r.mac.toList.length = 16 := u642nibblestr_length r.u64IEEEAddress

theorem nwkey_length : r.nwkey.toList.length = 32 := by
  rw [nwkey, hex2nibblestr_length, Vector.length_toList]

theorem mic_length : r.mic.toList.length = 8 := by
  rw [mic, hex2nibblestr_length, Vector.length_toList]

theorem tcaddr_length : r.tcaddr.toList.length = 16 := u642nibblestr_length r.u64TrustCenterAddress

theorem pan_length : r.pan.toList.length = 4 := by
  rw [pan, String.toList_ofList, nibbles_length]
  rfl

theorem extpan_length : r.extpan.toList.length = 16 := u642nibblestr_length r.u64PanID

theorem object_shaped : r.object.Shaped := by
  have hbuilt : Built (fun _ => (0, 0)) (fun _ => (0, 0)) r.object :=
    .jsonZcbAuthorizeResponse ..
  exact built_shaped hbuilt

theorem object_namesValid : NamesValid r.object.members := by
  intro m hm
  simp only [object, jsonZcbAuthorizeResponse, List.mem_cons, List.not_mem_nil, or_false] at hm
  rcases hm with rfl | rfl | rfl | rfl | rfl | rfl | rfl | rfl
  all_goals
    dsimp only [string, int]
    decide

theorem value_clean {m : Member} (hm : m ∈ r.object.members) {value : String}
    (hvalue : m.value = .string value)
    : Clean value ∧ value.toList.length ≤ 32 := by
  simp only [object, jsonZcbAuthorizeResponse, List.mem_cons, List.not_mem_nil, or_false] at hm
  rcases hm with rfl | rfl | rfl | rfl | rfl | rfl | rfl | rfl
  . cases hvalue
    exact ⟨nibblestr_clean 16 _, by rw [mac_length]; decide⟩
  . cases hvalue
    exact ⟨hex2nibblestr_clean _, by rw [nwkey_length]⟩
  . cases hvalue
    exact ⟨hex2nibblestr_clean _, by rw [mic_length]; decide⟩
  . cases hvalue
    exact ⟨nibblestr_clean 16 _, by rw [tcaddr_length]; decide⟩
  . cases hvalue
  . cases hvalue
  . cases hvalue
    exact ⟨nibblestr_clean 4 _, by rw [pan_length]; decide⟩
  . cases hvalue
    exact ⟨nibblestr_clean 16 _, by rw [extpan_length]; decide⟩

theorem name_clean {m : Member} (hm : m ∈ r.object.members)
    : Clean m.name ∧ m.name.toList.length ≤ 9 := by
  simp only [object, jsonZcbAuthorizeResponse, List.mem_cons, List.not_mem_nil, or_false] at hm
  rcases hm with rfl | rfl | rfl | rfl | rfl | rfl | rfl | rfl
  all_goals
    dsimp only [string, int]
    unfold Clean
    decide

theorem object_length : r.object.text.length ≤ 240 := by
  have hmembers := length_membersText_le r.object.members
  have hkeyseq := length_int_le "keyseq" (Int32.ofNat r.u8KeySequenceNumber.toNat)
  have hchan := length_int_le "chan" (Int32.ofNat r.u8Channel.toNat)
  have hnames : "authorize".toList.length = 9 ∧ "key".toList.length = 3 ∧ "mic".toList.length = 3
      ∧ "tcaddr".toList.length = 6 ∧ "keyseq".toList.length = 6 ∧ "chan".toList.length = 4
      ∧ "pan".toList.length = 3 ∧ "extpan".toList.length = 6 := by
    decide
  have hopen : ('"' :: "zcb".toList ++ ['"'] ++ " : \x7b ".toList).length = 10 := by decide
  have hclose : " \x7d\n".toList.length = 3 := by decide
  simp only [object, jsonZcbAuthorizeResponse, List.map_cons, List.map_nil, List.sum_cons,
    List.sum_nil, length_string, mac_length, nwkey_length, mic_length, tcaddr_length, pan_length,
    extpan_length, hnames] at hmembers hkeyseq hchan
  show (('"' :: "zcb".toList ++ ['"'] ++ " : \x7b ".toList) ++ membersText r.object.members
    ++ " \x7d\n".toList).length ≤ 240
  rw [List.length_append, List.length_append, hopen, hclose, object]
  dsimp only [jsonZcbAuthorizeResponse]
  omega

theorem object_inLimits : r.object.InLimits := by
  refine ⟨?_, ?_, ?_, ?_⟩
  . intro m hm
    obtain ⟨hclean, hlength⟩ := r.name_clean hm
    exact ⟨hclean, Nat.lt_of_le_of_lt hlength (by decide)⟩
  . intro m hm value hvalue
    obtain ⟨hclean, hlength⟩ := r.value_clean hm hvalue
    exact ⟨hclean, Nat.lt_of_le_of_lt hlength (by decide)⟩
  . rintro ⟨name, value⟩ hm
    have hname := (r.name_clean hm).2
    apply Nat.le_trans (m := 50)
    . cases value with
      | int value =>
        apply Nat.le_trans (length_int_le name value)
        dsimp only at hname
        omega
      | string value =>
        have hvalue := (r.value_clean hm rfl).2
        show (string name value).text.length ≤ 50
        rw [length_string]
        dsimp only at hname
        omega
      | null =>
        have hnull : "\"(null)\"".toList.length = 8 := by decide
        show ('"' :: name.toList ++ ['"', ':'] ++ "\"(null)\"".toList).length ≤ 50
        simp only [List.length_append, List.length_cons, List.length_nil, hnull]
        dsimp only at hname
        omega
    . decide
  . exact Nat.lt_of_le_of_lt r.object_length (by decide)

/--
The message fits in a buffer of the queue.
-/
theorem take_message : r.object.message.take (MAXMESSAGESIZE - 1) = r.object.text := by
  rw [message_eq r.object_inLimits.whole, List.take_of_length_le]
  exact Nat.le_trans r.object_length (by decide)

theorem trace_object (p : ParserData)
    : trace eatStep (jsonReset p) r.object.text
      = .objectStart "zcb".toList :: r.object.members.map Member.event
        ++ [.objectComplete "zcb".toList] := by
  rcases trace_named p r.object_shaped r.object_namesValid r.object_inLimits with
    ⟨htrace, -⟩ | ⟨-, hcount⟩
  . exact htrace
  . exact absurd hcount (Nat.lt_irrefl 8)

theorem toInt_ofNat_uint8 (n : UInt8) : (Int32.ofNat n.toNat).toInt = n.toNat := by
  have hlt := n.toNat_lt
  exact Int32.toInt_ofNat_of_lt (by omega)

end AuthenticateResponse

section

variable {s : Zcb} {value : List Char}

theorem zcbOn_authorize (h : value.length ≤ LEN_AUTH)
    : zcbOn s (.string "authorize".toList value) = { s with authorize := value } := by
  rw [zcbOn, if_pos rfl, if_pos h]

theorem zcbOn_key (h : value.length ≤ LEN_NWKEY)
    : zcbOn s (.string "key".toList value) = { s with nwkey := value } := by
  rw [zcbOn, if_neg (by decide), if_pos rfl, if_pos h]

theorem zcbOn_mic (h : value.length ≤ LEN_MIC)
    : zcbOn s (.string "mic".toList value) = { s with mic := value } := by
  rw [zcbOn, if_neg (by decide), if_neg (by decide), if_pos rfl, if_pos h]

theorem zcbOn_tcaddr (h : value.length ≤ LEN_TCADDR)
    : zcbOn s (.string "tcaddr".toList value) = { s with tcaddress := value } := by
  rw [zcbOn, if_neg (by decide), if_neg (by decide), if_neg (by decide), if_pos rfl,
    if_pos h]

theorem zcbOn_pan (h : value.length ≤ LEN_PAN)
    : zcbOn s (.string "pan".toList value) = { s with pan := value } := by
  rw [zcbOn, if_neg (by decide), if_neg (by decide), if_neg (by decide),
    if_neg (by decide), if_pos rfl, if_pos h]

theorem zcbOn_extpan (h : value.length ≤ LEN_EXTPAN)
    : zcbOn s (.string "extpan".toList value) = { s with extpan := value } := by
  rw [zcbOn, if_neg (by decide), if_neg (by decide), if_neg (by decide),
    if_neg (by decide), if_neg (by decide), if_pos rfl, if_pos h]

theorem zcbOn_keyseq (value : Int)
    : zcbOn s (.integer "keyseq".toList value) = { s with keyseq := value } := by
  rw [zcbOn, if_pos rfl]

theorem zcbOn_chan (value : Int)
    : zcbOn s (.integer "chan".toList value) = { s with channel := value } := by
  rw [zcbOn, if_neg (by decide), if_pos rfl]

end

/--
What the callbacks find in a response.
-/
def AuthenticateResponse.zcb (r : AuthenticateResponse) : Zcb where
  zcbOk := true
  keyseq := r.u8KeySequenceNumber.toNat
  channel := r.u8Channel.toNat
  authorize := r.mac.toList
  nwkey := r.nwkey.toList
  mic := r.mic.toList
  tcaddress := r.tcaddr.toList
  pan := r.pan.toList
  extpan := r.extpan.toList

/--
Nothing is left of what the variables held before.
-/
theorem foldl_zcbOn (r : AuthenticateResponse) (s : Zcb)
    : (Event.objectStart "zcb".toList :: r.object.members.map Member.event
        ++ [Event.objectComplete "zcb".toList]).foldl zcbOn s = r.zcb := by
  have hkeyseq : (r.u8KeySequenceNumber.toNat : Int) ≠ -1 := by omega
  have hchannel : (r.u8Channel.toNat : Int) ≠ -1 := by omega
  simp only [AuthenticateResponse.object, jsonZcbAuthorizeResponse, List.map_cons, List.map_nil,
    Member.event, string, int, List.cons_append, List.nil_append, List.foldl_cons, List.foldl_nil,
    AuthenticateResponse.toInt_ofNat_uint8]
  rw [zcbOn_authorize (Nat.le_of_eq r.mac_length), zcbOn_key (Nat.le_of_eq r.nwkey_length),
    zcbOn_mic (Nat.le_of_eq r.mic_length), zcbOn_tcaddr (Nat.le_of_eq r.tcaddr_length),
    zcbOn_keyseq, zcbOn_chan, zcbOn_pan (Nat.le_of_eq r.pan_length),
    zcbOn_extpan (Nat.le_of_eq r.extpan_length)]
  simp only [zcbOn]
  rw [if_pos]
  . rfl
  . rw [r.mac_length, r.nwkey_length, r.mic_length, r.tcaddr_length, r.pan_length, r.extpan_length]
    exact ⟨hkeyseq, hchannel, by decide⟩

theorem handle_eq (s : State) (mac : String) (r : AuthenticateResponse)
    : ∃ parser zcb, s.handle mac r
        = { s with parser, zcb }.answer
            (if r.mac = strtoupper mac then r.joinSecure else .error IOT_ERROR_AUTHORIZE_RESPONSE) := by
  have hfold := foldl_eat zcbOn (jsonReset s.parser) { s.zcb with zcbOk := false } r.object.text
  rw [r.trace_object, foldl_zcbOn] at hfold
  refine ⟨exec eatStep (jsonReset s.parser) r.object.text, r.zcb, ?_⟩
  rw [State.handle, r.take_message, hfold]
  by_cases h : r.mac = strtoupper mac
  . rw [if_pos h]
    dsimp only
    rw [if_pos ⟨rfl, congrArg String.toList h.symm⟩]
    rfl
  . rw [if_neg h]
    dsimp only
    rw [if_neg]
    rintro ⟨-, hmac⟩
    exact h (String.toList_inj.mp hmac).symm

end SecureJoiner
