import IotGateway.Json.Impl.Create
import IotGateway.Json.Lemmas.Flat

/-!
This module says which messages of the constructors the parser reads right.
-/

namespace Json

open Machine

inductive Built (rgb2xy kelvin2xy : Int32 → Int32 × Int32) : Object → Prop where
  | jsonCmdGetStatus : Built _ _ jsonCmdGetStatus
  | jsonZcbStatus (status) : Built _ _ (jsonZcbStatus status)
  | jsonZcbLog (text) : Built _ _ (jsonZcbLog text)
  | jsonCmdReset (mode) : Built _ _ (jsonCmdReset mode)
  | jsonZcbResetRsp (ret) : Built _ _ (jsonZcbResetRsp ret)
  | jsonCmdResetRsp (ret) : Built _ _ (jsonCmdResetRsp ret)
  | jsonCmdStartNetwork : Built _ _ jsonCmdStartNetwork
  | jsonZcbStartRsp (ret) : Built _ _ (jsonZcbStartRsp ret)
  | jsonCmdErase : Built _ _ jsonCmdErase
  | jsonCmdSystem (system strval) : Built _ _ (jsonCmdSystem system strval)
  | jsonZcbAnnounce (mac dev ty) : Built _ _ (jsonZcbAnnounce mac dev ty)
  | jsonCmdGetVersion : Built _ _ jsonCmdGetVersion
  | jsonZcbVersion (major minor) : Built _ _ (jsonZcbVersion major minor)
  | jsonCmdNfcmode (nfcMode) : Built _ _ (jsonCmdNfcmode nfcMode)
  | jsonCmdSetExtPan (extPanID) : Built _ _ (jsonCmdSetExtPan extPanID)
  | jsonCmdSetChannelMask (channelMask) : Built _ _ (jsonCmdSetChannelMask channelMask)
  | jsonZcbChanMaskRsp (channelMask) : Built _ _ (jsonZcbChanMaskRsp channelMask)
  | jsonZcbChanRsp (channel) : Built _ _ (jsonZcbChanRsp channel)
  | jsonCmdSetDeviceType (devType) : Built _ _ (jsonCmdSetDeviceType devType)
  | jsonCmdGetPermitJoin : Built _ _ jsonCmdGetPermitJoin
  | jsonZcbRspPermitJoin (status) : Built _ _ (jsonZcbRspPermitJoin status)
  | jsonCmdSetPermitJoin (target duration) : Built _ _ (jsonCmdSetPermitJoin target duration)
  | jsonCmdAuthorizeRequest (mac linkkey) : Built _ _ (jsonCmdAuthorizeRequest mac linkkey)
  | jsonZcbAuthorizeResponse (mac nwKey mic tcAddress keySeq channel pan extPan) :
    Built _ _ (jsonZcbAuthorizeResponse mac nwKey mic tcAddress keySeq channel pan extPan)
  | jsonTls (label val) : Built _ _ (jsonTls label val)
  | jsonLinkInfo (nw_version nw_type nw_profile mac linkkey) :
    Built _ _ (jsonLinkInfo nw_version nw_type nw_profile mac linkkey)
  | jsonJoinSecure (channel keysequence pan extendedPan networkKey mic tcAddress) :
    Built _ _ (jsonJoinSecure channel keysequence pan extendedPan networkKey mic tcAddress)
  | jsonManager (id mac nm rm ty joined) : Built _ _ (jsonManager id mac nm rm ty joined)
  | jsonUI (id mac nm rm man heat cool joined) :
    Built _ _ (jsonUI id mac nm rm man heat cool joined)
  | jsonUiCtrl (mac heat cool) : Built _ _ (jsonUiCtrl mac heat cool)
  | jsonSensor (id mac nm rm ui tmp hum prs co2 bat batl als xloc yloc zloc joined) :
    Built _ _ (jsonSensor id mac nm rm ui tmp hum prs co2 bat batl als xloc yloc zloc joined)
  | jsonPump (id mac nm rm sen sid cmd lvl joined) :
    Built _ _ (jsonPump id mac nm rm sen sid cmd lvl joined)
  | jsonLamp (id mac nm rm ty cmd lvl rgb kelvin joined) :
    Built _ _ (jsonLamp id mac nm rm ty cmd lvl rgb kelvin joined)
  | jsonLamp_xyY (id mac nm rm ty cmd lvl xcr ycr joined) :
    Built _ _ (jsonLamp_xyY id mac nm rm ty cmd lvl xcr ycr joined)
  | jsonPlug (id mac nm rm cmd act sum h24 joined autoinsert) :
    Built _ _ (jsonPlug id mac nm rm cmd act sum h24 joined autoinsert)
  | jsonPlugCmd (mac cmd) : Built _ _ (jsonPlugCmd mac cmd)
  | jsonAct (mac sid cmd lvl) : Built _ _ (jsonAct mac sid cmd lvl)
  | jsonControl (mac cmd sid lvl rgb kelvin heat cool) :
    Built _ _ (jsonControl mac cmd sid lvl rgb kelvin heat cool)
  | jsonLampToZigbee (mac cmd lvl rgb kelvin) :
    Built _ _ (jsonLampToZigbee rgb2xy mac cmd lvl rgb kelvin)
  | jsonClimateWater (mac out ret) : Built _ _ (jsonClimateWater mac out ret)
  | jsonClimateBurner (mac burner power) : Built _ _ (jsonClimateBurner mac burner power)
  | jsonClimateCooler (mac cooler power) : Built _ _ (jsonClimateCooler mac cooler power)
  | jsonTopoClear : Built _ _ jsonTopoClear
  | jsonTopoClearTopo : Built _ _ jsonTopoClearTopo
  | jsonTopoEnd : Built _ _ jsonTopoEnd
  | jsonTopoGet : Built _ _ jsonTopoGet
  | jsonTopoUpload : Built _ _ jsonTopoUpload
  | jsonTopoStatus (status) : Built _ _ (jsonTopoStatus status)
  | jsonTopoAddManager (mac name type) : Built _ _ (jsonTopoAddManager mac name type)
  | jsonTopoAddUI (mac name) : Built _ _ (jsonTopoAddUI mac name)
  | jsonTopoAddSensor (mac name) : Built _ _ (jsonTopoAddSensor mac name)
  | jsonTopoAddPump (mac name sid) : Built _ _ (jsonTopoAddPump mac name sid)
  | jsonTopoAddPlug (mac name) : Built _ _ (jsonTopoAddPlug mac name)
  | jsonTopoAddLamp (mac name type) : Built _ _ (jsonTopoAddLamp mac name type)
  | jsonTopoAddNone : Built _ _ jsonTopoAddNone
  | jsonTopoResponse (errcode) : Built _ _ (jsonTopoResponse errcode)
  | jsonTunnelOpen (mac) : Built _ _ (jsonTunnelOpen mac)
  | jsonTunnelClose : Built _ _ jsonTunnelClose
  | jsonDbGet (mac) : Built _ _ (jsonDbGet mac)
  | jsonDbGetRoom (room ts) : Built _ _ (jsonDbGetRoom room ts)
  | jsonDbGetBegin (ts) : Built _ _ (jsonDbGetBegin ts)
  | jsonDbGetEnd (count) : Built _ _ (jsonDbGetEnd count)
  | jsonDbEditAdd (mac dev ty) : Built _ _ (jsonDbEditAdd mac dev ty)
  | jsonDbEditRem (mac) : Built _ _ (jsonDbEditRem mac)
  | jsonDbEditClr (clr) : Built _ _ (jsonDbEditClr clr)
  | jsonLampGroup (mac grp grpid scn scnid) : Built _ _ (jsonLampGroup mac grp grpid scn scnid)
  | jsonGroup (grpid scn scnid cmd lvl rgb kelvin xcr ycr) :
    Built _ _ (jsonGroup rgb2xy kelvin2xy grpid scn scnid cmd lvl rgb kelvin xcr ycr)
  | jsonGwProperties (name ifversion) : Built _ _ (jsonGwProperties name ifversion)
  | jsonProcStart (proc) : Built _ _ (jsonProcStart proc)
  | jsonProcStop (proc) : Built _ _ (jsonProcStop proc)
  | jsonProcRestart (proc) : Built _ _ (jsonProcRestart proc)

def Member.event (m : Member) : Event :=
  match m.value with
  | .int value => .integer m.name.toList value.toInt
  | .string value => .string m.name.toList value.toList
  | .null => .string m.name.toList "(null)".toList

/--
The object name, the members that are present and the end of the object.
-/
def Object.events (o : Object) : List Event :=
  .objectStart o.name.toList
    :: (o.members.filter (fun m => m.value != .null)).map Member.event
    ++ [.objectComplete o.name.toList]

/--
The message is built within the buffers, and a freshly reset parser makes the right events of it.
-/
structure Object.Agrees (o : Object) (p : ParserData) : Prop where
  built : o.overrun = false
  events : trace eatStep (jsonReset p) o.message = o.events

def membersText : List Member → List Char
  | [] => []
  | [m] => m.text
  | m :: members => m.text ++ ", ".toList ++ membersText members

/--
The whole text.
-/
def Object.text (o : Object) : List Char :=
  '"' :: o.name.toList ++ ['"'] ++ " : \x7b ".toList ++ membersText o.members ++ " \x7d\n".toList

/--
A string without quotes, backslashes and terminators.
-/
def Clean (s : String) : Prop := ∀ c ∈ s.toList, c ≠ '"' ∧ c ≠ '\\' ∧ c ≠ NUL

structure Object.InLimits (o : Object) : Prop where
  names : ∀ m ∈ o.members, Clean m.name ∧ m.name.toList.length < MAXNAME
  values : ∀ m ∈ o.members, ∀ value, m.value = .string value →
    Clean value ∧ value.toList.length < MAXVALUE
  pairs : ∀ m ∈ o.members, m.text.length ≤ MAXNAMEVALUE
  whole : o.text.length < MAXJSONMESSAGE

def validName (name : String) : Bool := name.toList.all isValidNameChar

structure Object.Readable (o : Object) : Prop where
  count : o.members.length ≤ 8
  names : ∀ m ∈ o.members, validName m.name = true
  present : ∀ m ∈ o.members, m.value ≠ .null
  version : ∀ major minor, o = jsonZcbVersion major minor →
    ('r' :: decimal major ++ '.' :: decimal minor).length < 20

def NamesValid (members : List Member) : Prop := ∀ m ∈ members, validName m.name = true

def NamesAll (ok : String → Bool) (members : List Member) : Prop := ∀ m ∈ members, ok m.name = true

section

variable {ok : String → Bool}

theorem NamesAll.append {xs ys : List Member} (hxs : NamesAll ok xs) (hys : NamesAll ok ys)
    : NamesAll ok (xs ++ ys) := List.forall_mem_append.mpr ⟨hxs, hys⟩

theorem NamesAll.cons {m : Member} {members : List Member} (hm : ok m.name = true)
    (hmembers : NamesAll ok members)
    : NamesAll ok (m :: members) := List.forall_mem_cons.mpr ⟨hm, hmembers⟩

theorem namesAll_nil : NamesAll ok [] := List.forall_mem_nil _

theorem namesAll_ifString {name : String} (h : ok name = true) (value : Option String)
    : NamesAll ok (ifString name value) := by
  cases value with
  | none => exact namesAll_nil
  | some value => exact namesAll_nil.cons h

theorem namesAll_ifInt {name : String} (h : ok name = true) (present : Bool) (value : Int32)
    : NamesAll ok (ifInt present name value) := by
  cases present with
  | false => exact namesAll_nil
  | true => exact namesAll_nil.cons h

end

theorem validName_stringOrNull (name : String) (value : Option String)
    : (stringOrNull name value).name = name := by
  cases value with
  | none => rfl
  | some value => rfl

variable {rgb2xy kelvin2xy : Int32 → Int32 × Int32} {o : Object}

/--
What the constructors have in common. All names but the label of `jsonTls` are constants of name
characters.
-/
structure Object.Shaped (o : Object) : Prop where
  name : validName o.name = true
  short : o.name.toList.length < MAXNAME
  members : o.members ≠ []
  names : NamesValid o.members ∨ ∃ label val, o = jsonTls label val
  overrun : o.overrun = false ∨ ∃ major minor, o = jsonZcbVersion major minor

/--
A name of at least two name characters.
-/
def longName (name : String) : Bool := validName name && 2 ≤ name.toList.length

theorem built_names (h : Built rgb2xy kelvin2xy o)
    : longName o.name = true ∧ o.name.toList.length < MAXNAME ∧ o.members ≠ []
        ∧ (NamesAll longName o.members ∨ ∃ label val, o = jsonTls label val)
        ∧ (o.overrun = false ∨ ∃ major minor, o = jsonZcbVersion major minor) := by
  cases h with
  | jsonTls label val =>
    exact ⟨by dsimp only [jsonTls]; decide, by dsimp only [jsonTls]; decide,
      List.cons_ne_nil _ _, .inr ⟨label, val, rfl⟩, .inl rfl⟩
  | jsonZcbVersion major minor =>
    refine ⟨by dsimp only [jsonZcbVersion, jsonZcbString]; decide,
      by dsimp only [jsonZcbVersion, jsonZcbString]; decide, List.cons_ne_nil _ _,
      .inl (namesAll_nil.cons ?_), .inr ⟨major, minor, rfl⟩⟩
    dsimp only [string]
    decide
  | _ =>
    dsimp only [
    jsonCmd, jsonCmdString, jsonZcb, jsonZcbString, jsonCmdGetStatus, jsonZcbStatus, jsonZcbLog,
    jsonCmdReset, jsonZcbResetRsp, jsonCmdResetRsp, jsonCmdStartNetwork, jsonZcbStartRsp,
    jsonCmdErase, jsonCmdSystem, jsonZcbAnnounce, jsonCmdGetVersion,
    jsonCmdNfcmode, jsonCmdSetExtPan, jsonCmdSetChannelMask, jsonZcbChanMaskRsp, jsonZcbChanRsp,
    jsonCmdSetDeviceType, jsonCmdGetPermitJoin, jsonZcbRspPermitJoin, jsonCmdSetPermitJoin,
    jsonCmdAuthorizeRequest, jsonZcbAuthorizeResponse, jsonLinkInfo, jsonJoinSecure,
    jsonManager, jsonUI, jsonUiCtrl, jsonSensor, jsonPump, jsonLampInternal, jsonLamp,
    jsonLamp_xyY, jsonPlug, jsonPlugCmd, jsonAct, jsonControl, jsonLampToZigbee, jsonGroup,
    jsonClimateWater, jsonClimateBurner, jsonClimateCooler, jsonTp, jsonTopoClear,
    jsonTopoClearTopo, jsonTopoEnd, jsonTopoGet, jsonTopoUpload, jsonTopoStatus,
    jsonTopoAddDevice, jsonTopoAddManager, jsonTopoAddUI, jsonTopoAddSensor, jsonTopoAddPump,
    jsonTopoAddPlug, jsonTopoAddLamp, jsonTopoAddNone, jsonTopoResponse, jsonTunnelOpen,
    jsonTunnelClose, jsonDbGet, jsonDbGetRoom, jsonDbGetBegin, jsonDbGetEnd, jsonDbEditAdd,
    jsonDbEditRem, jsonDbEditClr, jsonLampGroup, jsonGwProperties, jsonProcStart, jsonProcStop,
    jsonProcRestart]
    refine ⟨by decide, by decide, by simp, .inl ?_, .inl rfl⟩
    repeat' split
    all_goals
      repeat'
        first
        | with_reducible exact namesAll_nil
        | with_reducible apply NamesAll.append
        | with_reducible apply namesAll_ifInt
        | with_reducible apply namesAll_ifString
        | with_reducible apply NamesAll.cons
    all_goals
      try dsimp only [int, string]
      try rw [validName_stringOrNull]
      decide

theorem NamesAll.valid {members : List Member} (h : NamesAll longName members) : NamesValid members := by
  intro m hm
  exact (Bool.and_eq_true_iff.mp (h m hm)).1

theorem built_shaped (h : Built rgb2xy kelvin2xy o) : o.Shaped := by
  obtain ⟨hname, hshort, hmembers, hnames, hoverrun⟩ := built_names h
  exact ⟨(Bool.and_eq_true_iff.mp hname).1, hshort, hmembers, hnames.imp_left NamesAll.valid, hoverrun⟩

theorem length_digits_le (value : Int32) : (Nat.toDigits 10 value.toInt.natAbs).length ≤ 10 := by
  have hle := Int32.le_toInt value
  have hlt := Int32.toInt_lt value
  rw [Nat.length_toDigits_le_iff (by decide) (by decide)]
  omega

theorem length_decimal_le (value : Int32) : (decimal value).length ≤ 11 := by
  have hlength := length_digits_le value
  unfold decimal
  split
  . rw [List.length_cons]
    omega
  . omega

theorem exists_numeral (value : Int32)
    : ∃ n : Numeral, n.text = decimal value ∧ n.value = value.toInt := by
  have hdigits : ∀ c ∈ Nat.toDigits 10 value.toInt.natAbs, isNum c = true := by
    intro c hc
    have := Nat.isDigit_of_mem_toDigits (by decide) (by decide) hc
    simp only [Char.isDigit, Bool.and_eq_true, decide_eq_true_eq] at this
    simp only [isNum, Bool.and_eq_true, decide_eq_true_eq]
    exact this
  have hlength := length_digits_le value
  have hvalue : Nat.ofDigitChars 10 (Nat.toDigits 10 value.toInt.natAbs) 0 = value.toInt.natAbs :=
    Nat.ofDigitChars_ten_toDigits
  by_cases hneg : value.toInt < 0
  . refine ⟨⟨.minus, _, hdigits, Nat.toDigits_ne_nil, ?_⟩, ?_, ?_⟩
    . simp only [Sign.text, List.cons_append, List.nil_append, List.length_cons, MAXVALUE]
      omega
    . rw [decimal, if_pos hneg]
      rfl
    . show -(Nat.ofDigitChars 10 _ 0 : Int) = _
      rw [hvalue]
      omega
  . refine ⟨⟨.none, _, hdigits, Nat.toDigits_ne_nil, ?_⟩, ?_, ?_⟩
    . simp only [Sign.text, List.nil_append, MAXVALUE]
      omega
    . rw [decimal, if_neg hneg]
      rfl
    . show (Nat.ofDigitChars 10 _ 0 : Int) = _
      rw [hvalue]
      omega

theorem stringText_of_clean {text : List Char} (h : ∀ c ∈ text, c ≠ '"' ∧ c ≠ '\\' ∧ c ≠ NUL)
    : StringText text := by
  induction text with
  | nil => exact .nil
  | cons c text ih =>
    obtain ⟨⟨hquote, hslash, hnul⟩, hrest⟩ := List.forall_mem_cons.mp h
    exact .plain hquote hslash hnul (ih hrest)

theorem exists_value (m : Member)
    (hvalid : ∀ value, m.value = .string value →
      StringText value.toList ∧ value.toList.length < MAXVALUE)
    : ∃ v : Value, v.isContainer = false ∧ v.tokens = [m.value.text]
        ∧ v.events Numeral.value m.name.toList = [m.event] ∧ ∀ n ∈ v.numerals, n.IsInt := by
  obtain ⟨name, value⟩ := m
  cases value with
  | int value =>
    obtain ⟨n, htext, hvalue⟩ := exists_numeral value
    refine ⟨.integer n, rfl, ?_, ?_, ?_⟩
    . rw [Value.tokens, htext]
      rfl
    . rw [Value.events, hvalue]
      rfl
    . intro i hi
      obtain rfl := List.mem_singleton.mp hi
      rw [Numeral.IsInt, hvalue]
      exact ⟨Int32.le_toInt value, Int32.toInt_lt value⟩
  | string value =>
    obtain ⟨htext, hshort⟩ := hvalid value rfl
    exact ⟨.string ⟨value.toList, htext, hshort⟩, rfl, rfl, rfl,
      fun n hn => absurd hn List.not_mem_nil⟩
  | null =>
    refine ⟨.string ⟨"(null)".toList, stringText_of_clean ?_, by decide⟩, rfl, ?_, rfl,
      fun n hn => absurd hn List.not_mem_nil⟩
    . decide
    . show [quoted "(null)".toList] = ["\"(null)\"".toList]
      decide

def memberTokens : List Member → List (List Char)
  | [] => []
  | [m] => [quoted m.name.toList, [':'], m.value.text]
  | m :: members =>
    [quoted m.name.toList, [':'], m.value.text] ++ [[',']] ++ memberTokens members

theorem exists_members {ms : List Member} (hne : ms ≠ []) (hvalid : NamesValid ms)
    (hnames : ∀ m ∈ ms, m.name.toList.length < MAXNAME)
    (hvalues : ∀ m ∈ ms, ∀ value, m.value = .string value →
      StringText value.toList ∧ value.toList.length < MAXVALUE)
    : ∃ members : Members, members.Flat ∧ members.count = ms.length
        ∧ members.tokens = memberTokens ms
        ∧ members.events Numeral.value = ms.map Member.event
        ∧ ∀ n ∈ members.numerals, n.IsInt := by
  induction ms with
  | nil => exact absurd rfl hne
  | cons m ms ih =>
    obtain ⟨hvalid, hvalid'⟩ := List.forall_mem_cons.mp hvalid
    obtain ⟨hname, hnames'⟩ := List.forall_mem_cons.mp hnames
    obtain ⟨hvalue, hvalues'⟩ := List.forall_mem_cons.mp hvalues
    obtain ⟨v, hscalar, htokens, hevents, hint⟩ := exists_value m hvalue
    let name : Name := ⟨m.name.toList, List.all_eq_true.mp hvalid, hname⟩
    cases ms with
    | nil =>
      refine ⟨.one name v, .one hscalar, rfl, ?_, hevents, hint⟩
      rw [Members.tokens, htokens]
      rfl
    | cons m' ms =>
      obtain ⟨rest, hflat, hcount, htokens', hevents', hint'⟩ :=
        ih (List.cons_ne_nil m' ms) hvalid' hnames' hvalues'
      refine ⟨.more name v rest, .more hscalar hflat, ?_, ?_, ?_, ?_⟩
      . rw [Members.count, hcount]
        rfl
      . rw [Members.tokens, htokens, htokens']
        rfl
      . rw [Members.events, hevents']
        show v.events Numeral.value m.name.toList ++ _ = _
        rw [hevents]
        rfl
      . intro n hn
        rcases List.mem_append.mp hn with hn | hn
        . exact hint n hn
        . exact hint' n hn

theorem spaced_member (m : Member)
    : Spaced (isWhiteSpace · = true) [quoted m.name.toList, [':'], m.value.text] (' ' :: m.text) := by
  have hblank : ∀ c ∈ [' '], isWhiteSpace c = true := by decide
  have hnone : ∀ c ∈ ([] : List Char), isWhiteSpace c = true := by simp
  have htext : ' ' :: m.text
      = [' '] ++ quoted m.name.toList ++ ([] ++ [':'] ++ ([] ++ m.value.text ++ [])) := by
    simp [Member.text, quoted]
  rw [htext]
  exact .cons hblank (.cons hnone (.cons hnone .nil))

theorem spaced_members {ms : List Member} (hne : ms ≠ [])
    : Spaced (isWhiteSpace · = true) (memberTokens ms) (' ' :: membersText ms) := by
  induction ms with
  | nil => exact absurd rfl hne
  | cons m ms ih =>
    cases ms with
    | nil => exact spaced_member m
    | cons m' ms =>
      have hcomma : Spaced (isWhiteSpace · = true) [[',']] ([] ++ [','] ++ []) :=
        .cons (by simp) .nil
      have hall := ((spaced_member m).append hcomma).append (ih (List.cons_ne_nil m' ms))
      have htext : ' ' :: membersText (m :: m' :: ms)
          = ' ' :: m.text ++ [','] ++ (' ' :: membersText (m' :: ms)) := by
        simp [membersText]
      rw [htext]
      exact hall

theorem catString_eq {string jsonMessage : List Char}
    (h : (jsonMessage ++ string).length < MAXJSONMESSAGE)
    : catString string jsonMessage = jsonMessage ++ string := by
  rw [List.length_append] at h
  rw [catString, if_pos h]

theorem catMembers_eq {ms : List Member} {jsonMessage : List Char}
    (h : (jsonMessage ++ membersText ms).length < MAXJSONMESSAGE)
    : catMembers ms jsonMessage = jsonMessage ++ membersText ms := by
  induction ms generalizing jsonMessage with
  | nil => exact (List.append_nil jsonMessage).symm
  | cons m ms ih =>
    cases ms with
    | nil => exact catString_eq h
    | cons m' ms =>
      have htext : jsonMessage ++ membersText (m :: m' :: ms)
          = jsonMessage ++ m.text ++ ", ".toList ++ membersText (m' :: ms) := by
        simp [membersText]
      rw [htext] at h ⊢
      have hpair : (jsonMessage ++ m.text ++ ", ".toList).length < MAXJSONMESSAGE := by
        rw [List.length_append] at h
        omega
      have hmember : (jsonMessage ++ m.text).length < MAXJSONMESSAGE := by
        rw [List.length_append] at hpair
        omega
      rw [catMembers, catNameValue, catString_eq hmember, catString_eq hpair, ih h]
      simp

theorem message_eq (h : o.text.length < MAXJSONMESSAGE) : o.message = o.text := by
  unfold Object.text at h ⊢
  have hmembers := h
  rw [List.length_append] at hmembers
  replace hmembers := Nat.lt_of_le_of_lt (Nat.le_add_right _ _) hmembers
  have hopen := hmembers
  rw [List.length_append] at hopen
  replace hopen := Nat.lt_of_le_of_lt (Nat.le_add_right _ _) hopen
  have hname := hopen
  rw [List.length_append] at hname
  replace hname := Nat.lt_of_le_of_lt (Nat.le_add_right _ _) hname
  have hcat : catName o.name [] = '"' :: o.name.toList ++ ['"'] := catString_eq hname
  unfold Object.message
  dsimp only
  rw [hcat, catString_eq hopen, catMembers_eq hmembers, catString_eq h]

theorem length_text (o : Object)
    : o.text.length = o.name.toList.length + (membersText o.members).length + 10 := by
  have hopen : " : \x7b ".toList.length = 5 := by decide
  have hclose : " \x7d\n".toList.length = 3 := by decide
  simp only [Object.text, List.length_append, List.length_cons, List.length_nil]
  omega

theorem length_memberText (m : Member)
    : m.text.length = m.name.toList.length + m.value.text.length + 3 := by
  simp only [Member.text, List.length_append, List.length_cons, List.length_nil]
  omega

theorem length_membersText_le (ms : List Member)
    : (membersText ms).length ≤ (ms.map fun m => m.text.length + 2).sum := by
  have hcomma : ", ".toList.length = 2 := by decide
  induction ms with
  | nil => exact Nat.le_refl _
  | cons m ms ih =>
    rw [List.map_cons, List.sum_cons]
    cases ms with
    | nil =>
      rw [membersText]
      omega
    | cons m' ms =>
      simp only [membersText, List.length_append] at ih ⊢
      omega

theorem length_stringText (value : String)
    : (Arg.string value).text.length = value.toList.length + 2 := by
  have hquoted (text : List Char) : ('"' :: text ++ ['"']).length = text.length + 2 := by
    rw [List.length_append, List.length_cons, List.length_singleton]
  exact hquoted value.toList

def Object.tokens (o : Object) : List (List Char) :=
  [quoted o.name.toList, [':'], ['{']] ++ memberTokens o.members ++ [['}']]

theorem spaced_object (hne : o.members ≠ [])
    : ∃ body, o.text = body ++ ['\n'] ∧ Spaced (isWhiteSpace · = true) o.tokens body := by
  have hblank : ∀ c ∈ [' '], isWhiteSpace c = true := by decide
  have hopen : Spaced (isWhiteSpace · = true) [quoted o.name.toList, [':'], ['{']]
      ([] ++ quoted o.name.toList ++ ([' '] ++ [':'] ++ ([' '] ++ ['{'] ++ []))) :=
    .cons (by simp) (.cons hblank (.cons hblank .nil))
  have hclose : Spaced (isWhiteSpace · = true) [['}']] ([' '] ++ ['}'] ++ []) :=
    .cons hblank .nil
  refine ⟨_, ?_, (hopen.append (spaced_members hne)).append hclose⟩
  simp [Object.text, quoted]

theorem reads_name_failed {opened : List (Kind × List Char)} {states : List State}
    {events : List Event} {n : Nat} {text : List Char} (hn : n ≤ events.length)
    (hquote : '"' ∉ text) (hshort : text.length < MAXNAME)
    (hinvalid : ¬ ∀ c ∈ text, isValidNameChar c = true)
    : Reads (At .toName opened states events) [quoted text] (Failed n) := by
  refine eats_token (blank_at rfl) ?_
  intro p h
  have hsplit : text.takeWhile isValidNameChar ++ text.dropWhile isValidNameChar = text :=
    List.takeWhile_append_dropWhile
  have hdrop : text.dropWhile isValidNameChar ≠ [] := by
    rwa [ne_eq, List.dropWhile_eq_nil_iff]
  obtain ⟨c, rest, hcons⟩ := List.exists_cons_of_ne_nil hdrop
  have hc : isValidNameChar c = false := by
    have := List.head?_dropWhile_not isValidNameChar text
    rw [hcons] at this
    simpa using this
  have hne : c ≠ '"' := by
    rintro rfl
    apply hquote
    rw [← hsplit, hcons]
    exact List.mem_append_right _ List.mem_cons_self
  have hleft : ∀ d ∈ text.takeWhile isValidNameChar, isValidNameChar d = true :=
    fun d hd => List.mem_takeWhile_imp hd
  rw [hcons] at hsplit
  generalize text.takeWhile isValidNameChar = left at hsplit hleft
  subst hsplit
  have hlog := h.log '"'
  have heat : jsonEat p '"' = setState .inName (p.log '"') := by
    apply jsonEat_once
    simp [eatOnce, hlog.state_eq]
  have hat : At .inName opened states events (jsonEat p '"') := by
    rw [heat]
    exact at_setState hlog rfl rfl (by decide) fun _ => hlog.slash (by decide)
  have hempty : NameIs [] (jsonEat p '"') := by
    rw [heat]
    apply nameIs_inName
  have hlen : ([] ++ left).length < MAXNAME := by
    rw [List.length_append] at hshort
    rw [List.nil_append]
    omega
  obtain ⟨hat', -⟩ := exec_name hat hempty hleft hlen
  have hquoted : quoted (left ++ c :: rest) = '"' :: (left ++ c :: (rest ++ ['"'])) := by
    simp [quoted]
  rw [hquoted, exec_cons, exec_append, exec_cons]
  refine Failed.keeps ?_ (keeps_run _ _)
  show Failed n (jsonEat (exec eatStep (jsonEat p '"') left) c)
  generalize exec eatStep (jsonEat p '"') left = q at hat'
  have hlog' := hat'.log c
  have herr : jsonEat q c = jsonError .parseIllName (q.log c) := by
    apply jsonEat_once
    simp [eatOnce, hlog'.state_eq, hne, hc]
  rw [herr]
  apply failed_jsonError
  rwa [hlog'.events_eq]

theorem trace_misnamed {m : Member} {name : Name} (p : ParserData)
    (hname : o.name.toList = name.text) (hmembers : o.members = [m]) (hclean : Clean m.name)
    (hshort : m.name.toList.length < MAXNAME) (hinvalid : validName m.name ≠ true)
    : ∃ e ∈ trace eatStep (jsonReset p) o.text, e.isError = true := by
  obtain ⟨body, htext, hbody⟩ := spaced_object (o := o) (by simp [hmembers])
  have htokens : o.tokens = [quoted name.text, [':']] ++ [[Kind.object.opening]]
      ++ [quoted m.name.toList] ++ [[':'], m.value.text, ['}']] := by
    rw [Object.tokens, hname, hmembers]
    rfl
  have hstart : Reads (At .none [] [] p.events) [quoted name.text, [':']]
      (Ready [] [.none] p.events name.text) := Eats.append (reads_docName name) reads_column
  have hopen := Eats.append hstart (reads_open (by decide) (by decide) .object)
  have hquote : '"' ∉ m.name.toList := fun hmem => (hclean _ hmem).1 rfl
  have hle : p.events.length ≤ (p.events ++ [Kind.object.start name.text]).length := by
    rw [List.length_append]
    omega
  have hfailed := Eats.append hopen (reads_name_failed hle hquote hshort
    (fun hvalid => hinvalid (List.all_eq_true.mpr hvalid)))
  have hall := Eats.append hfailed (eats_of_step failed_jsonEat [[':'], m.value.text, ['}']])
  rw [← htokens] at hall
  obtain ⟨e, he, herr⟩ := ((hall _ (at_jsonReset p) body hbody).keeps (keeps_run _ ['\n'])).error
  rw [← exec_append, ← htext, events_exec, show (jsonReset p).events = p.events from rfl,
    List.drop_left] at he
  exact ⟨e, he, herr⟩

theorem events_isError (o : Object) : ∀ e ∈ o.events, e.isError = false := by
  intro e he
  simp only [Object.events, List.cons_append, List.mem_cons, List.mem_append, List.mem_map,
    List.not_mem_nil, or_false] at he
  rcases he with rfl | ⟨m, -, rfl⟩ | rfl
  . rfl
  . obtain ⟨name, value⟩ := m
    cases value with
    | int | string | null => rfl
  . rfl

/--
The message is a JSON text and is built within the buffers.
-/
structure Object.IsJson (o : Object) : Prop where
  names : NamesValid o.members
  short : ∀ m ∈ o.members, m.name.toList.length < MAXNAME
  values : ∀ m ∈ o.members, ∀ value, m.value = .string value → StringText value.toList
  pairs : ∀ m ∈ o.members, m.text.length ≤ MAXNAMEVALUE
  whole : o.text.length < MAXJSONMESSAGE

theorem Object.InLimits.isJson (h : o.InLimits) (hnames : NamesValid o.members) : o.IsJson where
  names := hnames
  short := fun m hm => (h.names m hm).2
  values := fun m hm value hvalue => stringText_of_clean (h.values m hm value hvalue).1
  pairs := h.pairs
  whole := h.whole

theorem Object.IsJson.value_short (h : o.IsJson) {m : Member} (hm : m ∈ o.members) {value : String}
    (hvalue : m.value = .string value)
    : value.toList.length < MAXVALUE := by
  have hpair := h.pairs m hm
  rw [length_memberText, hvalue, length_stringText] at hpair
  simp only [MAXNAMEVALUE, MAXVALUE] at hpair ⊢
  omega

theorem exists_doc (h : o.Shaped) (hjson : o.IsJson)
    : ∃ (name : Name) (members : Members), members.Flat ∧ members.count = o.members.length
        ∧ (∀ n ∈ members.numerals, n.IsInt) ∧ Doc.tokens ⟨some name, members⟩ = o.tokens
        ∧ Doc.IsText ⟨some name, members⟩ o.text
        ∧ Doc.events Numeral.value ⟨some name, members⟩
            = .objectStart o.name.toList :: o.members.map Member.event
                ++ [.objectComplete o.name.toList] := by
  obtain ⟨members, hflat, hcount, htokens, hevents, hint⟩ :=
    exists_members h.members hjson.names hjson.short
      fun m hm value hvalue => ⟨hjson.values m hm value hvalue, hjson.value_short hm hvalue⟩
  obtain ⟨body, htext, hbody⟩ := spaced_object h.members
  let name : Name := ⟨o.name.toList, List.all_eq_true.mp h.name, h.short⟩
  have heq : Doc.tokens ⟨some name, members⟩ = o.tokens := by
    simp [Doc.tokens, Value.tokens, htokens, Object.tokens, name, Kind.opening, Kind.closing]
  refine ⟨name, members, hflat, hcount, hint, heq, ⟨body, ['\n'], htext, ?_, by decide⟩, ?_⟩
  . rw [heq]
    exact hbody
  . simp [Doc.events, Value.events, Doc.nameText, Kind.start, Kind.complete, hevents, name]

theorem trace_named (p : ParserData) (h : o.Shaped) (hnames : NamesValid o.members)
    (hlimits : o.InLimits)
    : (trace eatStep (jsonReset p) o.text
          = .objectStart o.name.toList :: o.members.map Member.event
            ++ [.objectComplete o.name.toList]
        ∧ o.members.length ≤ 8)
      ∨ (∃ e ∈ trace eatStep (jsonReset p) o.text, e.isError = true) ∧ 8 < o.members.length := by
  obtain ⟨name, members, hflat, hcount, hint, -, htext, hevents⟩ :=
    exists_doc h (hlimits.isJson hnames)
  have hresult := flatDoc_trace name hflat hint p htext
  rwa [hevents, hcount] at hresult

/--
Between two messages nothing is left of the first.
-/
theorem reads_named {events : List Event} {p : ParserData} (hp : At .none [] [] events p)
    (h : o.Shaped) (hnames : NamesValid o.members) (hlimits : o.InLimits)
    (hcount : o.members.length ≤ 8)
    : At .none [] []
        (events ++ (.objectStart o.name.toList :: o.members.map Member.event
          ++ [.objectComplete o.name.toList])) (exec eatStep p o.text) := by
  obtain ⟨name, members, hflat, hlength, hint, -, htext, hevents⟩ :=
    exists_doc h (hlimits.isJson hnames)
  rw [← hlength] at hcount
  rw [← hevents]
  exact flatDoc_reads name hflat hcount hint hp htext

/--
Within the limits, the parser reads a message right exactly if no more than eight members are
present, the names are names, no value is a `NULL` and a version fits in its buffer.
-/
theorem agrees_iff_readable (h : Built rgb2xy kelvin2xy o) (hlimits : o.InLimits) (p : ParserData)
    : o.Agrees p ↔ o.Readable := by
  have hshaped := built_shaped h
  have hmessage := message_eq hlimits.whole
  have hnoerror : ∀ e ∈ trace eatStep (jsonReset p) o.text, o.Agrees p → e.isError = false := by
    intro e he hagrees
    rw [← hmessage, hagrees.events] at he
    exact events_isError o e he
  constructor
  . intro hagrees
    have hnames : NamesValid o.members := by
      rcases hshaped.names with hnames | ⟨label, val, rfl⟩
      . exact hnames
      . by_contra hno
        have hinvalid : validName (string label val).name ≠ true := by
          intro hvalid
          apply hno
          exact namesAll_nil.cons hvalid
        obtain ⟨hclean, hshort⟩ := hlimits.names (string label val) List.mem_cons_self
        let name : Name := ⟨_, List.all_eq_true.mp hshaped.name, hshaped.short⟩
        have hname : (jsonTls label val).name.toList = name.text := rfl
        obtain ⟨e, he, herr⟩ := trace_misnamed p hname rfl hclean hshort hinvalid
        rw [hnoerror e he hagrees] at herr
        cases herr
    rcases trace_named p hshaped hnames hlimits with ⟨htrace, hcount⟩ | ⟨⟨e, he, herr⟩, -⟩
    . refine ⟨hcount, hnames, ?_, ?_⟩
      . have hevents := hagrees.events
        rw [hmessage, htrace, Object.events] at hevents
        have hmap := List.append_cancel_right (List.cons.inj hevents).2
        have hlength := congrArg List.length hmap
        rw [List.length_map, List.length_map] at hlength
        intro m hm
        have := List.length_filter_eq_length_iff.mp hlength.symm m hm
        simpa using this
      . rintro major minor rfl
        exact Nat.lt_of_not_le (of_decide_eq_false hagrees.built)
    . rw [hnoerror e he hagrees] at herr
      cases herr
  . intro hreadable
    rcases trace_named p hshaped hreadable.names hlimits with ⟨htrace, -⟩ | ⟨-, hcount⟩
    . have hbuilt : o.overrun = false := by
        rcases hshaped.overrun with hoverrun | ⟨major, minor, rfl⟩
        . exact hoverrun
        . exact decide_eq_false (Nat.not_le_of_lt (hreadable.version major minor rfl))
      refine ⟨hbuilt, ?_⟩
      have hfilter : o.members.filter (fun m => m.value != .null) = o.members := by
        rw [List.filter_eq_self]
        intro m hm
        simpa using hreadable.present m hm
      rw [hmessage, htrace, Object.events, hfilter]
    . exact absurd hreadable.count (Nat.not_le_of_lt hcount)

/--
The members are `id`, `mac`, `nm`, `rm` and `jnd`.
-/
theorem agrees_iff_readable_manager
    : (jsonManager 1 "00158D0001020304" (some "boiler") 2 none 1).Agrees .init := by
  have hbuilt : Built (fun _ => (0, 0)) (fun _ => (0, 0))
      (jsonManager 1 "00158D0001020304" (some "boiler") 2 none 1) := .jsonManager ..
  apply (agrees_iff_readable hbuilt ?_ .init).mpr
  . refine ⟨by decide, by decide, by decide, ?_⟩
    intro major minor heq
    have hname : "manager" = "zcb" := congrArg Object.name heq
    exact absurd hname (by decide)
  . refine ⟨by unfold Clean; decide, ?_, by decide, by decide⟩
    intro m hm value hvalue
    have hstrings : value = "00158D0001020304" ∨ value = "boiler" := by
      simp [jsonManager, ifInt, ifString, int, string] at hm
      rcases hm with ⟨-, rfl⟩ | rfl | rfl | ⟨-, rfl⟩ | ⟨-, rfl⟩ <;> simp_all
    rcases hstrings with rfl | rfl <;> (unfold Clean; decide)

/--
A sensor with nine of its members. The eighth comma makes the parser report an internal error.
-/
theorem nineMembers_not_agrees
    : ¬ ∀ o, Built (fun _ => (0, 0)) (fun _ => (0, 0)) o → o.InLimits → o.Agrees .init := by
  intro h
  have hagrees := h
    (jsonSensor 1 "00158D0001020304" (some "hall") 2 3 2150 48 (-1) (-1) 30 (-1) (-1) Int32.minValue
      Int32.minValue Int32.minValue 1) (.jsonSensor ..) ?_
  . have hevents := hagrees.events
    revert hevents
    decide +kernel
  . refine ⟨by unfold Clean; decide +kernel, ?_, by decide +kernel, by decide +kernel⟩
    intro m hm value hvalue
    have hstrings : value = "00158D0001020304" ∨ value = "hall" := by
      simp [jsonSensor, ifInt, ifString, int, string] at hm
      rcases hm with ⟨-, rfl⟩ | rfl | rfl | ⟨-, rfl⟩ | ⟨-, rfl⟩ | ⟨-, rfl⟩ | ⟨-, rfl⟩ | ⟨-, rfl⟩
        | ⟨-, rfl⟩ <;> simp_all
    rcases hstrings with rfl | rfl <;> (unfold Clean; decide)

end Json
