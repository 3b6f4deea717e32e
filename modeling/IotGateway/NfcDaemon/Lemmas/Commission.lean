import IotGateway.Json.Lemmas.Callbacks
import IotGateway.NfcDaemon.Impl.Commission

/-!
This module says when a node gets a join command with the network data that the secure joiner has
sent for it.
-/

namespace NfcDaemon

open Json CString Machine

/--
The attributes of the object that is being received, as its members give them.
-/
def hear (attrs : Attrs) : Event → Attrs
  | .objectStart _ => Attrs.parsingReset
  | .string name value =>
    match stringMaxlens.lookup (String.ofList name) with
    | some maxlen =>
      if value.length ≤ maxlen then
        attrs.parsingStringAttr (String.ofList name) (String.ofList value)
      else
        attrs
    | none => attrs
  | .integer name value =>
    if String.ofList name ∈ intAttrs then
      attrs.parsingIntAttr (String.ofList name) (Int32.ofInt value)
    else
      attrs
  | .objectComplete _ => attrs
  | .arrayStart _ => attrs
  | .arrayComplete _ => attrs
  | .error _ _ _ => attrs

/--
The object that is being received, and the last complete one of the name "joinsecure".
-/
structure Hearing where
  attrs : Attrs := Attrs.parsingReset
  object : Option Attrs := none

def Hearing.callback (h : Hearing) (e : Event) : Hearing :=
  match e with
  | .objectComplete name =>
    if String.ofList name = "joinsecure" then { h with object := some h.attrs } else h
  | e => { h with attrs := hear h.attrs e }

/--
The object that the secure joiner has sent in answer to the request.
-/
def received (joiner : Joiner) (parser : ParserData) : Option Attrs :=
  if joiner.opened ∧ joiner.written then
    (readLoop Hearing.callback (fun h => h.object.isSome) joiner.answer
      (jsonReset parser, {})).2.object
  else
    none

/--
The string has two nibbles for each byte.
-/
def IsHex {n : Nat} (string : List Char) (hex : Vector UInt8 n) : Prop :=
  string.length = n * 2 ∧ ∀ i, (hi : i < n) →
    hex[i].toNat = 16 * nibble2num (string.getD (2 * i) '0')
      + nibble2num (string.getD (2 * i + 1) '0')

/--
The network data are those of an object.
-/
structure Carries (object : Attrs) (secjoin : Secjoin) : Prop where
  channel : (object.parsingGetIntAttr "chan").toInt = secjoin.channel.toNat
  keyseq : (object.parsingGetIntAttr "keyseq").toInt = secjoin.keyseq.toNat
  pan : AtoiHex (object.parsingGetStringAttr "pan").toList = secjoin.pan.toNat
  extpan : IsHex (object.parsingGetStringAttr "extpan").toList secjoin.extpan
  nwkey : IsHex (object.parsingGetStringAttr "nwkey").toList secjoin.nwkey
  mic : IsHex (object.parsingGetStringAttr "mic").toList secjoin.mic
  tcaddr : IsHex (object.parsingGetStringAttr "tcaddr").toList secjoin.tcaddr

/--
An object has all network data, each in its size.
-/
structure WellFormed (object : Attrs) : Prop where
  channel : 0 ≤ (object.parsingGetIntAttr "chan").toInt
    ∧ (object.parsingGetIntAttr "chan").toInt < 256
  keyseq : 0 ≤ (object.parsingGetIntAttr "keyseq").toInt
    ∧ (object.parsingGetIntAttr "keyseq").toInt < 256
  pan : 0 ≤ AtoiHex (object.parsingGetStringAttr "pan").toList
    ∧ AtoiHex (object.parsingGetStringAttr "pan").toList < 65536
  extpan : (object.parsingGetStringAttr "extpan").toList.length = LEN_EXTPAN * 2
  nwkey : (object.parsingGetStringAttr "nwkey").toList.length = LEN_NWKEY * 2
  mic : (object.parsingGetStringAttr "mic").toList.length = LEN_MIC * 2
  tcaddr : (object.parsingGetStringAttr "tcaddr").toList.length = LEN_TCADDR * 2

instance decidableWellFormed (object : Attrs) : Decidable (WellFormed object) :=
  decidable_of_iff
    ((0 ≤ (object.parsingGetIntAttr "chan").toInt ∧ (object.parsingGetIntAttr "chan").toInt < 256)
      ∧ (0 ≤ (object.parsingGetIntAttr "keyseq").toInt
        ∧ (object.parsingGetIntAttr "keyseq").toInt < 256)
      ∧ (0 ≤ AtoiHex (object.parsingGetStringAttr "pan").toList
        ∧ AtoiHex (object.parsingGetStringAttr "pan").toList < 65536)
      ∧ (object.parsingGetStringAttr "extpan").toList.length = LEN_EXTPAN * 2
      ∧ (object.parsingGetStringAttr "nwkey").toList.length = LEN_NWKEY * 2
      ∧ (object.parsingGetStringAttr "mic").toList.length = LEN_MIC * 2
      ∧ (object.parsingGetStringAttr "tcaddr").toList.length = LEN_TCADDR * 2)
    ⟨fun ⟨h1, h2, h3, h4, h5, h6, h7⟩ => ⟨h1, h2, h3, h4, h5, h6, h7⟩,
      fun ⟨h1, h2, h3, h4, h5, h6, h7⟩ => ⟨h1, h2, h3, h4, h5, h6, h7⟩⟩

theorem wellFormed_of_carries {object : Attrs} {secjoin : Secjoin} (h : Carries object secjoin)
    : WellFormed object where
  channel := by
    have hlt := secjoin.channel.toNat_lt
    have hchannel := h.channel
    omega
  keyseq := by
    have hlt := secjoin.keyseq.toNat_lt
    have hkeyseq := h.keyseq
    omega
  pan := by
    have hlt := secjoin.pan.toNat_lt
    have hpan := h.pan
    omega
  extpan := h.extpan.1
  nwkey := h.nwkey.1
  mic := h.mic.1
  tcaddr := h.tcaddr.1

/--
The table holds the attributes, and whatever there is behind the ends of the strings.
-/
structure Holds (t : AttrTable) (attrs : Attrs) : Prop where
  ints : ∀ name, t.ints name = attrs.parsingGetIntAttr name
  strings : ∀ name, IsStr NUL (t.strings name) 0 (attrs.parsingGetStringAttr name).toList
    ∧ (attrs.parsingGetStringAttr name).toList.length ≤ MAXSTRINGVALUE

section

variable {t : AttrTable} {attrs : Attrs}

theorem holds_parsingReset (t : AttrTable) : Holds t.parsingReset Attrs.parsingReset where
  ints _ := rfl
  strings _ := ⟨isStr_update_nul _ 0, Nat.zero_le _⟩

theorem Holds.parsingIntAttr (h : Holds t attrs) (name : String) (value : Int32)
    : Holds { t with ints := Function.update t.ints name value }
        (attrs.parsingIntAttr name value) where
  ints attr := by
    simp only [Attrs.parsingIntAttr, Function.update_apply, h.ints]
  strings := h.strings

theorem le_of_stringMaxlens {name : String} {maxlen : Nat}
    (h : stringMaxlens.lookup name = some maxlen)
    : maxlen ≤ MAXSTRINGVALUE := by
  have hall : ∀ entry ∈ stringMaxlens, entry.2 ≤ MAXSTRINGVALUE := by decide
  obtain ⟨before, after, hlist, -⟩ := List.lookup_eq_some_iff.mp h
  apply hall (name, maxlen)
  rw [hlist]
  exact List.mem_append_right before List.mem_cons_self

theorem Holds.parsingStringAttr (h : Holds t attrs) (name : String) {value : List Char}
    (hnul : NUL ∉ value) (hlen : value.length ≤ MAXSTRINGVALUE)
    : Holds
        { t with
          strings := Function.update t.strings name fun i =>
            (value ++ [NUL])[i]?.getD (t.strings name i) }
        (attrs.parsingStringAttr name (String.ofList value)) where
  ints := h.ints
  strings attr := by
    simp only [Attrs.parsingStringAttr, Function.update_apply]
    split
    . simp only [String.toList_ofList]
      refine ⟨isStr_of_getElem hnul ?_, hlen⟩
      intro i hi
      have hi' : i < (value ++ [NUL]).length := by simpa using hi
      rw [Nat.zero_add, List.getElem?_eq_getElem hi', Option.getD_some, Option.getD_some]
    . exact h.strings attr

theorem Holds.callback {j : Joining} (h : Holds j.attrs attrs) {e : Event} (hterm : e.Terminated)
    : Holds (j.callback e).attrs (hear attrs e) := by
  cases e with
  | objectStart name => exact holds_parsingReset j.attrs
  | string name value =>
    simp only [Joining.callback, AttrTable.parsingStringAttr, hear]
    cases hlookup : stringMaxlens.lookup (String.ofList name) with
    | none => exact h
    | some maxlen =>
      simp only
      split
      . next hlen =>
        exact h.parsingStringAttr _ hterm (Nat.le_trans hlen (le_of_stringMaxlens hlookup))
      . exact h
  | integer name value =>
    simp only [Joining.callback, AttrTable.parsingIntAttr, hear]
    split
    . exact h.parsingIntAttr _ _
    . exact h
  | objectComplete name =>
    unfold Joining.callback hear
    simp only
    split
    . exact h
    . exact h
  | arrayStart _ | arrayComplete _ | error _ _ _ => exact h

end

/--
What the callbacks have stored is what has been heard. Before the first object the table is that of
an earlier request.
-/
structure Follows (secjoin : Secjoin) (started : Bool) (j : Joining) (h : Hearing) : Prop where
  attrs : started = true → Holds j.attrs h.attrs
  ready : j.ready = h.object.isSome
  joined : ∀ object ∈ h.object, ∃ t, Holds t object ∧ j.secjoin = secjoinOf t
  unset : h.object = none → j.secjoin = secjoin

section

variable {secjoin : Secjoin} {started : Bool} {j : Joining} {h : Hearing}

theorem Hearing.callback_attrs (h : Hearing) (e : Event)
    : (h.callback e).attrs = hear h.attrs e := by
  cases e with
  | objectComplete name =>
    simp only [Hearing.callback, hear]
    split <;> rfl
  | _ => rfl

theorem Follows.callback (hfollows : Follows secjoin started j h) {e : Event} (hterm : e.Terminated)
    (hcomplete : e.isComplete = true → started = true)
    : Follows secjoin (started || e.isStart) (j.callback e) (h.callback e) := by
  have hattrs : (started || e.isStart) = true →
      Holds (j.callback e).attrs (h.callback e).attrs := by
    intro hopened
    rw [Hearing.callback_attrs]
    rcases Bool.or_eq_true_iff.mp hopened with hstarted | hstart
    . exact (hfollows.attrs hstarted).callback hterm
    . cases e with
      | objectStart name => exact holds_parsingReset j.attrs
      | _ => cases hstart
  cases e with
  | objectComplete name =>
    simp only [Joining.callback, Hearing.callback] at hattrs ⊢
    have hholds : Holds j.attrs h.attrs := hfollows.attrs (hcomplete rfl)
    split
    . constructor
      . exact fun _ => hholds
      . rfl
      . intro object hobject
        obtain rfl := Option.some.inj hobject
        exact ⟨j.attrs, hholds, rfl⟩
      . nofun
    . exact ⟨fun _ => hholds, hfollows.ready, hfollows.joined, hfollows.unset⟩
  | _ => exact ⟨hattrs, hfollows.ready, hfollows.joined, hfollows.unset⟩

theorem Follows.foldl (hfollows : Follows secjoin started j h) {events : List Event}
    (hterm : ∀ e ∈ events, e.Terminated) (hstarted : Started started events)
    : Follows secjoin (started || events.any Event.isStart) (events.foldl Joining.callback j)
        (events.foldl Hearing.callback h) := by
  induction events generalizing started j h with
  | nil =>
    rw [List.any_nil, Bool.or_false]
    exact hfollows
  | cons e events ih =>
    obtain ⟨he, hrest⟩ := hstarted
    have hnext := hfollows.callback (hterm e List.mem_cons_self) he
    have hfold := ih hnext (fun e' he' => hterm e' (List.mem_cons_of_mem e he')) hrest
    rw [List.any_cons, ← Bool.or_assoc]
    exact hfold

end

theorem foldl_eat {σ : Type} (callback : σ → Event → σ) (p : ParserData) (s : σ)
    (text : List Char)
    : text.foldl (eat callback) (p, s)
      = (exec eatStep p text, (trace eatStep p text).foldl callback s) := by
  induction text generalizing p s with
  | nil => rfl
  | cons c text ih =>
    rw [List.foldl_cons, exec_cons, trace_cons, List.foldl_append]
    exact ih _ _

theorem readLoop_follows (secjoin : Secjoin) (parser : ParserData) (answer : List (List Char))
    (text : List Char) {j : Joining} {h : Hearing}
    (hfollows : Follows secjoin ((trace eatStep (jsonReset parser) text).any Event.isStart) j h)
    : ∃ started, Follows secjoin started
        (readLoop Joining.callback Joining.ready answer (exec eatStep (jsonReset parser) text, j)).2
        (readLoop Hearing.callback (fun h => h.object.isSome) answer
          (exec eatStep (jsonReset parser) text, h)).2 := by
  induction answer generalizing text j h with
  | nil => exact ⟨_, hfollows⟩
  | cons inputBuffer answer ih =>
    simp only [readLoop, ← hfollows.ready]
    split
    . exact ⟨_, hfollows⟩
    . rw [foldl_eat, foldl_eat, ← exec_append]
      apply ih (text ++ inputBuffer)
      obtain ⟨hstarted, hterm⟩ := started_trace parser (text ++ inputBuffer)
      rw [trace_append] at hstarted hterm ⊢
      rw [List.any_append]
      apply hfollows.foldl
      . exact fun e he => hterm e (List.mem_append_right _ he)
      . exact (started_append.mp hstarted).2

/--
The secure joiner is asked, and `commission` says that it has succeeded unless the request could not
be sent. What it returns is from the object that has been received, if there is one.
-/
theorem commission_spec (joiner : Joiner) (secjoin : Secjoin) (s : Commission)
    : (commission joiner secjoin s).2.2 = !(joiner.opened && !joiner.written)
      ∧ (∀ object ∈ received joiner s.parser,
        ∃ t, Holds t object ∧ (commission joiner secjoin s).2.1 = secjoinOf t)
      ∧ (received joiner s.parser = none → (commission joiner secjoin s).2.1 = secjoin)
      ∧ (commission joiner secjoin s).1.out_seqnr = s.out_seqnr := by
  unfold commission received
  by_cases hopened : joiner.opened
  . by_cases hwritten : joiner.written
    . simp only [hopened, hwritten, and_self, if_true]
      obtain ⟨started, hfollows⟩ := readLoop_follows secjoin s.parser joiner.answer []
        (j := { attrs := s.attrs, secjoin, ready := false }) (h := {})
        ⟨nofun, rfl, nofun, fun _ => rfl⟩
      exact ⟨rfl, hfollows.joined, hfollows.unset, trivial⟩
    . simp [hopened, hwritten]
  . simp [hopened]

theorem nibble2num_lt (c : Char) : nibble2num c < 16 := by
  have hle : ∀ a b : Char, a ≤ b ↔ a.toNat ≤ b.toNat := fun _ _ => Iff.rfl
  unfold nibble2num
  simp only [hle, Char.reduceToNat]
  split
  . omega
  . split
    . omega
    . split <;> omega

theorem Holds.getStringAttr0 {t : AttrTable} {object : Attrs} (h : Holds t object) {name : String}
    (hne : (object.parsingGetStringAttr name).toList ≠ [])
    : t.parsingGetStringAttr0 name = some (t.strings name) := by
  obtain ⟨hstr, -⟩ := h.strings name
  cases hlist : (object.parsingGetStringAttr name).toList with
  | nil => exact absurd hlist hne
  | cons c string =>
    rw [hlist] at hstr
    obtain ⟨hc, hnul, -⟩ := hstr
    rw [AttrTable.parsingGetStringAttr0, hc, if_neg hnul]

/--
A string in its full size does not run into what is behind it.
-/
theorem isHex_nibblestr2hex {t : AttrTable} {object : Attrs} (h : Holds t object) (name : String)
    {n : Nat} (hpos : 0 < n) (hlength : (object.parsingGetStringAttr name).toList.length = n * 2)
    : IsHex (object.parsingGetStringAttr name).toList
        (nibblestr2hex (zeros n) (t.parsingGetStringAttr0 name) (n * 2)) := by
  refine ⟨hlength, ?_⟩
  intro i hi
  obtain ⟨hstr, -⟩ := h.strings name
  have hne : (object.parsingGetStringAttr name).toList ≠ [] := by
    intro hnil
    rw [hnil] at hlength
    exact absurd hlength (by simp; omega)
  have hhigh := hstr.getD (i := 2 * i) (by omega) '0'
  have hlow := hstr.getD (i := 2 * i + 1) (by omega) '0'
  rw [Nat.zero_add] at hhigh hlow
  have hsize : ¬(n < n * 2 / 2 ∨ n * 2 % 2 = 1) := by omega
  have hleading : n - n * 2 / 2 = 0 := by omega
  rw [h.getStringAttr0 hne, ← hhigh, ← hlow]
  simp only [nibblestr2hex, hsize, if_false, hleading, Nat.not_lt_zero, Nat.sub_zero,
    Vector.getElem_ofFn]
  apply UInt8.toNat_ofNat_of_lt'
  have hlt := nibble2num_lt (t.strings name (2 * i))
  have hlt' := nibble2num_lt (t.strings name (2 * i + 1))
  show _ < 256
  omega

theorem uint8_ofInt {x : Int} (hnonneg : 0 ≤ x) (hlt : x < 256) : x = (UInt8.ofInt x).toNat := by
  rw [UInt8.ofInt, UInt8.toNat_ofNat']
  omega

theorem uint16_ofInt {x : Int} (hnonneg : 0 ≤ x) (hlt : x < 65536)
    : x = (UInt16.ofInt x).toNat := by
  rw [UInt16.ofInt, UInt16.toNat_ofNat']
  omega

theorem Holds.getStringAttr {t : AttrTable} {object : Attrs} (h : Holds t object) (name : String)
    : t.parsingGetStringAttr name = (object.parsingGetStringAttr name).toList := by
  obtain ⟨hstr, hlength⟩ := h.strings name
  exact hstr.cstr_eq (Nat.le_add_right_of_le hlength)

theorem carries_secjoinOf {t : AttrTable} {object : Attrs} (h : Holds t object)
    (hformed : WellFormed object)
    : Carries object (secjoinOf t) where
  channel := by
    simp only [secjoinOf, h.ints]
    exact uint8_ofInt hformed.channel.1 hformed.channel.2
  keyseq := by
    simp only [secjoinOf, h.ints]
    exact uint8_ofInt hformed.keyseq.1 hformed.keyseq.2
  pan := by
    simp only [secjoinOf, h.getStringAttr]
    exact uint16_ofInt hformed.pan.1 hformed.pan.2
  extpan := isHex_nibblestr2hex h "extpan" (by decide) hformed.extpan
  nwkey := isHex_nibblestr2hex h "nwkey" (by decide) hformed.nwkey
  mic := isHex_nibblestr2hex h "mic" (by decide) hformed.mic
  tcaddr := isHex_nibblestr2hex h "tcaddr" (by decide) hformed.tcaddr

/--
The message with a join command in it.
-/
def joinMessage (payload : Mem) (seqNr : UInt8) (secjoin : Secjoin) : Mem :=
  setIn payload (commissionIn seqNr COMMAND_JOIN (networkOf secjoin))

/--
The message is taken for one that has been handled already.
-/
def Known (env : Surroundings) (payload : Mem) (s : Commission) : Prop :=
  payload OUT_SEQNR = s.handled_seqnr ∧ s.prevNfcMode = env.nfcmode

instance decidableKnown (env : Surroundings) (payload : Mem) (s : Commission)
    : Decidable (Known env payload s) :=
  inferInstanceAs (Decidable (_ ∧ _))

/--
The object that is received in answer to the request for this message.
-/
def answered (env : Surroundings) (payload : Mem) (s : Commission) : Option Attrs :=
  if payload VERSION = COMMISSION_SUPPORTED_VERSION ∧ ¬Known env payload s then
    received env.joiner s.parser
  else
    none

/--
Only the network data of an object that has been received are written, and without one nothing is.
-/
def JoinsWithCredentials (env : Surroundings) (payload : Mem) (plen : Nat) (s : Commission)
    : Prop :=
  let handled := (commissionHandleNfc env payload plen s).2
  match answered env payload s with
  | some object =>
    (∀ message ∈ handled.written,
      ∃ seqNr secjoin, Carries object secjoin ∧ message = joinMessage payload seqNr secjoin)
      ∧ (handled.ret = 1 → handled.written.isSome = true)
  | none => handled.ret = 0 ∧ handled.tag = env.tag

/--
The message is not one that has been handled. The secure joiner sends an object with all network
data, or the request cannot be written to its socket, or the tag does not take a message that is
made of memory that is not initialized.
-/
def Credible (env : Surroundings) (payload : Mem) (plen : Nat) (s : Commission) : Prop :=
  payload VERSION = COMMISSION_SUPPORTED_VERSION →
    ¬Known env payload s
      ∧ match received env.joiner s.parser with
        | some object => WellFormed object
        | none =>
          (env.joiner.opened = true ∧ env.joiner.written = false)
            ∨ env.ndef_write (joinMessage payload s.out_seqnr env.secjoin) plen = (env.tag, 0)

section

variable {env : Surroundings} {s : Commission} (payload : Mem)

theorem commissionHandleNfc_join {payload : Mem} (hmode : env.nfcmode = NFC_MODE_COMMISSION)
    (hversion : payload VERSION = COMMISSION_SUPPORTED_VERSION) (hnew : ¬Known env payload s)
    (plen : Nat)
    : (commissionHandleNfc env payload plen s).2
      = (handleJoin env payload plen { s with prevNfcMode := env.nfcmode }).2 := by
  unfold Known at hnew
  unfold commissionHandleNfc handleMode
  rw [if_pos hversion, if_neg hnew, if_neg (by rw [hmode]; decide), if_neg (by rw [hmode]; decide),
    if_pos hmode]

theorem handleJoin_success (hsuccess : (commission env.joiner env.secjoin s).2.2 = true)
    (plen : Nat)
    : let message := joinMessage payload s.out_seqnr (commission env.joiner env.secjoin s).2.1
      let handled := (handleJoin env payload plen s).2
      handled.written = some message ∧ handled.tag = (env.ndef_write message plen).1
        ∧ handled.ret = if (env.ndef_write message plen).2 ≠ 0 then 1 else 0 := by
  obtain ⟨-, -, -, hseqnr⟩ := commission_spec env.joiner env.secjoin s
  rw [← hseqnr]
  unfold handleJoin
  simp only
  generalize commission env.joiner env.secjoin s = r at *
  obtain ⟨s', secjoin, success⟩ := r
  obtain rfl : success = true := hsuccess
  exact ⟨rfl, rfl, rfl⟩

theorem handleJoin_failure (hfailure : (commission env.joiner env.secjoin s).2.2 = false)
    (plen : Nat)
    : let handled := (handleJoin env payload plen s).2
      handled.written = none ∧ handled.tag = env.tag ∧ handled.ret = 0 := by
  unfold handleJoin
  simp only
  generalize commission env.joiner env.secjoin s = r at *
  obtain ⟨s', secjoin, success⟩ := r
  obtain rfl : success = false := hfailure
  exact ⟨rfl, rfl, rfl⟩

end

/--
In commission mode, a call writes a join command with the network data that have been received and
does nothing without them exactly if it is credible.
-/
theorem joinsWithCredentials_iff_credible (env : Surroundings) (payload : Mem) (plen : Nat)
    (s : Commission) (hmode : env.nfcmode = NFC_MODE_COMMISSION)
    : JoinsWithCredentials env payload plen s ↔ Credible env payload plen s := by
  unfold JoinsWithCredentials Credible answered
  by_cases hversion : payload VERSION = COMMISSION_SUPPORTED_VERSION
  . simp only [hversion, true_and, forall_const]
    by_cases hknown : Known env payload s
    . have hret : (commissionHandleNfc env payload plen s).2.ret = 1 := by
        unfold commissionHandleNfc
        rw [if_pos hversion, if_pos (show payload OUT_SEQNR = _ ∧ _ from hknown)]
      simp [hknown, hret]
    . simp only [hknown, not_false_eq_true, if_true, true_and]
      rw [commissionHandleNfc_join hmode hversion hknown]
      obtain ⟨hsuccess, hjoined, hunset, -⟩ :=
        commission_spec env.joiner env.secjoin { s with prevNfcMode := env.nfcmode }
      cases hrequest : env.joiner.opened && !env.joiner.written with
      | true =>
        rw [hrequest] at hsuccess
        obtain ⟨-, htag, hret⟩ := handleJoin_failure payload hsuccess plen
        obtain ⟨hopened, hwritten⟩ : env.joiner.opened = true ∧ env.joiner.written = false := by
          simpa using hrequest
        have hnothing : received env.joiner s.parser = none := by
          rw [received, if_neg (by simp [hwritten])]
        simp [hnothing, htag, hret, hopened, hwritten]
      | false =>
        rw [hrequest] at hsuccess
        obtain ⟨hwritten, htag, hret⟩ := handleJoin_success payload hsuccess plen
        cases hreceived : received env.joiner s.parser with
        | some object =>
          obtain ⟨t, ht, hsecjoin⟩ := hjoined object hreceived
          simp only [hwritten, hsecjoin]
          constructor
          . rintro ⟨hcarries, -⟩
            obtain ⟨_, _, hobject, -⟩ := hcarries _ rfl
            exact wellFormed_of_carries hobject
          . intro hformed
            refine ⟨?_, fun _ => rfl⟩
            rintro message hmessage
            obtain rfl := Option.some.inj hmessage
            exact ⟨_, _, carries_secjoinOf ht hformed, rfl⟩
        | none =>
          have hsecjoin := hunset hreceived
          have hsent : ¬(env.joiner.opened = true ∧ env.joiner.written = false) := by
            simpa using hrequest
          rw [hsecjoin] at htag hret
          simp only [hsent, false_or, htag, hret]
          constructor
          . rintro ⟨hfail, hsame⟩
            refine Prod.ext hsame ?_
            by_contra hne
            rw [if_pos hne] at hfail
            exact absurd hfail (by decide)
          . intro hfail
            refine ⟨?_, congrArg Prod.fst hfail⟩
            rw [hfail]
            rfl
  . have hignored : (commissionHandleNfc env payload plen s).2 = { ret := 0, tag := env.tag } := by
      rw [commissionHandleNfc, if_neg hversion]
    simp [hversion, hignored]

theorem credible_of_received {env : Surroundings} {payload : Mem} {plen : Nat} {s : Commission}
    (hnew : ¬Known env payload s)
    (h : (received env.joiner s.parser).any (fun object => WellFormed object) = true)
    : Credible env payload plen s := by
  intro _
  obtain ⟨object, hobject, hformed⟩ := (Option.any_eq_true _ _).mp h
  rw [hobject]
  exact ⟨hnew, of_decide_eq_true hformed⟩

/--
A message of a node that is to join.
-/
def nodeMessage : Mem := fun j => if j = VERSION then COMMISSION_SUPPORTED_VERSION else 0

def joinsecure : List Char :=
  "\x7b\"joinsecure\":\x7b\"chan\":25,\"keyseq\":0,\"pan\":\"1A62\",".toList
    ++ "\"extpan\":\"00158D0000000B01\",".toList
    ++ "\"nwkey\":\"00112233445566778899AABBCCDDEEFF\",\"mic\":\"01020304\",".toList
    ++ "\"tcaddr\":\"00158D0000000A01\"\x7d\x7d".toList

/--
A tag that takes every message, in commission mode.
-/
def atJoiner (joiner : Joiner) : Surroundings where
  nfcmode := NFC_MODE_COMMISSION
  joiner
  secjoin :=
    { channel := 0xAA, keyseq := 0xAA, pan := 0xAAAA, extpan := zeros LEN_EXTPAN,
      nwkey := zeros LEN_NWKEY, mic := zeros LEN_MIC, tcaddr := zeros LEN_TCADDR }
  tag := fun _ => 0
  ndefCache := fun _ => 0
  answer := fun _ => .done
  triggered := true
  garbage := fun _ => 0

def answering : Joiner where
  opened := true
  written := true
  answer := [joinsecure.take 100, joinsecure.drop 100]

theorem joinsWithCredentials_iff_credible_joinsecure
    : JoinsWithCredentials (atJoiner answering) nodeMessage 217 {} := by
  have hcredible : Credible (atJoiner answering) nodeMessage 217 {} :=
    credible_of_received (by decide) (by decide +kernel)
  rw [joinsWithCredentials_iff_credible _ _ _ _ rfl]
  exact hcredible

/--
If the secure joiner is not there then what has not been initialized is written to the tag.
-/
theorem unanswered_not_joinsWithCredentials
    : ¬JoinsWithCredentials (atJoiner { opened := false, written := false, answer := [] })
        nodeMessage 217 {} := by
  intro h
  have hnothing : ∀ payload s,
      answered (atJoiner { opened := false, written := false, answer := [] }) payload s = none := by
    simp [answered, received, atJoiner]
  simp only [JoinsWithCredentials, hnothing] at h
  obtain ⟨hret, -⟩ := h
  revert hret
  decide +kernel

end NfcDaemon
