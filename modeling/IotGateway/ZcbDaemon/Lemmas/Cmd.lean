import IotGateway.Lib.Machine
import IotGateway.NfcDaemon.Lemmas.Commission
import IotGateway.ZcbDaemon.Impl.Cmd
import Mathlib.Data.List.TakeWhile

/-!
This module says which `cmd` messages lead to a request that depends on nothing but the message. Of
a link key that is short or not there, the end is that of an earlier one.
-/

namespace ZcbDaemon

open Json NfcDaemon CString Machine

/--
A member of a message.
-/
inductive MessageMember where
  | string (name : String) (value : List Char)
  | integer (name : String) (value : Int)

def MessageMember.event : MessageMember → Event
  | .string name value => .string name.toList value
  | .integer name value => .integer name.toList value

def cmdMessage (members : List MessageMember) : List Event :=
  .objectStart "cmd".toList :: members.map MessageMember.event ++ [.objectComplete "cmd".toList]

def NodeMessage.isRequest : NodeMessage → Bool
  | .authenticateDeviceRequest _ _ => true
  | _ => false

/--
The requests that are sent for a message after the events `history`, of which the first follows the
start of the daemon.
-/
def requests (env : NodeAnswers) (history : List Event) (members : List MessageMember)
    : List NodeMessage :=
  (trace (zcbCallback env) (exec (zcbCallback env) {} history) (cmdMessage members)).filter NodeMessage.isRequest

/--
What a member is to the message.
-/
def MessageMember.hear (attrs : Attrs) : MessageMember → Attrs
  | .string name value =>
    match stringMaxlens.lookup name with
    | some maxlen =>
      if (cvalue value).length ≤ maxlen then
        attrs.parsingStringAttr name (String.ofList (cvalue value))
      else
        attrs
    | none => attrs
  | .integer name value =>
    if name ∈ intNames then attrs.parsingIntAttr name (Int32.ofInt value) else attrs

def heard (members : List MessageMember) : Attrs := members.foldl MessageMember.hear Attrs.parsingReset

/--
The message authorizes a device, and no erased node stops it from doing so.
-/
def Authorizes (env : NodeAnswers) (members : List MessageMember) : Prop :=
  (heard members).parsingGetStringAttr "authorize" ≠ ""
    ∧ ¬ ((heard members).parsingGetIntAttr "reset" = 0 ∧ env.eraseNoMessage ∧ ¬ env.eraseStatus)

/--
All of the key is in the message, but for its last digit.
-/
def KeyGiven (members : List MessageMember) : Prop :=
  ∃ value, .string "linkkey" value ∈ members ∧ 31 ≤ (cvalue value).length
    ∧ (cvalue value).length ≤ 32

def MessageMember.store (t : AttrTable) : MessageMember → AttrTable
  | .string name value => parsingStringAttr name value t
  | .integer name value => parsingIntAttr name (Int32.ofInt value) t

section

variable {t : AttrTable} {attrs : Attrs} (env : NodeAnswers)

theorem exec_members (t : AttrTable) (members : List MessageMember)
    : exec (zcbCallback env) t (members.map MessageMember.event) = members.foldl MessageMember.store t := by
  induction members generalizing t with
  | nil => rfl
  | cons m members ih =>
    rw [List.map_cons, exec_cons, ih]
    have hstore : (zcbCallback env t m.event).1 = m.store t := by
      cases m <;> simp only [MessageMember.event, zcbCallback, String.ofList_toList, MessageMember.store]
    rw [hstore, List.foldl_cons]

theorem trace_members (t : AttrTable) (members : List MessageMember)
    : trace (zcbCallback env) t (members.map MessageMember.event) = [] := by
  induction members generalizing t with
  | nil => rfl
  | cons m members ih =>
    rw [List.map_cons, trace_cons, ih]
    cases m <;> rfl

/--
The attributes with which the handler of a message is called.
-/
def handled (members : List MessageMember) (t : AttrTable) : AttrTable :=
  members.foldl MessageMember.store t.parsingReset

theorem trace_cmdMessage (t : AttrTable) (members : List MessageMember)
    : trace (zcbCallback env) t (cmdMessage members) = cmdHandle env (handled members t) := by
  simp only [cmdMessage, List.cons_append, trace_cons, trace_append, trace_members, exec_members,
    zcbCallback, if_true, trace_nil, List.append_nil, List.nil_append]
  rfl

theorem filter_cmdHandle (t : AttrTable)
    : (cmdHandle env t).filter NodeMessage.isRequest
      = if t.ints "reset" = 0 ∧ env.eraseNoMessage ∧ ¬ env.eraseStatus then
          []
        else
          authenticate env.linkkey_hex t := by
  have hnone (p : Prop) [Decidable p] (m : NodeMessage) (hm : m.isRequest = false)
      : (if p then [m] else []).filter NodeMessage.isRequest = [] := by
    split
    . rw [List.filter_singleton, hm]
      rfl
    . rfl
  have hrequest : (authenticate env.linkkey_hex t).filter NodeMessage.isRequest
      = authenticate env.linkkey_hex t := by
    unfold authenticate
    simp only
    split
    . rfl
    . rfl
  have hpermit (u8Interval : UInt8)
      : (eSetPermitJoining env.permitOk u8Interval).filter NodeMessage.isRequest = [] := by
    unfold eSetPermitJoining
    rw [List.filter_cons_of_neg Bool.false_ne_true]
    exact hnone _ _ rfl
  unfold cmdHandle
  simp only
  split
  . next h =>
    rw [if_pos h.1]
    rfl
  . have hsetpermit (p : Prop) [Decidable p] (u8Interval : UInt8)
        : (if p then eSetPermitJoining env.permitOk u8Interval else []).filter NodeMessage.isRequest
          = [] := by
      split
      . exact hpermit u8Interval
      . rfl
    simp only [List.filter_append, hrequest, hsetpermit]
    rw [hnone _ .erasePersistentData rfl, hnone _ .reset rfl, hnone _ .startNetwork rfl,
      hnone _ .getVersion rfl, hnone _ .getPermitJoin rfl, hnone _ (.setChannelmask _) rfl]
    simp only [List.nil_append, List.append_nil]

/--
What is behind the end of a string does not count for the integers and the strings.
-/
theorem holds_store (h : Holds t attrs) (m : MessageMember) : Holds (m.store t) (m.hear attrs) := by
  cases m with
  | string name value =>
    simp only [MessageMember.store, parsingStringAttr, MessageMember.hear]
    cases hlookup : stringMaxlens.lookup name with
    | none => exact h
    | some maxlen =>
      simp only
      split
      . next hlen =>
        have hmax : maxlen ≤ MAXSTRINGVALUE := by
          have hall : ∀ entry ∈ stringMaxlens, entry.2 ≤ MAXSTRINGVALUE := by decide
          obtain ⟨before, after, hlist, -⟩ := List.lookup_eq_some_iff.mp hlookup
          apply hall (name, maxlen)
          rw [hlist]
          exact List.mem_append_right before List.mem_cons_self
        have hnul : NUL ∉ cvalue value := by
          intro hmem
          simpa using List.mem_takeWhile_imp hmem
        exact h.parsingStringAttr _ hnul (Nat.le_trans hlen hmax)
      . exact h
  | integer name value =>
    simp only [MessageMember.store, parsingIntAttr, MessageMember.hear]
    split
    . exact h.parsingIntAttr _ _
    . exact h

theorem holds_handled (members : List MessageMember) (t : AttrTable)
    : Holds (handled members t) (heard members) := by
  have hfold (members : List MessageMember) {t : AttrTable} {attrs : Attrs} (h : Holds t attrs)
      : Holds (members.foldl MessageMember.store t) (members.foldl MessageMember.hear attrs) := by
    induction members generalizing t attrs with
    | nil => exact h
    | cons m members ih => exact ih (holds_store h m)
  exact hfold members (holds_parsingReset t)

/--
The address in a request, if the message names one.
-/
def authorizedMac (attrs : Attrs) : UInt64 :=
  ((attrs.parsingGetStringAttr "authorize").toList.take 16).foldl
    (fun u64 c => (u64 <<< 4) + UInt64.ofNat (nibble2num c)) 0

def authorizedKey (linkkey_hex : Vector UInt8 16) (t : AttrTable) : Vector UInt8 16 :=
  nibblestr2hex linkkey_hex (some (t.strings "linkkey")) 32

theorem authenticate_eq (linkkey_hex : Vector UInt8 16) (h : Holds t attrs)
    : authenticate linkkey_hex t
      = if attrs.parsingGetStringAttr "authorize" ≠ "" then
          [.authenticateDeviceRequest (authorizedMac attrs) (authorizedKey linkkey_hex t)]
        else
          [] := by
  obtain ⟨hstr, -⟩ := h.strings "authorize"
  have hmac : nibblestr2u64 (t.strings "authorize") = authorizedMac attrs := by
    rw [nibblestr2u64, hstr.cstr_take]
    rfl
  have hempty : t.strings "authorize" 0 ≠ NUL ↔ attrs.parsingGetStringAttr "authorize" ≠ "" := by
    exact not_congr (hstr.head_eq_nul_iff.trans String.toList_eq_nil_iff)
  unfold authenticate
  simp only [hempty, hmac]
  rfl

theorem requests_eq (history : List Event) (members : List MessageMember)
    : (requests env history members = [] ∧ ¬ Authorizes env members)
      ∨ (Authorizes env members
        ∧ requests env history members
          = [.authenticateDeviceRequest (authorizedMac (heard members))
              (authorizedKey env.linkkey_hex (handled members (exec (zcbCallback env) {} history)))]) := by
  have hholds := holds_handled members (exec (zcbCallback env) {} history)
  unfold requests Authorizes
  rw [trace_cmdMessage, filter_cmdHandle, hholds.ints, authenticate_eq env.linkkey_hex hholds]
  split
  . next h => exact .inl ⟨rfl, fun hauth => hauth.2 h⟩
  . next h =>
    split
    . next hne => exact .inr ⟨⟨hne, h⟩, rfl⟩
    . next hempty => exact .inl ⟨rfl, fun hauth => hempty hauth.1⟩

theorem getElem_authorizedKey (linkkey_hex : Vector UInt8 16) (t : AttrTable) (i : Nat) (hi : i < 16)
    : (authorizedKey linkkey_hex t)[i]
      = UInt8.ofNat (16 * nibble2num (t.strings "linkkey" (2 * i))
          + nibble2num (t.strings "linkkey" (2 * i + 1))) := by
  have hsize : ¬(16 < 32 / 2 ∨ 32 % 2 = 1) := by decide
  have hleading : 16 - 32 / 2 = 0 := rfl
  simp only [authorizedKey, nibblestr2hex, hsize, if_false, hleading, Nat.not_lt_zero, Nat.sub_zero,
    Vector.getElem_ofFn]

theorem authorizedKey_congr (linkkey_hex : Vector UInt8 16) {t t' : AttrTable}
    (h : ∀ i ≤ 31, t.strings "linkkey" i = t'.strings "linkkey" i)
    : authorizedKey linkkey_hex t = authorizedKey linkkey_hex t' := by
  apply Vector.ext
  intro i hi
  rw [getElem_authorizedKey, getElem_authorizedKey, h (2 * i) (by omega), h (2 * i + 1) (by omega)]

theorem last_of_authorizedKey_eq {linkkey_hex : Vector UInt8 16} {t t' : AttrTable}
    (h : authorizedKey linkkey_hex t = authorizedKey linkkey_hex t')
    : nibble2num (t.strings "linkkey" 31) = nibble2num (t'.strings "linkkey" 31) := by
  have hbyte : (authorizedKey linkkey_hex t)[15] = (authorizedKey linkkey_hex t')[15] := by rw [h]
  rw [getElem_authorizedKey, getElem_authorizedKey] at hbyte
  have hnat := congrArg UInt8.toNat hbyte
  rw [UInt8.toNat_ofNat', UInt8.toNat_ofNat'] at hnat
  simp only [Nat.reduceMul, Nat.reduceAdd] at hnat
  have hhigh := nibble2num_lt (t.strings "linkkey" 30)
  have hhigh' := nibble2num_lt (t'.strings "linkkey" 30)
  have hlow := nibble2num_lt (t.strings "linkkey" 31)
  have hlow' := nibble2num_lt (t'.strings "linkkey" 31)
  omega

end

section

variable {t t' : AttrTable}

theorem lookup_linkkey : stringMaxlens.lookup "linkkey" = some 32 := by decide

theorem store_linkkey (value : List Char) (t : AttrTable) (i : Nat)
    : ((MessageMember.string "linkkey" value).store t).strings "linkkey" i
      = if (cvalue value).length ≤ 32 then
          (cvalue value ++ [NUL])[i]?.getD (t.strings "linkkey" i)
        else
          t.strings "linkkey" i := by
  simp only [MessageMember.store, parsingStringAttr, lookup_linkkey]
  split
  . exact congrFun (Function.update_self "linkkey" _ t.strings) i
  . rfl

theorem store_other {m : MessageMember} (h : ∀ value, m ≠ .string "linkkey" value) (t : AttrTable)
    : (m.store t).strings "linkkey" = t.strings "linkkey" := by
  cases m with
  | string name value =>
    have hname : "linkkey" ≠ name := fun heq => h value (by rw [heq])
    simp only [MessageMember.store, parsingStringAttr]
    split
    . split
      . exact Function.update_of_ne hname _ _
      . rfl
    . rfl
  | integer name value =>
    simp only [MessageMember.store, parsingIntAttr]
    split
    . rfl
    . rfl

theorem store_agrees (m : MessageMember) {i : Nat}
    (h : t.strings "linkkey" i = t'.strings "linkkey" i)
    : (m.store t).strings "linkkey" i = (m.store t').strings "linkkey" i := by
  by_cases hkey : ∃ value, m = .string "linkkey" value
  . obtain ⟨value, rfl⟩ := hkey
    rw [store_linkkey, store_linkkey, h]
  . have hother (value : List Char) : m ≠ .string "linkkey" value := fun heq => hkey ⟨value, heq⟩
    rw [store_other hother, store_other hother, h]

theorem foldl_store_agrees (members : List MessageMember) {i : Nat}
    (h : t.strings "linkkey" i = t'.strings "linkkey" i)
    : (members.foldl MessageMember.store t).strings "linkkey" i
      = (members.foldl MessageMember.store t').strings "linkkey" i := by
  induction members generalizing t t' with
  | nil => exact h
  | cons m members ih => exact ih (store_agrees m h)

/--
A key that is given overwrites all that is read.
-/
theorem handled_agrees {members : List MessageMember} (hkey : KeyGiven members) (t t' : AttrTable) {i : Nat}
    (hi : i ≤ 31)
    : (handled members t).strings "linkkey" i = (handled members t').strings "linkkey" i := by
  obtain ⟨value, hmem, hge, hle⟩ := hkey
  obtain ⟨before, after, rfl⟩ := List.append_of_mem hmem
  simp only [handled, List.foldl_append, List.foldl_cons]
  apply foldl_store_agrees
  have hlt : i < (cvalue value ++ [NUL]).length := by
    rw [List.length_append, List.length_singleton]
    omega
  rw [store_linkkey, store_linkkey, if_pos hle, if_pos hle, List.getElem?_eq_getElem hlt]
  rfl

/--
What is not overwritten stays also when the attributes are reset.
-/
theorem handled_last {members : List MessageMember} (hkey : ¬ KeyGiven members) (t : AttrTable)
    : (handled members t).strings "linkkey" 31 = t.strings "linkkey" 31 := by
  have hfold (members : List MessageMember) (hkey : ¬ KeyGiven members) (t : AttrTable)
      : (members.foldl MessageMember.store t).strings "linkkey" 31 = t.strings "linkkey" 31 := by
    induction members generalizing t with
    | nil => rfl
    | cons m members ih =>
      have hrest : ¬ KeyGiven members := by
        rintro ⟨value, hmem, hlen⟩
        exact hkey ⟨value, List.mem_cons_of_mem m hmem, hlen⟩
      rw [List.foldl_cons, ih hrest]
      by_cases hm : ∃ value, m = .string "linkkey" value
      . obtain ⟨value, rfl⟩ := hm
        rw [store_linkkey]
        split
        . next hle =>
          have hlt : (cvalue value).length < 31 := by
            by_contra hge
            exact hkey ⟨value, List.mem_cons_self, Nat.le_of_not_lt hge, hle⟩
          have hend : (cvalue value ++ [NUL]).length ≤ 31 := by
            rw [List.length_append, List.length_singleton]
            omega
          rw [List.getElem?_eq_none hend, Option.getD_none]
        . rfl
      . rw [store_other fun value heq => hm ⟨value, heq⟩]
  rw [handled, hfold members hkey]
  exact Function.update_of_ne (show 31 ≠ 0 by decide) NUL (t.strings "linkkey")

end

/--
A message that came before.
-/
def earlierKey : List Event :=
  [.objectStart "cmd".toList, .string "linkkey".toList (List.replicate 32 'F'),
    .objectComplete "cmd".toList]

theorem request_isolated_iff (env : NodeAnswers) (members : List MessageMember)
    : (∀ history history' : List Event,
        requests env history members = requests env history' members)
      ↔ (Authorizes env members → KeyGiven members) := by
  constructor
  . intro h hauth
    by_contra hkey
    have heq := h [] earlierKey
    rcases requests_eq env [] members with ⟨-, hnot⟩ | ⟨-, hfirst⟩
    . exact hnot hauth
    rcases requests_eq env earlierKey members with ⟨-, hnot⟩ | ⟨-, hlater⟩
    . exact hnot hauth
    rw [hfirst, hlater] at heq
    injection heq with hrequest
    injection hrequest with _ hkeys
    have hlast := last_of_authorizedKey_eq hkeys
    rw [handled_last hkey, handled_last hkey] at hlast
    have hfresh : nibble2num ((exec (zcbCallback env) {} []).strings "linkkey" 31) = 0 := by
      show nibble2num NUL = 0
      decide
    have hstale : nibble2num ((exec (zcbCallback env) {} earlierKey).strings "linkkey" 31) = 15 := by
      simp only [earlierKey, exec_cons, exec_nil, zcbCallback]
      decide
    rw [hfresh, hstale] at hlast
    cases hlast
  . intro h history history'
    rcases requests_eq env history members with ⟨hnone, hnot⟩ | ⟨hauth, hrequest⟩
    . rcases requests_eq env history' members with ⟨hnone', -⟩ | ⟨hauth', -⟩
      . rw [hnone, hnone']
      . exact absurd hauth' hnot
    . rcases requests_eq env history' members with ⟨-, hnot'⟩ | ⟨-, hrequest'⟩
      . exact absurd hauth hnot'
      . rw [hrequest, hrequest', authorizedKey_congr _ fun i => handled_agrees (h hauth) _ _]

/--
A device without a link key gets the key of another one, but for its first digit.
-/
theorem staleKey_not_isolated
    : ¬ ∀ (env : NodeAnswers) (members : List MessageMember) (history history' : List Event),
        requests env history members = requests env history' members := by
  intro h
  have heq := h {} [.string "authorize" "00158D0000350123".toList] [] earlierKey
  have hfresh : requests {} [] [.string "authorize" "00158D0000350123".toList]
      = [.authenticateDeviceRequest 0x00158D0000350123 (.replicate 16 0)] := by
    decide
  have hstale : requests {} earlierKey [.string "authorize" "00158D0000350123".toList]
      = [.authenticateDeviceRequest 0x00158D0000350123 ⟨#[0x0F, 0xFF, 0xFF, 0xFF, 0xFF, 0xFF, 0xFF,
          0xFF, 0xFF, 0xFF, 0xFF, 0xFF, 0xFF, 0xFF, 0xFF, 0xFF], rfl⟩] := by
    decide
  rw [hfresh, hstale] at heq
  revert heq
  decide

end ZcbDaemon
