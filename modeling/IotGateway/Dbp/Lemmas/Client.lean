import IotGateway.Dbp.Lemmas.Copy

/-!
This module says when the reply to a request of a DBP client does not depend on what the connection
has been used for before.
-/

namespace Dbp.Client

open Accesses Substring NewDb

section Query

variable {env : Env} {device : Device} {cmd : DBP_CMD} {mac text : Text}

/--
`query_handle` rejects it.
-/
def WrongMac (mac : Text) : Prop :=
  (mac.take MAC_STRING_LEN).length ≠ MAC_STRING_LEN ∧ mac.take MAC_STRING_LEN ≠ []

instance decidableWrongMac (mac : Text) : Decidable (WrongMac mac) :=
  inferInstanceAs (Decidable (_ ∧ _))

/--
If the answer is about a device, the table has it, and its name fits.
-/
def Known (env : Env) (cmd : DBP_CMD) (mac : Text) : Prop :=
  cmd = .LOCATION ∨ cmd = .STATE_REPORT → env.newDbOpen = true → ¬WrongMac mac →
    ∃ device, newDbGetDevice env.db (String.ofList (mac.take MAC_STRING_LEN)) = some device
      ∧ (cmd = .LOCATION → (location device).length < 20)

/--
The query writes to the output.
-/
def Writes (env : Env) (cmd : DBP_CMD) (mac : Text) : Prop :=
  cmd ≠ .UNKNOWN ∧ (WrongMac mac ∨ (env.newDbOpen = true ∧ cmd ≠ .KEEP_ALIVE
    ∧ (cmd = .SENSOR_NODES → env.node_list_flag = false)))

theorem query_wrong (h : WrongMac mac)
    : query_handle env device cmd mac = { output := some "dbp error mac\r\n".toList } :=
  if_pos h

theorem query_known (device : NewDb.Device) (hknown : Known env cmd mac)
    : query_handle env device cmd mac = query_handle env {} cmd mac
      ∧ Inside size (query_handle env device cmd mac).accesses := by
  unfold query_handle
  dsimp only
  split
  . exact ⟨rfl, inside_nil⟩
  next hmac =>
  split
  next hopen =>
    cases cmd with
    | LOCATION =>
      obtain ⟨found, hfound, hlength⟩ := hknown (.inl rfl) hopen hmac
      have hlength' := hlength rfl
      unfold getDevice
      rw [hfound]
      refine ⟨rfl, ?_⟩
      simp only [Option.getD_some, inside_cons, size, inside_nil, and_true]
      omega
    | STATE_REPORT =>
      obtain ⟨found, hfound, -⟩ := hknown (.inr rfl) hopen hmac
      unfold getDevice
      rw [hfound]
      exact ⟨rfl, inside_nil⟩
    | SENSOR_NODES =>
      dsimp only
      split
      . exact ⟨rfl, inside_nil⟩
      . exact ⟨rfl, inside_nil⟩
    | _ => exact ⟨rfl, inside_nil⟩
  . exact ⟨rfl, inside_nil⟩

theorem query_writes (h : Writes env cmd mac)
    : (query_handle env device cmd mac).output.isSome = true := by
  obtain ⟨hunknown, hmac | ⟨hopen, hkeep, hnodes⟩⟩ := h
  . rw [query_wrong hmac]
    rfl
  . unfold query_handle
    dsimp only
    split
    . rfl
    . cases cmd with
      | SENSOR_NODES =>
        dsimp only
        rw [hnodes rfl]
        rfl
      | UNKNOWN => exact absurd rfl hunknown
      | KEEP_ALIVE => exact absurd rfl hkeep
      | _ => rfl

theorem loc_ne_node : locText env mac device ≠ "dbp node".toList := by
  intro h
  have hstart : (locText env mac device).take 5 = "dbp l".toList := rfl
  rw [h] at hstart
  revert hstart
  decide

theorem state_ne_node : stateText env mac device ≠ "dbp node".toList := by
  intro h
  have hstart : (stateText env mac device).take 5 = "dbp s".toList := rfl
  rw [h] at hstart
  revert hstart
  decide

/--
Only the request for the nodes is answered so.
-/
theorem query_node (h : (query_handle env device cmd mac).output = some "dbp node".toList)
    : cmd = .SENSOR_NODES ∧ env.newDbOpen = true ∧ env.node_list_flag = false
      ∧ (query_handle env device cmd mac).nodes.isSome = true := by
  unfold query_handle at h ⊢
  dsimp only at h ⊢
  split at h
  . exact absurd h (by decide)
  next hmac =>
  rw [if_neg hmac]
  split at h
  next hopen =>
    rw [if_pos hopen]
    cases cmd with
    | LOCATION => exact absurd (Option.some_inj.mp h) loc_ne_node
    | STATE_REPORT => exact absurd (Option.some_inj.mp h) state_ne_node
    | SENSOR_NODES =>
      dsimp only at h ⊢
      split at h
      . cases h
      . next hflag =>
        rw [if_neg hflag]
        exact ⟨rfl, hopen, Bool.eq_false_iff.mpr hflag, rfl⟩
    | KEEP_ALIVE => cases h
    | UNKNOWN => cases h
    | _ =>
      dsimp only at h
      exact absurd h (by decide)
  . cases h

end Query

section Handler

variable {env : Env} {device : Device} {beyond text : Text} {request : Request} {buf : Buffer}
  {c c' : Vars} {x : Exchange} {reply : Reply}

def macOf (text : Text) : Text := ((command text).cmd_len.map (get_mac_address text)).getD []

theorem parse_query
    : (dbp_parse_data env device text 512 512).query
      = if check_dbp text = true ∧ (command text).cmd ≠ .UNKNOWN then
        query_handle env device (command text).cmd (macOf text)
      else
        {} := by
  unfold dbp_parse_data macOf
  rw [if_neg (by decide)]
  by_cases hcheck : check_dbp text = true
  . by_cases hunknown : (command text).cmd = .UNKNOWN
    . simp [hcheck, hunknown]
    . simp [hcheck, hunknown]
  . simp [hcheck]

theorem parse_extra
    : (dbp_parse_data env device text 512 512).extra
      = decide (check_dbp text = true ∧ (command text).cmd = .SENSOR_NODES) := by
  unfold dbp_parse_data
  rw [if_neg (by decide)]
  by_cases hcheck : check_dbp text = true
  . by_cases hunknown : (command text).cmd = .UNKNOWN
    . simp [hcheck, hunknown]
    . simp [hcheck, hunknown]
  . simp [hcheck]

/--
The text of a request, whatever else is in the buffer.
-/
def textOf (request : Request) : Text := untilNul request.bytes

/--
The request can be answered from what it says: it has an end, its MAC address can be copied, and the
device that it asks for is known.
-/
structure Plain (env : Env) (request : Request) : Prop where
  ended : request.bytes.length < 512 ∨ '\x00' ∈ request.bytes
  fits : check_dbp (textOf request) = true → CopyFits (textOf request)
  known : check_dbp (textOf request) = true →
    Known env (command (textOf request)).cmd (macOf (textOf request))

/--
Nothing that has been there before is left in the buffer and in the output.
-/
structure Overwrites (env : Env) (request : Request) : Prop where
  ended : '\x00' ∈ request.bytes
  check : check_dbp (textOf request) = true
  writes : Writes env (command (textOf request)).cmd (macOf (textOf request))

/--
The reply is the list of the nodes. Afterwards the buffer and the output are not cleared.
-/
structure AsksNodes (env : Env) (request : Request) : Prop where
  check : check_dbp (textOf request) = true
  cmd : (command (textOf request)).cmd = .SENSOR_NODES
  answered : env.newDbOpen = true ∧ env.node_list_flag = false

/--
The loop is as it was at its start.
-/
structure Quiet (c : Vars) : Prop where
  buf : c.buf = .zero
  output : c.output = []

/--
The reply on a new connection.
-/
def answer (env : Env) (request : Request) : Reply :=
  let query := (dbp_parse_data env {} (textOf request) 512 512).query
  match query.output with
  | none => { sent := [] }
  | some output =>
    if output = "dbp close".toList then
      { sent := [], closed := true }
    else if output = "dbp node".toList then
      { sent := query.nodes.getD [] }
    else
      { sent := output }

theorem recv_text
    (h : '\x00' ∈ request.bytes ∨ (buf = .zero ∧ request.bytes.length < 512))
    : (buf.recv request).text beyond = textOf request
      ∧ ((buf.recv request).text beyond).length < 512 := by
  have hbytes : (buf.recv request).bytes = request.bytes ++ buf.bytes.drop request.bytes.length :=
    rfl
  by_cases hmem : '\x00' ∈ request.bytes
  . have hnul : '\x00' ∈ (buf.recv request).bytes := by
      rw [hbytes]
      exact List.mem_append_left _ hmem
    obtain ⟨htext, hlength⟩ := text_of_mem hnul beyond
    refine ⟨?_, hlength⟩
    rw [htext, hbytes]
    exact (untilNul_append_of_mem hmem _).1
  . obtain ⟨rfl, hshort⟩ := h.resolve_left hmem
    have hnul : '\x00' ∈ (Buffer.zero.recv request).bytes := by
      rw [hbytes, drop_zero hshort]
      exact List.mem_append_right _ List.mem_cons_self
    obtain ⟨htext, hlength⟩ := text_of_mem hnul beyond
    refine ⟨?_, hlength⟩
    have hall : textOf request = request.bytes := untilNul_of_not_mem hmem
    rw [htext, hbytes, drop_zero hshort, untilNul_append_of_not_mem hmem, hall]
    exact List.append_nil _

theorem Plain.inside (h : Plain env request) (device : NewDb.Device)
    (htext : text = textOf request ∧ text.length < 512)
    : Inside size ((dbp_parse_data env device text 512 512).accesses
        ++ (dbp_parse_data env device text 512 512).query.accesses)
      ∧ (dbp_parse_data env device text 512 512).query
        = (dbp_parse_data env {} text 512 512).query := by
  obtain ⟨rfl, hlength⟩ := htext
  have hparse := (parse_inside_iff env device).mpr fun hcheck => ⟨hlength, h.fits hcheck⟩
  rw [inside_append, parse_query, parse_query]
  split
  . next hquery =>
    obtain ⟨hsame, hinside⟩ := query_known device (h.known hquery.1)
    exact ⟨⟨hparse, hinside⟩, hsame⟩
  . exact ⟨⟨hparse, inside_nil⟩, rfl⟩

theorem Overwrites.output (h : Overwrites env request) (device : NewDb.Device)
    : (dbp_parse_data env device (textOf request) 512 512).query.output.isSome = true := by
  rw [parse_query, if_pos ⟨h.check, h.writes.1⟩]
  exact query_writes h.writes

theorem parse_node
    (h : (dbp_parse_data env device text 512 512).query.output = some "dbp node".toList)
    : check_dbp text = true ∧ (command text).cmd = .SENSOR_NODES ∧ env.newDbOpen = true
      ∧ env.node_list_flag = false
      ∧ (dbp_parse_data env device text 512 512).query.nodes.isSome = true := by
  rw [parse_query] at h ⊢
  split at h
  . next hquery =>
    rw [if_pos hquery]
    exact ⟨hquery.1, query_node h⟩
  . cases h

/--
The reply is the one on a new connection if nothing is left over or all of it is overwritten.
-/
theorem reply_eq (hplain : Plain env request) (hstart : Quiet c ∨ Overwrites env request)
    : (dbp_client_handler c { env, request, device, beyond }).map Prod.fst
      = some (answer env request) := by
  have htext : (c.buf.recv request).text beyond = textOf request
      ∧ ((c.buf.recv request).text beyond).length < 512 := by
    apply recv_text
    rcases hstart with hquiet | hover
    . rcases hplain.ended with hshort | hnul
      . exact .inr ⟨hquiet.buf, hshort⟩
      . exact .inl hnul
    . exact .inl hover.ended
  obtain ⟨hinside, hquery⟩ := hplain.inside device htext
  unfold dbp_client_handler answer
  dsimp only
  rw [if_pos hinside, hquery, htext.1]
  cases houtput : (dbp_parse_data env {} (textOf request) 512 512).query.output with
  | none =>
    have hempty : c.output = [] := by
      rcases hstart with hquiet | hover
      . exact hquiet.output
      . have hsome := hover.output {}
        rw [houtput] at hsome
        cases hsome
    rw [Option.getD_none, hempty, if_neg (by decide), if_neg (by decide)]
    rfl
  | some output =>
    rw [Option.getD_some]
    dsimp only
    by_cases hclose : output = "dbp close".toList
    . rw [if_pos hclose, if_pos hclose]
      rfl
    by_cases hnode : output = "dbp node".toList
    . rw [hnode] at houtput
      obtain ⟨hcheck, hcmd, -, -, hnodes⟩ := parse_node houtput
      have hextra : (dbp_parse_data env device (textOf request) 512 512).extra = true := by
        rw [parse_extra]
        exact decide_eq_true ⟨hcheck, hcmd⟩
      obtain ⟨nodes, hnodes⟩ := Option.isSome_iff_exists.mp hnodes
      rw [if_neg hclose, if_pos hnode, if_neg hclose, if_pos hnode, hextra, Bool.or_true, hnodes]
      rfl
    . rw [if_neg hclose, if_neg hnode, if_neg hclose, if_neg hnode]
      rfl

/--
The whole request is seen if the text ends in the buffer.
-/
theorem request_of_text (hlength : ((buf.recv request).text beyond).length < 512)
    : request.bytes.length < 512 ∨ '\x00' ∈ request.bytes := by
  by_cases hnul : '\x00' ∈ request.bytes
  . exact .inr hnul
  . left
    have htext : (buf.recv request).text beyond
        = request.bytes ++ untilNul (buf.bytes.drop request.bytes.length ++ beyond) := by
      rw [← untilNul_append_of_not_mem hnul, ← List.append_assoc]
      rfl
    rw [htext, List.length_append] at hlength
    omega

theorem text_of_start (hstart : Quiet c ∨ Overwrites env request)
    (hlength : ((c.buf.recv request).text beyond).length < 512)
    : (c.buf.recv request).text beyond = textOf request := by
  refine (recv_text ?_).1
  rcases hstart with hquiet | hover
  . rcases request_of_text hlength with hshort | hnul
    . exact .inr ⟨hquiet.buf, hshort⟩
    . exact .inl hnul
  . exact .inl hover.ended

/--
What is in the output then has been written by this request.
-/
theorem output_of_start (hstart : Quiet c ∨ Overwrites env request)
    (h : (dbp_parse_data env device ((c.buf.recv request).text beyond) 512 512).query.output.getD
      c.output = "dbp node".toList)
    : (dbp_parse_data env device ((c.buf.recv request).text beyond) 512 512).query.output
      = some "dbp node".toList := by
  cases houtput : (dbp_parse_data env device ((c.buf.recv request).text beyond) 512
      512).query.output with
  | some output =>
    rw [houtput] at h
    rw [← h]
    rfl
  | none =>
    rw [houtput] at h
    rcases hstart with hquiet | hover
    . rw [hquiet.output] at h
      exact absurd h (by decide)
    . have hsome := hover.output device
      rw [(recv_text (.inl hover.ended)).1] at houtput
      rw [houtput] at hsome
      cases hsome

/--
A reply that is not the list of the nodes clears the buffer and the output.
-/
theorem quiet_step (hstart : Quiet c ∨ Overwrites x.env x.request)
    (hnodes : ¬AsksNodes x.env x.request) (h : dbp_client_handler c x = some (reply, some c'))
    : Quiet c' := by
  unfold dbp_client_handler at h
  dsimp only at h
  split at h
  next hinside =>
    split at h
    . cases h
    split at h
    . next hnode =>
      rw [inside_append, parse_inside_iff] at hinside
      obtain ⟨hcheck, hcmd, hopen, hflag, -⟩ := parse_node (output_of_start hstart hnode)
      have htext := text_of_start hstart (hinside.1 hcheck).1
      rw [htext] at hcheck hcmd
      exact absurd ⟨hcheck, hcmd, hopen, hflag⟩ hnodes
    . cases h
      exact ⟨rfl, rfl⟩
  . cases h

/--
Behind a list of the nodes there is a request that overwrites what it has left.
-/
inductive Clean : List Exchange → Prop where
  | nil : Clean []
  | keeps {history : List Exchange} {x : Exchange} (hclean : Clean history)
    (hnodes : ¬AsksNodes x.env x.request) : Clean (history ++ [x])
  | clears {history : List Exchange} {x : Exchange} (hover : Overwrites x.env x.request)
    (hnodes : ¬AsksNodes x.env x.request) : Clean (history ++ [x])

theorem run_append {xs ys : List Exchange} : run (xs ++ ys) c = (run xs c).bind (run ys) := by
  induction xs generalizing c with
  | nil => rfl
  | cons x xs ih =>
    rw [List.cons_append, run, run]
    cases dbp_client_handler c x with
    | none => rfl
    | some result =>
      obtain ⟨reply, _ | c'⟩ := result
      . rfl
      . exact ih

theorem handler_of_run (h : run [x] c = some c')
    : ∃ reply, dbp_client_handler c x = some (reply, some c') := by
  obtain ⟨⟨reply, next⟩, hresult, hnext⟩ := Option.bind_eq_some_iff.mp h
  obtain ⟨c₁, hc₁, hrun⟩ := Option.bind_eq_some_iff.mp hnext
  cases hrun
  have hc : next = some c' := hc₁
  rw [hresult, hc]
  exact ⟨reply, rfl⟩

theorem quiet_of_clean {history : List Exchange} (hclean : Clean history)
    (hrun : run history {} = some c) : Quiet c := by
  induction hclean generalizing c with
  | nil =>
    cases hrun
    exact ⟨rfl, rfl⟩
  | keeps hclean hnodes ih =>
    rw [run_append] at hrun
    obtain ⟨c₁, hhistory, hrun⟩ := Option.bind_eq_some_iff.mp hrun
    obtain ⟨reply, hreply⟩ := handler_of_run hrun
    exact quiet_step (.inl (ih hhistory)) hnodes hreply
  | clears hover hnodes =>
    rw [run_append] at hrun
    obtain ⟨c₁, hhistory, hrun⟩ := Option.bind_eq_some_iff.mp hrun
    obtain ⟨reply, hreply⟩ := handler_of_run hrun
    exact quiet_step (.inr hover) hnodes hreply

/--
Whatever is in memory, the request gets the same reply after both histories.
-/
def SameReply (history₁ history₂ : List Exchange) (env : Env) (request : Request) : Prop :=
  ∀ c₁ c₂ device₁ device₂ beyond₁ beyond₂,
    run history₁ {} = some c₁ → run history₂ {} = some c₂ →
    ∃ reply,
      (dbp_client_handler c₁ ⟨env, request, device₁, beyond₁⟩).map Prod.fst = some reply
        ∧ (dbp_client_handler c₂ ⟨env, request, device₂, beyond₂⟩).map Prod.fst = some reply

theorem sameReply_of_clean {history₁ history₂ : List Exchange} (hplain : Plain env request)
    (hclean : (Clean history₁ ∧ Clean history₂) ∨ Overwrites env request)
    : SameReply history₁ history₂ env request := by
  intro c₁ c₂ device₁ device₂ beyond₁ beyond₂ hrun₁ hrun₂
  refine ⟨answer env request, ?_, ?_⟩
  . apply reply_eq hplain
    rcases hclean with ⟨hclean, -⟩ | hover
    . exact .inl (quiet_of_clean hclean hrun₁)
    . exact .inr hover
  . apply reply_eq hplain
    rcases hclean with ⟨-, hclean⟩ | hover
    . exact .inl (quiet_of_clean hclean hrun₂)
    . exact .inr hover

end Handler

section Examples

def emptyEnv : Env := ⟨true, {}, 0, false, "dbp mac unknown\r\n".toList, fun _ => 0⟩

def nodesExchange : Exchange := ⟨emptyEnv, ⟨"dbp mac:".toList, by decide, by decide⟩, {}, []⟩

def routerExchange : Exchange :=
  ⟨emptyEnv, ⟨"dbp router:\x00".toList, by decide, by decide⟩, {}, []⟩

def keepAlive : Request := ⟨"dbp keepalive:".toList, by decide, by decide⟩

theorem keepAlive_sameReply
    : SameReply [nodesExchange, routerExchange] [] emptyEnv keepAlive := by
  apply sameReply_of_clean
  . constructor
    . exact .inl (by decide)
    . intro _ cmd_len hcmd_len
      have hnone : (command (textOf keepAlive)).cmd_len = none := by decide
      rw [hnone] at hcmd_len
      cases hcmd_len
    . intro _ hcmd
      revert hcmd
      decide
  . refine .inl ⟨?_, .nil⟩
    have hover : Overwrites routerExchange.env routerExchange.request := by
      refine ⟨by decide, by decide, by decide, .inr ⟨rfl, ?_, ?_⟩⟩
      . decide
      . decide
    have hnodes : ¬AsksNodes routerExchange.env routerExchange.request := fun h =>
      absurd h.cmd (by decide)
    have hclean : Clean ([nodesExchange] ++ [routerExchange]) := .clears hover hnodes
    exact hclean

/--
After a list of the nodes it is sent again for a request that has no reply.
-/
theorem keepAlive_not_sameReply
    : ¬∀ (history₁ history₂ : List Exchange) (env : Env) (request : Request),
      SameReply history₁ history₂ env request := by
  intro h
  have hnodes : ((run [nodesExchange] {}).bind fun c =>
      (dbp_client_handler c ⟨emptyEnv, keepAlive, {}, []⟩).map Prod.fst)
        = some { sent := "dbp mac unknown\r\n".toList } := by
    decide
  have hnew : (dbp_client_handler {} ⟨emptyEnv, keepAlive, {}, []⟩).map Prod.fst
      = some { sent := [] } := by
    decide
  obtain ⟨c, hrun, hreply⟩ := Option.bind_eq_some_iff.mp hnodes
  obtain ⟨reply, hreply₁, hreply₂⟩ :=
    h [nodesExchange] [] emptyEnv keepAlive c {} {} {} [] [] hrun rfl
  rw [hreply] at hreply₁
  rw [hnew, ← hreply₁] at hreply₂
  exact absurd hreply₂ (by decide)

end Examples

end Dbp.Client
