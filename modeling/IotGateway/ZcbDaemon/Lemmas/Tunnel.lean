import Mathlib.Data.List.Induction
import IotGateway.Lib.Machine
import IotGateway.ZcbDaemon.Impl.Tunnel

/-!
This module contains where topology commands are sent.
-/

namespace ZcbDaemon

open NewDb

/--
The node table has the MAC with this short address.
-/
def BoundTo (db : Db) (mac : String) (saddr : UInt16) : Prop :=
  ∃ zcb, newDbGetZcb db mac = some zcb ∧ UInt16.ofInt zcb.saddr = saddr ∧ saddr ≠ 0xFFFF

/--
A command that opens the tunnel to `saddr`.
-/
def Opens (db : Db) (attrs : Attrs) (saddr : UInt16) : Prop :=
  attrs.parsingGetStringAttr "open" ≠ "" ∧ BoundTo db (attrs.parsingGetStringAttr "open") saddr

theorem boundTo_iff {db : Db} {mac : String} {saddr : UInt16}
    : BoundTo db mac saddr ↔ zcbNodeGetShortAddress mac db = saddr ∧ saddr ≠ 0xFFFF := by
  unfold BoundTo zcbNodeGetShortAddress
  cases newDbGetZcb db mac with
  | none =>
    constructor
    . rintro ⟨zcb, hget, -⟩
      cases hget
    . rintro ⟨rfl, hne⟩
      exact absurd rfl hne
  | some zcb => simp

theorem tunnelHandle_opens {attrs : Attrs} {db : Db} {saddr : UInt16} (h : Opens db attrs saddr)
    (tunnel : Tunnel)
    : tunnelHandle attrs db tunnel = { tunnel with u16TunnelSaddr := saddr } := by
  obtain ⟨hmac, hbound⟩ := h
  obtain ⟨hsaddr, hne⟩ := boundTo_iff.mp hbound
  simp [tunnelHandle, hmac, hsaddr, hne]

theorem tunnelHandle_not_opens {attrs : Attrs} {db : Db} (h : ∀ saddr, ¬ Opens db attrs saddr)
    (tunnel : Tunnel)
    : tunnelHandle attrs db tunnel = tunnel := by
  unfold tunnelHandle
  by_cases hmac : attrs.parsingGetStringAttr "open" = ""
  . simp [hmac]
  . have hunbound
        : zcbNodeGetShortAddress (attrs.parsingGetStringAttr "open") db = 0xFFFF := by
      by_contra hne
      exact h _ ⟨hmac, boundTo_iff.mpr ⟨rfl, hne⟩⟩
    simp [hmac, hunbound]

theorem tunnelSend_sent (message : List Char) (ok : Bool) {tunnel : Tunnel} {sent : LogMessage}
    (h : sent ∈ (tunnelSend message ok tunnel).2.1)
    : sent.u16TargetAddress = tunnel.u16TunnelSaddr ∧ tunnel.u16TunnelSaddr ≠ 0 := by
  unfold tunnelSend at h
  simp only at h
  split at h
  . cases h
  . split at h
    . next hopen =>
      obtain rfl := List.mem_singleton.mp h
      exact ⟨rfl, hopen⟩
    . cases h

theorem tunnelSend_saddr (message : List Char) (ok : Bool) (tunnel : Tunnel)
    : (tunnelSend message ok tunnel).1.u16TunnelSaddr = tunnel.u16TunnelSaddr := by
  unfold tunnelSend
  simp only
  split
  . rfl
  . split
    . rfl
    . rfl

theorem topoHandle_sent {attrs : Attrs} {ok : Bool} {tunnel : Tunnel} {sent : LogMessage}
    (h : sent ∈ (topoHandle attrs ok tunnel).2.1)
    : sent.u16TargetAddress = tunnel.u16TunnelSaddr ∧ tunnel.u16TunnelSaddr ≠ 0 := by
  unfold topoHandle at h
  split at h
  . cases h
  . cases h
  . next object _ =>
    apply tunnelSend_sent object.message ok
    split at h
    . next heq =>
      rw [heq]
      exact h
    . next heq =>
      rw [heq]
      exact h

theorem topoHandle_saddr (attrs : Attrs) (ok : Bool) (tunnel : Tunnel)
    : (topoHandle attrs ok tunnel).1.u16TunnelSaddr = tunnel.u16TunnelSaddr := by
  unfold topoHandle
  split
  . rfl
  . rfl
  . next object _ =>
    have hsaddr := tunnelSend_saddr object.message ok tunnel
    split
    . next heq =>
      rw [heq] at hsaddr
      exact hsaddr
    . next heq =>
      rw [heq] at hsaddr
      exact hsaddr

/--
The last command of the run that opened the tunnel opened it to `saddr`.
-/
def LastOpened (s : Daemon) (events : List TunnelEvent) (saddr : UInt16) : Prop :=
  ∃ before attrs after, events = before ++ .tunnel attrs :: after
    ∧ Opens (Machine.exec tunnelStep s before).db attrs saddr
    ∧ ∀ between attrs' rest, after = between ++ .tunnel attrs' :: rest →
        ∀ saddr',
          ¬ Opens (Machine.exec tunnelStep s (before ++ .tunnel attrs :: between)).db attrs' saddr'

theorem LastOpened.append {s : Daemon} {events : List TunnelEvent} {saddr : UInt16} {ev : TunnelEvent}
    (h : LastOpened s events saddr)
    (hev : ∀ attrs saddr', ev = .tunnel attrs →
      ¬ Opens (Machine.exec tunnelStep s events).db attrs saddr')
    : LastOpened s (events ++ [ev]) saddr := by
  obtain ⟨before, attrs, after, rfl, hopens, hlast⟩ := h
  refine ⟨before, attrs, after ++ [ev], by simp, hopens, ?_⟩
  intro between attrs' rest heq saddr'
  rcases List.eq_nil_or_concat rest with rfl | ⟨rest, ev', rfl⟩
  . have hsplit := List.append_inj_left' heq rfl
    have htail := List.append_inj_right' heq rfl
    subst hsplit
    apply hev
    simpa using htail
  . apply hlast between attrs' rest
    rw [List.concat_eq_append, ← List.cons_append, ← List.append_assoc] at heq
    exact List.append_inj_left' heq rfl

/--
The tunnel is open to the address that it was opened to last.
-/
theorem run_saddr (s : Daemon) (hinit : s.tunnel = {}) (events : List TunnelEvent)
    : (Machine.exec tunnelStep s events).tunnel.u16TunnelSaddr = 0
        ∨ LastOpened s events (Machine.exec tunnelStep s events).tunnel.u16TunnelSaddr := by
  induction events using List.reverseRecOn with
  | nil =>
    left
    rw [Machine.exec_nil, hinit]
  | append_singleton events ev ih =>
    rw [Machine.exec_append]
    simp only [Machine.exec_cons, Machine.exec_nil]
    have hkeep
        : (tunnelStep (Machine.exec tunnelStep s events) ev).1.tunnel.u16TunnelSaddr
            = (Machine.exec tunnelStep s events).tunnel.u16TunnelSaddr →
          (∀ attrs saddr', ev = .tunnel attrs →
            ¬ Opens (Machine.exec tunnelStep s events).db attrs saddr') →
          (tunnelStep (Machine.exec tunnelStep s events) ev).1.tunnel.u16TunnelSaddr = 0
            ∨ LastOpened s (events ++ [ev])
              (tunnelStep (Machine.exec tunnelStep s events) ev).1.tunnel.u16TunnelSaddr := by
      intro hsame hnot
      rw [hsame]
      exact ih.imp_right fun hlast => hlast.append hnot
    cases ev with
    | node ev =>
      apply hkeep rfl
      nofun
    | tables db =>
      apply hkeep rfl
      nofun
    | topo attrs ok =>
      apply hkeep
      . exact topoHandle_saddr attrs ok _
      . nofun
    | tunnel attrs =>
      by_cases hopens : ∃ saddr, Opens (Machine.exec tunnelStep s events).db attrs saddr
      . obtain ⟨saddr, hopens⟩ := hopens
        right
        refine ⟨events, attrs, [], rfl, ?_, ?_⟩
        . simpa only [tunnelStep, tunnelHandle_opens hopens] using hopens
        . intro between attrs' rest heq
          simp at heq
      . rw [not_exists] at hopens
        apply hkeep
        . simp only [tunnelStep, tunnelHandle_not_opens hopens]
        . rintro attrs' saddr' heq
          obtain rfl := TunnelEvent.tunnel.inj heq
          exact hopens saddr'

/--
A topology command goes where the last command that opened the tunnel found its manager.
-/
theorem topo_sent_lastOpened (db : Db) (events : List TunnelEvent) (attrs : Attrs) (ok : Bool)
    (sent : LogMessage)
    (h : sent ∈ (tunnelStep (Machine.exec tunnelStep { db } events) (.topo attrs ok)).2)
    : LastOpened { db } events sent.u16TargetAddress := by
  obtain ⟨htarget, hopen⟩ := topoHandle_sent h
  rw [htarget]
  rcases run_saddr { db } rfl events with hclosed | hlast
  . exact absurd hclosed hopen
  . exact hlast

def openTo (mac : String) : Attrs := Attrs.parsingReset.parsingStringAttr "open" mac

def clearall : Attrs := Attrs.parsingReset.parsingStringAttr "cmd" "clearall"

/--
A manager joins, the tunnel to it is opened and closed, and a tunnel to an unknown node is opened.
-/
def closedTunnel : List TunnelEvent :=
  [.node (.announce 0x1234 0x158D0000350F1A 0 0), .tunnel (openTo "00158D0000350F1A"),
    .tunnel (Attrs.parsingReset.parsingIntAttr "close" 1), .tunnel (openTo "0000000000000000")]

def sentClear : LogMessage where
  u16TargetAddress := 0x1234
  u32LogId := 0
  pu8LogData := "\"tp\" : \x7b \"cmd\":\"clearall\" \x7d\n".toList

theorem topo_sent_lastOpened_closedTunnel : LastOpened { db := Db.init } closedTunnel 0x1234 := by
  apply topo_sent_lastOpened Db.init closedTunnel clearall true sentClear
  decide

/--
The last open command named a MAC that is not bound, and a close command came before it.
-/
theorem closedTunnel_sent
    : sentClear
        ∈ (tunnelStep (Machine.exec tunnelStep { db := Db.init } closedTunnel)
            (.topo clearall true)).2
      ∧ ¬ BoundTo (Machine.exec tunnelStep { db := Db.init } closedTunnel).db "0000000000000000"
          sentClear.u16TargetAddress := by
  constructor
  . decide
  . rw [boundTo_iff]
    decide

end ZcbDaemon
