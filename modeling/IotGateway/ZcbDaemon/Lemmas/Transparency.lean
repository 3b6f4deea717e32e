import IotGateway.Json.Lemmas.Compact
import IotGateway.ZcbDaemon.Impl.Tunnel

/-!
This module says which messages arrive as they are at the other end of the tunnel.
-/

namespace ZcbDaemon

open Json Machine

def compact (message : List Char) : List Char := message.filter isSolid

/--
The message is sent if it fits without blanks, and whatever reads it makes the same events of it.
-/
structure Transparent (message : List Char) : Prop where
  sent : ∀ ok tunnel, (tunnelSend message ok tunnel).2.1 ≠ []
    ↔ tunnel.u16TunnelSaddr ≠ 0
      ∧ (compact message).length < CLD_APPLIANCE_STATISTICS_ATTR_LOG_MAX_SIZE
  events : ∀ ok tunnel, ∀ sent ∈ (tunnelSend message ok tunnel).2.1, ∀ p,
    trace eatStep (jsonReset p) sent.pu8LogData = trace eatStep (jsonReset p) message

/--
The message is changed on its way.
-/
def Compacted (message : List Char) : Prop :=
  CLD_APPLIANCE_STATISTICS_ATTR_LOG_MAX_SIZE ≤ message.length
    ∧ (compact message).length < CLD_APPLIANCE_STATISTICS_ATTR_LOG_MAX_SIZE

theorem compress_length_lt_iff (message : List Char)
    : (compress message).length < CLD_APPLIANCE_STATISTICS_ATTR_LOG_MAX_SIZE
      ↔ (compact message).length < CLD_APPLIANCE_STATISTICS_ATTR_LOG_MAX_SIZE := by
  have hle : (compact message).length ≤ message.length := List.length_filter_le _ _
  unfold compress
  split
  . show ((compact message).take _).length < _ ↔ _
    rw [List.length_take]
    omega
  . omega

theorem compress_eq {message : List Char}
    (hfits : (compact message).length < CLD_APPLIANCE_STATISTICS_ATTR_LOG_MAX_SIZE)
    : compress message
        = if CLD_APPLIANCE_STATISTICS_ATTR_LOG_MAX_SIZE ≤ message.length then
            compact message
          else
            message := by
  unfold compress
  split
  . exact List.take_of_length_le (Nat.le_of_lt hfits)
  . rfl

theorem tunnelSend_eq (message : List Char) (ok : Bool) (tunnel : Tunnel)
    : (tunnelSend message ok tunnel).2.1
        = if tunnel.u16TunnelSaddr ≠ 0
              ∧ (compact message).length < CLD_APPLIANCE_STATISTICS_ATTR_LOG_MAX_SIZE then
            [{ u16TargetAddress := tunnel.u16TunnelSaddr, u32LogId := tunnel.u32LogId,
               pu8LogData := compress message }]
          else
            [] := by
  have hfits := compress_length_lt_iff message
  unfold tunnelSend
  dsimp only
  by_cases hlong : CLD_APPLIANCE_STATISTICS_ATTR_LOG_MAX_SIZE ≤ (compress message).length
  . have hnot : ¬ (compact message).length < CLD_APPLIANCE_STATISTICS_ATTR_LOG_MAX_SIZE := by
      rw [← hfits]
      exact Nat.not_lt_of_le hlong
    rw [if_pos hlong, if_neg (fun h => hnot h.2)]
  . have hlt := hfits.mp (Nat.lt_of_not_le hlong)
    rw [if_neg hlong]
    by_cases hopen : tunnel.u16TunnelSaddr ≠ 0
    . rw [if_pos hopen, if_pos ⟨hopen, hlt⟩]
    . rw [if_neg hopen, if_neg (fun h => hopen h.1)]

/--
Only a message that is changed on its way can be read differently.
-/
theorem transparent_iff {message : List Char}
    : Transparent message
      ↔ (Compacted message →
          ∀ p, trace eatStep (jsonReset p) (compact message) = trace eatStep (jsonReset p) message) := by
  constructor
  . rintro h ⟨hlong, hfits⟩ p
    have hsent := tunnelSend_eq message true { u16TunnelSaddr := 1 }
    rw [if_pos ⟨by decide, hfits⟩] at hsent
    have hevents := h.events true { u16TunnelSaddr := 1 } _
      (by rw [hsent]; exact List.mem_singleton_self _) p
    rwa [compress_eq hfits, if_pos hlong] at hevents
  . intro h
    refine ⟨?_, ?_⟩
    . intro ok tunnel
      rw [tunnelSend_eq]
      split
      . next hsent => simp [hsent]
      . next hsent => simp [hsent]
    . intro ok tunnel sent hsent p
      rw [tunnelSend_eq] at hsent
      split at hsent
      . next hfits =>
        rw [List.mem_singleton.mp hsent, compress_eq hfits.2]
        dsimp only
        split
        . next hlong => exact h ⟨hlong, hfits.2⟩ p
        . rfl
      . cases hsent

/--
The parser reads the message without an error, and skips every blank.
-/
def Legible (message : List Char) : Prop :=
  ∀ p, SkipsBlanks (jsonReset p) message
    ∧ ∀ e ∈ trace eatStep (jsonReset p) message, e.isError = false

/--
What a compacted message may hold. The second part has the exact condition for the messages whose
strings are strings of a JSON text, the first part goes for any strings.
-/
theorem tunnelSend_transparent {rgb2xy kelvin2xy : Int32 → Int32 × Int32} {o : Object}
    (h : Built rgb2xy kelvin2xy o)
    : ((Compacted o.message → Legible o.message) → Transparent o.message)
      ∧ (o.IsJson → (Transparent o.message ↔ (Compacted o.message → o.Unspaced))) := by
  constructor
  . intro hlegible
    apply transparent_iff.mpr
    intro hcompacted p
    obtain ⟨hskips, hnoerror⟩ := hlegible hcompacted p
    exact trace_solid hskips hnoerror
  . intro hjson
    rw [transparent_iff]
    apply imp_congr_right
    rintro ⟨-, hfits⟩
    rw [message_eq hjson.whole] at hfits ⊢
    exact trace_solid_iff h hjson hfits

def addManager (name : String) : Object := jsonTopoAddManager "00158D0001020304" (some name) (some "h")

theorem addManager_built (name : String)
    : Built (fun _ => (0, 0)) (fun _ => (0, 0)) (addManager name) := .jsonTopoAddManager ..

theorem addManager_values {name : String} {m : Member} (hm : m ∈ (addManager name).members)
    {value : String} (hvalue : m.value = .string value)
    : value = "00158D0001020304" ∨ value = name ∨ value = "h" := by
  simp [addManager, jsonTopoAddManager, jsonTopoAddDevice, ifInt, ifString, string] at hm
  rcases hm with rfl | rfl | rfl <;> simp_all

theorem addManager_isJson {name : String} (hname : name = "Heating-manager" ∨ name = "Heating manager")
    : (addManager name).IsJson := by
  have hvalues : ∀ m ∈ (addManager name).members, ∀ value, m.value = .string value →
      StringText value.toList := by
    intro m hm value hvalue
    apply stringText_of_clean
    rcases addManager_values hm hvalue with rfl | rfl | rfl
    . decide
    . rcases hname with rfl | rfl
      . decide
      . decide
    . decide
  rcases hname with rfl | rfl
  all_goals
    exact ⟨by unfold NamesValid; decide, by decide, hvalues, by decide,
      by decide⟩

theorem tunnelSend_transparent_addManager
    : Compacted (addManager "Heating-manager").message
      ∧ Transparent (addManager "Heating-manager").message := by
  refine ⟨by unfold Compacted; decide, ?_⟩
  apply ((tunnelSend_transparent (addManager_built "Heating-manager")).2
    (addManager_isJson (.inl rfl))).mpr
  intro _ m hm value hvalue
  rcases addManager_values hm hvalue with rfl | rfl | rfl
  all_goals decide

/--
The name arrives without its blank.
-/
theorem addManager_not_transparent
    : ¬ ∀ o, Built (fun _ => (0, 0)) (fun _ => (0, 0)) o → Transparent o.message := by
  intro h
  have hbuilt := addManager_built "Heating manager"
  have hjson := addManager_isJson (.inr rfl)
  have hcompacted : Compacted (addManager "Heating manager").message := by
    unfold Compacted
    decide
  have hsame := transparent_iff.mp (h _ hbuilt) hcompacted
  have hfits := hcompacted.2
  rw [message_eq hjson.whole] at hsame hfits
  have hunspaced := (trace_solid_iff hbuilt hjson hfits).mp hsame
  have hblank := hunspaced (string "nm" "Heating manager") (by decide) "Heating manager" rfl
  revert hblank
  decide

end ZcbDaemon
