import IotGateway.ZcbDaemon.Impl.Lamp
import IotGateway.ZcbDaemon.Lemmas.Requests

/-!
This module says what a node reads from the commands to lamps and groups, and which of the numbers in a
JSON message arrive there as they are.
-/

namespace ZcbDaemon

open Packed

/--
A call of one of the `lmpgrp_` functions.
-/
inductive LampCall where
  | onOff (u8Mode : UInt8)
  | moveToLevel (u8Level : UInt8) (u16TransitionTime : UInt16)
  | moveToHue (u8Hue : UInt8) (u16TransitionTime : UInt16)
  | moveToSaturation (u8Saturation : UInt8) (u16TransitionTime : UInt16)
  | moveToHueSaturation (u8Hue u8Saturation : UInt8) (u16TransitionTime : UInt16)
  | moveToColour (u16X u16Y u16TransitionTime : UInt16)
  | moveToColourTemperature (u16ColourTemperature u16TransitionTime : UInt16)
  | moveColourTemperature (u8Mode : UInt8)
    (u16Rate u16ColourTemperatureMin u16ColourTemperatureMax : UInt16)
  | colourLoopSet (u8UpdateFlags u8Action u8Direction : UInt8) (u16Time u16StartHue : UInt16)

namespace LampCall

def run (line : Command → Sending) (u16ShortAddress u16GroupAddress : UInt16)
    : LampCall → UInt8 × Option Command
  | onOff u8Mode => lmpgrp_OnOff line u16ShortAddress u16GroupAddress u8Mode
  | moveToLevel u8Level u16TransitionTime =>
    lmpgrp_MoveToLevel line u16ShortAddress u16GroupAddress u8Level u16TransitionTime
  | moveToHue u8Hue u16TransitionTime =>
    lmpgrp_MoveToHue line u16ShortAddress u16GroupAddress u8Hue u16TransitionTime
  | moveToSaturation u8Saturation u16TransitionTime =>
    lmpgrp_MoveToSaturation line u16ShortAddress u16GroupAddress u8Saturation u16TransitionTime
  | moveToHueSaturation u8Hue u8Saturation u16TransitionTime =>
    lmpgrp_MoveToHueSaturation line u16ShortAddress u16GroupAddress u8Hue u8Saturation
      u16TransitionTime
  | moveToColour u16X u16Y u16TransitionTime =>
    lmpgrp_MoveToColour line u16ShortAddress u16GroupAddress u16X u16Y u16TransitionTime
  | moveToColourTemperature u16ColourTemperature u16TransitionTime =>
    lmpgrp_MoveToColourTemperature line u16ShortAddress u16GroupAddress u16ColourTemperature
      u16TransitionTime
  | moveColourTemperature u8Mode u16Rate u16ColourTemperatureMin u16ColourTemperatureMax =>
    lmpgrp_MoveColourTemperature line u16ShortAddress u16GroupAddress u8Mode u16Rate
      u16ColourTemperatureMin u16ColourTemperatureMax
  | colourLoopSet u8UpdateFlags u8Action u8Direction u16Time u16StartHue =>
    lmpgrp_ColourLoopSet line u16ShortAddress u16GroupAddress u8UpdateFlags u8Action u8Direction
      u16Time u16StartHue

def u16Type : LampCall → UInt16
  | onOff _ => E_SL_MSG_ONOFF
  | moveToLevel _ _ => E_SL_MSG_MOVE_TO_LEVEL_ONOFF
  | moveToHue _ _ => E_SL_MSG_MOVE_TO_HUE
  | moveToSaturation _ _ => E_SL_MSG_MOVE_TO_SATURATION
  | moveToHueSaturation _ _ _ => E_SL_MSG_MOVE_TO_HUE_SATURATION
  | moveToColour _ _ _ => E_SL_MSG_MOVE_TO_COLOUR
  | moveToColourTemperature _ _ => E_SL_MSG_MOVE_TO_COLOUR_TEMPERATURE
  | moveColourTemperature _ _ _ _ => E_SL_MSG_MOVE_COLOUR_TEMPERATURE
  | colourLoopSet _ _ _ _ _ => E_SL_MSG_COLOUR_LOOP_SET

/--
The widths and values of the fields that the node reads. `u8OnOff` and the direction of a hue are 0.
-/
def arguments : LampCall → List (Nat × Nat)
  | onOff u8Mode => [(1, u8Mode.toNat)]
  | moveToLevel u8Level u16TransitionTime =>
    [(1, 0), (1, u8Level.toNat), (2, u16TransitionTime.toNat)]
  | moveToHue u8Hue u16TransitionTime =>
    [(1, u8Hue.toNat), (1, 0), (2, u16TransitionTime.toNat)]
  | moveToSaturation u8Saturation u16TransitionTime =>
    [(1, u8Saturation.toNat), (2, u16TransitionTime.toNat)]
  | moveToHueSaturation u8Hue u8Saturation u16TransitionTime =>
    [(1, u8Hue.toNat), (1, u8Saturation.toNat), (2, u16TransitionTime.toNat)]
  | moveToColour u16X u16Y u16TransitionTime =>
    [(2, u16X.toNat), (2, u16Y.toNat), (2, u16TransitionTime.toNat)]
  | moveToColourTemperature u16ColourTemperature u16TransitionTime =>
    [(2, u16ColourTemperature.toNat), (2, u16TransitionTime.toNat)]
  | moveColourTemperature u8Mode u16Rate u16ColourTemperatureMin u16ColourTemperatureMax =>
    [(1, u8Mode.toNat), (2, u16Rate.toNat), (2, u16ColourTemperatureMin.toNat),
      (2, u16ColourTemperatureMax.toNat)]
  | colourLoopSet u8UpdateFlags u8Action u8Direction u16Time u16StartHue =>
    [(1, u8UpdateFlags.toNat), (1, u8Action.toNat), (1, u8Direction.toNat), (2, u16Time.toNat),
      (2, u16StartHue.toNat)]

/--
The same, but 255 is no level.
-/
def received : LampCall → List (Nat × Nat)
  | moveToLevel u8Level u16TransitionTime =>
    [(1, 0), (1, min u8Level.toNat 254), (2, u16TransitionTime.toNat)]
  | call => call.arguments

end LampCall

/--
The mode of the address, the address and the end points. A group has no short address.
-/
def target (u16ShortAddress u16GroupAddress : UInt16) : List (Nat × Nat) :=
  if u16ShortAddress = 0xFFFF then
    [(1, 1), (2, u16GroupAddress.toNat), (1, 1), (1, 3)]
  else
    [(1, 2), (2, u16ShortAddress.toNat), (1, 1), (1, 1)]

/--
The message consists of fields of these widths, which have these values in network byte order.
-/
def Decodes (pvMessage : List UInt8) (fields : List (Nat × Nat)) : Prop :=
  pvMessage.length = (fields.map Prod.fst).sum
    ∧ decode (fields.map Prod.fst) pvMessage = fields.map Prod.snd

instance decidableDecodes (pvMessage : List UInt8) (fields : List (Nat × Nat))
    : Decidable (Decodes pvMessage fields) :=
  inferInstanceAs (Decidable (_ ∧ _))

theorem decodes_layout {fields : List Field} {wanted : List (Nat × Nat)}
    (h : fields.map (fun f => (f.width, network (bytes f.width f.value))) = wanted)
    : Decodes (layout fields) wanted := by
  subst h
  constructor
  . rw [length_layout, List.map_map]
    rfl
  . rw [List.map_map, List.map_map]
    exact decode_layout fields

theorem initDefaultHeader_fields (u16ShortAddress u16GroupAddress : UInt16)
    : (initDefaultHeader u16ShortAddress u16GroupAddress).map
          (fun f => (f.width, network (bytes f.width f.value)))
        = target u16ShortAddress u16GroupAddress := by
  unfold initDefaultHeader target
  by_cases h : u16ShortAddress = 0xFFFF
  . rw [if_neg (not_not_intro h), if_pos h]
    simp [u8, u16]
    decide
  . rw [if_pos h, if_neg h]
    simp [u8, u16]
    decide

theorem lampCommand_decodes (line : Command → Sending) (u16ShortAddress u16GroupAddress : UInt16)
    (u16Type : UInt16) {fields : List Field} {wanted : List (Nat × Nat)}
    (h : fields.map (fun f => (f.width, network (bytes f.width f.value))) = wanted)
    : ∀ command ∈ (lampCommand line u16ShortAddress u16GroupAddress u16Type fields).2,
        command.u16Type = u16Type
          ∧ Decodes command.pvMessage (target u16ShortAddress u16GroupAddress ++ wanted) := by
  intro command hcommand
  obtain rfl := Option.some.inj hcommand
  refine ⟨rfl, decodes_layout ?_⟩
  rw [List.map_append, initDefaultHeader_fields, h]

theorem lampCommand_ne_none (line : Command → Sending) (u16ShortAddress u16GroupAddress : UInt16)
    (u16Type : UInt16) (fields : List Field)
    : (lampCommand line u16ShortAddress u16GroupAddress u16Type fields).2 ≠ none := nofun

theorem level_toNat (u8Level : UInt8)
    : (if 254 < u8Level then 254 else u8Level).toNat = min u8Level.toNat 254 := by
  split
  . next h =>
    have hlt : 254 < u8Level.toNat := UInt8.lt_iff_toNat_lt.mp h
    exact (Nat.min_eq_right hlt.le).symm
  . next h =>
    have hle : u8Level.toNat ≤ 254 := UInt8.le_iff_toNat_le.mp (UInt8.not_lt.mp h)
    exact (Nat.min_eq_left hle).symm

/--
A level of 255 is sent as 254, and a mode that is no mode is not sent. All else arrives as it is.
-/
theorem lampCall_decodes (line : Command → Sending) (u16ShortAddress u16GroupAddress : UInt16)
    (call : LampCall)
    : (∀ command ∈ (call.run line u16ShortAddress u16GroupAddress).2,
        command.u16Type = call.u16Type
          ∧ Decodes command.pvMessage
            (target u16ShortAddress u16GroupAddress ++ call.received))
      ∧ ((call.run line u16ShortAddress u16GroupAddress).2 = none
        ↔ ∃ u8Mode, call = .onOff u8Mode ∧ 2 < u8Mode) := by
  cases call with
  | onOff u8Mode =>
    simp only [LampCall.run, lmpgrp_OnOff]
    by_cases h : 2 < u8Mode
    . rw [if_pos h]
      exact ⟨nofun, by simp [h]⟩
    . rw [if_neg h]
      refine ⟨lampCommand_decodes line _ _ _ ?_, ?_⟩
      . simp [u8, LampCall.arguments, LampCall.received]
      . simp [h, lampCommand_ne_none]
  | moveToLevel u8Level u16TransitionTime =>
    simp only [LampCall.run, lmpgrp_MoveToLevel]
    refine ⟨lampCommand_decodes line _ _ _ ?_, by simp [lampCommand_ne_none]⟩
    simp only [List.map_cons, List.map_nil, u8, u16, LampCall.received, level_toNat, network_htons,
      network_byte, Nat.mod_eq_of_lt (show min u8Level.toNat 254 < 256 by omega)]
    rfl
  | moveToHue u8Hue u16TransitionTime =>
    refine ⟨lampCommand_decodes line _ _ _ ?_, by simp [LampCall.run, lmpgrp_MoveToHue,
      lampCommand_ne_none]⟩
    simp [u8, u16, LampCall.arguments, LampCall.received]
    decide
  | moveToSaturation u8Saturation u16TransitionTime =>
    refine ⟨lampCommand_decodes line _ _ _ ?_, by simp [LampCall.run, lmpgrp_MoveToSaturation,
      lampCommand_ne_none]⟩
    simp [u8, u16, LampCall.arguments, LampCall.received]
  | moveToHueSaturation u8Hue u8Saturation u16TransitionTime =>
    refine ⟨lampCommand_decodes line _ _ _ ?_, by simp [LampCall.run, lmpgrp_MoveToHueSaturation,
      lampCommand_ne_none]⟩
    simp [u8, u16, LampCall.arguments, LampCall.received]
  | moveToColour u16X u16Y u16TransitionTime =>
    refine ⟨lampCommand_decodes line _ _ _ ?_, by simp [LampCall.run, lmpgrp_MoveToColour,
      lampCommand_ne_none]⟩
    simp [u16, LampCall.arguments, LampCall.received]
  | moveToColourTemperature u16ColourTemperature u16TransitionTime =>
    refine ⟨lampCommand_decodes line _ _ _ ?_, by simp [LampCall.run,
      lmpgrp_MoveToColourTemperature, lampCommand_ne_none]⟩
    simp [u16, LampCall.arguments, LampCall.received]
  | moveColourTemperature u8Mode u16Rate u16ColourTemperatureMin u16ColourTemperatureMax =>
    refine ⟨lampCommand_decodes line _ _ _ ?_, by simp [LampCall.run, lmpgrp_MoveColourTemperature,
      lampCommand_ne_none]⟩
    simp [u8, u16, LampCall.arguments, LampCall.received]
  | colourLoopSet u8UpdateFlags u8Action u8Direction u16Time u16StartHue =>
    refine ⟨lampCommand_decodes line _ _ _ ?_, by simp [LampCall.run, lmpgrp_ColourLoopSet,
      lampCommand_ne_none]⟩
    simp [u8, u16, LampCall.arguments, LampCall.received]

/--
The highest level of the type arrives as the one below it.
-/
theorem moveToLevel_not_decodes
    : ¬∀ command ∈ ((LampCall.moveToLevel 255 5).run (fun _ => acceptedSeven) 0x1234 0).2,
        Decodes command.pvMessage (target 0x1234 0 ++ (LampCall.moveToLevel 255 5).arguments) := by
  decide

end ZcbDaemon
