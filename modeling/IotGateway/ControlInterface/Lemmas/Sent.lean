import IotGateway.Common.Lemmas.MessageQueue
import IotGateway.ControlInterface.Lemmas.HandleClient
import IotGateway.NewDb.Lemmas.Edit

/-!
This module says that what the commands of clients write to the queue are whole messages.
-/

namespace ControlInterface

open FieldParser IotError Json MessageQueue NewDb

section

variable (rgb2xy kelvin2xy : Int32 → Int32 × Int32) {mac : String} {cmd scn grp : Option String}

theorem sendable_lampGroup (hmac : Word mac) (hgrp : ∀ text ∈ grp, Word text)
    (hscn : ∀ text ∈ scn, Word text) (grpid scnid : Int32)
    : Sendable (jsonLampGroup mac grp grpid scn scnid) := by
  have hsmall := ((((small_string "mac" (by decide) hmac).append
    (small_ifString "grp" (by decide) hgrp)).append
    (small_ifInt "grpid" (by decide) (0 < grpid) grpid)).append
    (small_ifString "scn" (by decide) hscn)).append
    (small_ifInt "scnid" (by decide) (0 < scnid) scnid)
  apply sendable_of_small hsmall
  . show briefName "lmp" = true
    decide
  . apply List.cons_ne_nil
  . decide
  . decide

theorem sendable_group (hscn : ∀ text ∈ scn, Word text) (hcmd : ∀ text ∈ cmd, Word text)
    (grpid scnid lvl rgb kelvin xcr ycr : Int32)
    : Sendable (jsonGroup rgb2xy kelvin2xy grpid scn scnid cmd lvl rgb kelvin xcr ycr) := by
  have hnumbers (lvl xcr ycr : Int32) := (((((small_int "grpid" (by decide)
    grpid).append (small_ifString "scn" (by decide) hscn)).append
    (small_ifInt "scnid" (by decide) (0 ≤ scnid) scnid)).append
    (small_ifString "cmd" (by decide) hcmd)).append
    (small_ifInt "lvl" (by decide) (0 ≤ lvl) lvl)).append
    (small_ifInt "xcr" (by decide) (0 ≤ xcr) xcr) |>.append
    (small_ifInt "ycr" (by decide) (0 ≤ ycr) ycr)
  apply sendable_of_small (hnumbers _ _ _)
  . show briefName "grp" = true
    decide
  . apply List.cons_ne_nil
  . decide
  . decide

end

section

variable {attrs : Attrs}

theorem word_get0 (hwords : ∀ name, Word (attrs.parsingGetStringAttr name)) {name : String}
    {text : Text} (htext : attrs.parsingGetStringAttr0 name = some text)
    : Word text.1 := by
  unfold Attrs.parsingGetStringAttr0 at htext
  split at htext
  . cases htext
  . obtain rfl := Option.some.inj htext
    exact hwords name

theorem words_get0 (hwords : ∀ name, Word (attrs.parsingGetStringAttr name)) (name : String)
    : ∀ text ∈ (attrs.parsingGetStringAttr0 name).map (·.1), Word text := by
  intro text htext
  obtain ⟨text, hget, rfl⟩ := Option.map_eq_some_iff.mp htext
  exact word_get0 hwords hget

end

/--
The messages in the queue are whole.
-/
def Queue.Whole (q : Queue) : Prop := ∀ o ∈ q.sent, Sendable o

theorem Queue.Whole.queueWrite {q : Queue} (h : q.Whole) {o : Object} (ho : Sendable o)
    : (q.queueWrite o).Whole := by
  unfold Queue.queueWrite Queue.Whole
  simp only
  split
  . exact List.forall_mem_append.mpr ⟨h, List.forall_mem_singleton.mpr ho⟩
  . exact h

theorem Queue.Whole.queueWriteOneMessage {q : Queue} (h : q.Whole) {o : Object} (ho : Sendable o)
    : (q.queueWriteOneMessage o).Whole := by
  have hopen : q.queueOpen.1.Whole := h
  unfold Queue.queueWriteOneMessage
  split
  . next heq =>
    rw [heq] at hopen
    exact hopen.queueWrite ho
  . next heq =>
    rw [heq] at hopen
    exact hopen

section

variable {s : Handler}

/--
The addresses in the table are words.
-/
def WordMacs (db : Db) : Prop := ∀ i, Word (db.devices i).mac

theorem WordMacs.newDbSetDevice {db : Db} (h : WordMacs db) {device : Device}
    (hmac : Word device.mac) (now : Int)
    : WordMacs (newDbSetDevice db device now).1 := by
  unfold NewDb.newDbSetDevice setRow
  rcases rowOf NEWDB_MAX_DEVICES device.id with _ | row
  . exact h
  . intro i
    show Word (Function.update db.devices row { device with lastupdate := now } i).mac
    by_cases hi : i = row
    . rw [hi, Function.update_self]
      exact hmac
    . rw [Function.update_of_ne hi]
      exact h i

/--
What a control command is about to do is whole messages, and the address stays.
-/
structure Control.Whole (control : Control) (mac : String) : Prop where
  mac : control.device.mac = mac
  messages : ∀ o ∈ control.messages, Sendable o
  tunnelMessage : 0 ≤ control.tunnelManager → Sendable control.tunnelMessage

variable {attrs : Attrs} (rgb2xy kelvin2xy : Int32 → Int32 × Int32)

variable (env : Surroundings)

end

section

variable (rgb2xy kelvin2xy : Int32 → Int32 × Int32)

/--
The addresses in the table are words when the object is handled.
-/
def KnowsMacs (env : Nat → Surroundings) (s : Client × Nat) (_ : Object) : Prop :=
  WordMacs ((env s.2).others.foldl Mutation.apply s.1.db)

end

end ControlInterface
