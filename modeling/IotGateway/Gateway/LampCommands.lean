import IotGateway.ControlInterface.Impl.StringArgs
import IotGateway.ControlInterface.Lemmas.Sent
import IotGateway.ZcbDaemon.Lemmas.Members

/-!
This module follows the commands of clients to lamps and groups of lamps from the control interface
through the queue to the node.
-/

namespace Gateway

open NewDb Json Machine MessageQueue ZcbDaemon ControlInterface

/--
A command of a client with its attributes.
-/
inductive LampCommand where
  | grp (attrs : Attrs)
  | lmp (attrs : Attrs)

/--
What the parser of the control interface leaves in the fields.
-/
structure WellRead (attrs : Attrs) : Prop where
  quotable : ∀ name, Quotable (attrs.parsingGetStringAttr name)
  short : ∀ name, (attrs.parsingGetStringAttr name).toList.length ≤ 40
  mac : (attrs.parsingGetStringAttr "mac").toList.length ≤ 16

section

variable (rgb2xy kelvin2xy : Int32 → Int32 × Int32)

/--
The level and the colour of a command to a group.
-/
def groupNumbers (attrs : Attrs) : Int32 × Int32 × Int32 :=
  let lvl := attrs.parsingGetIntAttr "lvl"
  let full := if 0 ≤ lvl then lvl else 100
  if 0 ≤ attrs.parsingGetIntAttr "rgb" then
    (full, rgb2xy (attrs.parsingGetIntAttr "rgb"))
  else if 0 ≤ attrs.parsingGetIntAttr "kelvin" then
    (full, kelvin2xy (attrs.parsingGetIntAttr "kelvin"))
  else
    match member attrs "cmd" with
    | some cmd =>
      (if cmd = "on" then full else -1, attrs.parsingGetIntAttr "xcr",
        attrs.parsingGetIntAttr "ycr")
    | none => (lvl, attrs.parsingGetIntAttr "xcr", attrs.parsingGetIntAttr "ycr")

namespace LampCommand

/--
The handler of the control interface.
-/
def handle : LampCommand → Handler → Handler × Int
  | grp attrs => Handler.grpHandle rgb2xy kelvin2xy attrs
  | lmp attrs => Handler.lmpHandle attrs

/--
What it makes of the attributes.
-/
def object : LampCommand → Object
  | grp attrs =>
    jsonGroup rgb2xy kelvin2xy (attrs.parsingGetIntAttr "grpid") (member attrs "scn")
      (attrs.parsingGetIntAttr "scnid") (member attrs "cmd") (attrs.parsingGetIntAttr "lvl")
      (attrs.parsingGetIntAttr "rgb") (attrs.parsingGetIntAttr "kelvin")
      (attrs.parsingGetIntAttr "xcr") (attrs.parsingGetIntAttr "ycr")
  | lmp attrs =>
    jsonLampGroup (attrs.parsingGetStringAttr "mac") (member attrs "grp")
      (attrs.parsingGetIntAttr "grpid") (member attrs "scn") (attrs.parsingGetIntAttr "scnid")

/--
The client has given what the handler needs.
-/
def Given : LampCommand → Prop
  | grp attrs => WellRead attrs
  | lmp attrs =>
    WellRead attrs ∧ attrs.parsingGetStringAttr "mac" ≠ ""
      ∧ ((member attrs "grp").isSome ∨ 0 < attrs.parsingGetIntAttr "grpid"
        ∨ (member attrs "scn").isSome ∨ 0 < attrs.parsingGetIntAttr "scnid")

/--
The messages that the handler writes to a queue without errors.
-/
def writes (db : Db) (c : LampCommand) : List Message :=
  (c.handle rgb2xy kelvin2xy { db, queue := { results := [], iotError := 0 } }).1.queue.sent.map
    Object.message

theorem writes_eq (db : Db) {c : LampCommand} (hgiven : c.Given)
    : c.writes rgb2xy kelvin2xy db = [(c.object rgb2xy kelvin2xy).message] := by
  cases c with
  | grp attrs => rfl
  | lmp attrs =>
    obtain ⟨-, hmac, hnamed⟩ := hgiven
    have hmember : (member attrs "mac").getD "(null)" = attrs.parsingGetStringAttr "mac" := by
      unfold member Attrs.parsingGetStringAttr0
      rw [dif_neg hmac]
      rfl
    unfold writes handle Handler.lmpHandle
    unfold member at hnamed hmember
    simp only [hnamed, if_true, hmember]
    rfl

theorem flatMap_writes (db : Db) (commands : List LampCommand) (hgiven : ∀ c ∈ commands, c.Given)
    : commands.flatMap (writes rgb2xy kelvin2xy db)
      = commands.map fun c => (c.object rgb2xy kelvin2xy).message := by
  induction commands with
  | nil => rfl
  | cons c commands ih =>
    obtain ⟨hc, hcommands⟩ := List.forall_mem_cons.mp hgiven
    rw [List.flatMap_cons, writes_eq rgb2xy kelvin2xy db hc, ih hcommands]
    rfl

end LampCommand

end

section

variable {attrs : Attrs}

theorem WellRead.word (h : WellRead attrs) (name : String)
    : Word (attrs.parsingGetStringAttr name) :=
  ⟨h.quotable name, Nat.le_succ_of_le (h.short name)⟩

theorem quotable_member (h : WellRead attrs) (name : String)
    : ∀ text ∈ member attrs name, Quotable text := by
  intro text htext
  unfold member Attrs.parsingGetStringAttr0 at htext
  split at htext
  . cases htext
  . obtain rfl := Option.some.inj htext
    exact h.quotable name

variable (rgb2xy kelvin2xy : Int32 → Int32 × Int32)

/--
The members of a message to a group.
-/
theorem members_grp (attrs : Attrs)
    : ((LampCommand.grp attrs).object rgb2xy kelvin2xy).members
      = [int "grpid" (attrs.parsingGetIntAttr "grpid")] ++ ifString "scn" (member attrs "scn")
        ++ ifInt (0 ≤ attrs.parsingGetIntAttr "scnid") "scnid" (attrs.parsingGetIntAttr "scnid")
        ++ ifString "cmd" (member attrs "cmd")
        ++ ifInt (0 ≤ (groupNumbers rgb2xy kelvin2xy attrs).1) "lvl"
          (groupNumbers rgb2xy kelvin2xy attrs).1
        ++ ifInt (0 ≤ (groupNumbers rgb2xy kelvin2xy attrs).2.1) "xcr"
          (groupNumbers rgb2xy kelvin2xy attrs).2.1
        ++ ifInt (0 ≤ (groupNumbers rgb2xy kelvin2xy attrs).2.2) "ycr"
          (groupNumbers rgb2xy kelvin2xy attrs).2.2 := by
  unfold LampCommand.object jsonGroup groupNumbers
  simp only
  repeat' split
  all_goals first | rfl | simp_all

theorem lookup_cmd : stringMaxlens.lookup "cmd" = some 12 := by decide
theorem lookup_scn : stringMaxlens.lookup "scn" = some 8 := by decide
theorem lookup_grp : stringMaxlens.lookup "grp" = some 8 := by decide
theorem lookup_mac : stringMaxlens.lookup "mac" = some 16 := by decide

/--
What the ZCB daemon finds in a message to a group.
-/
structure HearsGroup (attrs heard : Attrs) : Prop where
  grpid : heard.parsingGetIntAttr "grpid" = attrs.parsingGetIntAttr "grpid"
  scnid : heard.parsingGetIntAttr "scnid"
    = if 0 ≤ attrs.parsingGetIntAttr "scnid" then attrs.parsingGetIntAttr "scnid" else Attrs.INT_MIN
  lvl : heard.parsingGetIntAttr "lvl"
    = if 0 ≤ (groupNumbers rgb2xy kelvin2xy attrs).1 then (groupNumbers rgb2xy kelvin2xy attrs).1
      else Attrs.INT_MIN
  xcr : heard.parsingGetIntAttr "xcr"
    = if 0 ≤ (groupNumbers rgb2xy kelvin2xy attrs).2.1 then
        (groupNumbers rgb2xy kelvin2xy attrs).2.1
      else Attrs.INT_MIN
  ycr : heard.parsingGetIntAttr "ycr"
    = if 0 ≤ (groupNumbers rgb2xy kelvin2xy attrs).2.2 then
        (groupNumbers rgb2xy kelvin2xy attrs).2.2
      else Attrs.INT_MIN
  cmd : heard.parsingGetStringAttr "cmd"
    = ((member attrs "cmd").filter fun text => text.toList.length ≤ 12).getD ""
  scn : heard.parsingGetStringAttr "scn"
    = ((member attrs "scn").filter fun text => text.toList.length ≤ 8).getD ""

theorem hearsGroup (h : WellRead attrs)
    : HearsGroup rgb2xy kelvin2xy attrs
        (hearMembers ((LampCommand.grp attrs).object rgb2xy kelvin2xy).members
          Attrs.parsingReset) := by
  have hcmd := quotable_member h "cmd"
  have hscn := quotable_member h "scn"
  rw [members_grp]
  simp only [hearMembers_append]
  rw [hear_int (by decide), hear_ifString lookup_scn hscn, hear_ifInt (by decide),
    hear_ifString lookup_cmd hcmd, hear_ifInt (by decide), hear_ifInt (by decide),
    hear_ifInt (by decide)]
  constructor
  . simp
  . simp
  . simp
  . simp
  . simp
  . simp
  . simp

/--
What the ZCB daemon finds in a message about the groups of a lamp. The numbers 0 are not in it.
-/
structure HearsLamp (attrs heard : Attrs) : Prop where
  grpid : heard.parsingGetIntAttr "grpid"
    = if 0 < attrs.parsingGetIntAttr "grpid" then attrs.parsingGetIntAttr "grpid" else Attrs.INT_MIN
  scnid : heard.parsingGetIntAttr "scnid"
    = if 0 < attrs.parsingGetIntAttr "scnid" then attrs.parsingGetIntAttr "scnid" else Attrs.INT_MIN
  missing : ∀ name ∈ ["lvl", "xcr", "ycr", "kelvin"], heard.parsingGetIntAttr name = Attrs.INT_MIN
  mac : heard.parsingGetStringAttr "mac" = attrs.parsingGetStringAttr "mac"
  cmd : heard.parsingGetStringAttr "cmd" = ""
  grp : heard.parsingGetStringAttr "grp"
    = ((member attrs "grp").filter fun text => text.toList.length ≤ 8).getD ""
  scn : heard.parsingGetStringAttr "scn"
    = ((member attrs "scn").filter fun text => text.toList.length ≤ 8).getD ""

theorem hearsLamp (h : WellRead attrs)
    : HearsLamp attrs
        (hearMembers ((LampCommand.lmp attrs).object rgb2xy kelvin2xy).members
          Attrs.parsingReset) := by
  have hgrp := quotable_member h "grp"
  have hscn := quotable_member h "scn"
  unfold LampCommand.object jsonLampGroup
  simp only [hearMembers_append]
  rw [hear_string lookup_mac (h.quotable "mac"), if_pos h.mac, hear_ifString lookup_grp hgrp,
    hear_ifInt (by decide), hear_ifString lookup_scn hscn, hear_ifInt (by decide)]
  constructor
  . simp [Attrs.parsingStringAttr]
  . simp [Attrs.parsingStringAttr]
  . simp [Attrs.parsingStringAttr]
  . simp [Attrs.parsingStringAttr]
  . simp [Attrs.parsingStringAttr]
  . simp [Attrs.parsingStringAttr]
  . simp [Attrs.parsingStringAttr]

end

section

variable {attrs heard : Attrs} (line : ZcbDaemon.Command → Sending)

/--
A string that is too long for the ZCB daemon is not there.
-/
theorem get0_of_filter {name : String} {maxlen : Nat}
    (h : heard.parsingGetStringAttr name
      = ((member attrs name).filter fun text => text.toList.length ≤ maxlen).getD "")
    : heard.parsingGetStringAttr0 name
      = (attrs.parsingGetStringAttr0 name).filter fun text => text.val.toList.length ≤ maxlen := by
  unfold member at h
  rcases hget : attrs.parsingGetStringAttr0 name with _ | text
  . rw [hget] at h
    have hempty : heard.parsingGetStringAttr name = "" := h
    unfold Attrs.parsingGetStringAttr0
    rw [dif_pos hempty]
    rfl
  . rw [hget, Option.map_some, Option.filter_some] at h
    rw [Option.filter_some]
    simp only [decide_eq_true_eq] at h ⊢
    split at h
    . next hle =>
      unfold Attrs.parsingGetStringAttr0
      rw [if_pos hle]
      have hne : heard.parsingGetStringAttr name ≠ "" := by
        rw [h]
        exact text.2
      rw [dif_neg hne]
      apply congrArg some
      exact Subtype.ext h
    . next hgt =>
      have hempty : heard.parsingGetStringAttr name = "" := h
      unfold Attrs.parsingGetStringAttr0
      rw [if_neg hgt, dif_pos hempty]

theorem ne_of_long {text : Text} {maxlen : Nat} (hlong : ¬text.val.toList.length ≤ maxlen)
    {word : String} (hword : word.toList.length ≤ maxlen)
    : text.val ≠ word := by
  rintro rfl
  exact hlong hword

theorem grpCmd_filter (gid : Int32) (cmd : Option Text)
    : grpCmd line gid (cmd.filter fun text => text.val.toList.length ≤ 12)
      = grpCmd line gid cmd := by
  cases cmd with
  | none => rfl
  | some text =>
    rw [Option.filter_some]
    simp only [decide_eq_true_eq]
    split
    . rfl
    . next hlong =>
      have hon := ne_of_long hlong (show "on".toList.length ≤ 12 by decide)
      have hoff := ne_of_long hlong (show "off".toList.length ≤ 12 by decide)
      simp only [grpCmd, hon, hoff, if_false]

theorem grpScn_filter (gid sid : Int32) (scn : Option Text)
    : grpScn line gid (scn.filter fun text => text.val.toList.length ≤ 8) sid
      = grpScn line gid scn sid := by
  cases scn with
  | none => rfl
  | some text =>
    rw [Option.filter_some]
    simp only [decide_eq_true_eq]
    split
    . rfl
    . next hlong =>
      have hrecall := ne_of_long hlong (show "recall".toList.length ≤ 8 by decide)
      have hremall := ne_of_long hlong (show "remall".toList.length ≤ 8 by decide)
      simp only [grpScn, hrecall, hremall, if_false]

theorem lmpGrp_filter (address : UInt16) (gid : Int32) (grp : Option Text)
    : lmpGrp line address (grp.filter fun text => text.val.toList.length ≤ 8) gid
      = lmpGrp line address grp gid := by
  cases grp with
  | none => rfl
  | some text =>
    rw [Option.filter_some]
    simp only [decide_eq_true_eq]
    split
    . rfl
    . next hlong =>
      have hremall := ne_of_long hlong (show "remall".toList.length ≤ 8 by decide)
      have hadd := ne_of_long hlong (show "add".toList.length ≤ 8 by decide)
      have hrem := ne_of_long hlong (show "rem".toList.length ≤ 8 by decide)
      simp only [lmpGrp, hremall, hadd, hrem, if_false, ite_self]

theorem lmpScn_filter (address : UInt16) (gid sid : Int32) (scn : Option Text)
    : lmpScn line address (scn.filter fun text => text.val.toList.length ≤ 8) gid sid
      = lmpScn line address scn gid sid := by
  cases scn with
  | none => rfl
  | some text =>
    rw [Option.filter_some]
    simp only [decide_eq_true_eq]
    split
    . rfl
    . next hlong =>
      have hremall := ne_of_long hlong (show "remall".toList.length ≤ 8 by decide)
      have hadd := ne_of_long hlong (show "add".toList.length ≤ 8 by decide)
      have hrem := ne_of_long hlong (show "rem".toList.length ≤ 8 by decide)
      have hstore := ne_of_long hlong (show "store".toList.length ≤ 8 by decide)
      have hrecall := ne_of_long hlong (show "recall".toList.length ≤ 8 by decide)
      simp only [lmpScn, hremall, hadd, hrem, hstore, hrecall, if_false, ite_self]

end

section

variable (rgb2xy kelvin2xy : Int32 → Int32 × Int32)

/--
What a client wants of the node: its own words and numbers, with the colour and the level converted.
Where the control interface only passes on positive numbers, 0 counts as missing.
-/
def LampCommand.effect (env : Conditions) : LampCommand → List ZcbDaemon.Command
  | grp attrs =>
    let gid := attrs.parsingGetIntAttr "grpid"
    let (lvl, xcr, ycr) := groupNumbers rgb2xy kelvin2xy attrs
    if 0 ≤ gid then
      grpCmd env.line gid (attrs.parsingGetStringAttr0 "cmd")
        ++ grpScn env.line gid (attrs.parsingGetStringAttr0 "scn") (attrs.parsingGetIntAttr "scnid")
        ++ sendLevel env.line 0xFFFF (toU16 gid) lvl
        ++ sendColour env.line 0xFFFF (toU16 gid) xcr ycr
    else
      []
  | lmp attrs =>
    let positive (name : String) : Int32 :=
      if 0 < attrs.parsingGetIntAttr name then attrs.parsingGetIntAttr name else Attrs.INT_MIN
    let address := zcbNodeGetShortAddress (attrs.parsingGetStringAttr "mac") env.db
    if address ≠ 0xFFFF then
      lmpGrp env.line address (attrs.parsingGetStringAttr0 "grp") (positive "grpid")
        ++ lmpScn env.line address (attrs.parsingGetStringAttr0 "scn") (positive "grpid")
          (positive "scnid")
    else
      []

theorem ite_nonneg (value : Int32)
    : (0 ≤ if 0 ≤ value then value else Attrs.INT_MIN) ↔ 0 ≤ value := by
  split
  . rfl
  . next h =>
    apply iff_of_false _ h
    decide

theorem grpScn_ite (line : ZcbDaemon.Command → Sending) (gid sid : Int32) (scn : Option Text)
    : grpScn line gid scn (if 0 ≤ sid then sid else Attrs.INT_MIN) = grpScn line gid scn sid := by
  cases scn with
  | none => rfl
  | some text =>
    unfold grpScn
    simp only [ite_nonneg]
    split
    . split
      . rfl
      . rfl
    . rfl

theorem sendLevel_ite (line : ZcbDaemon.Command → Sending) (short group : UInt16) (lvl : Int32)
    : sendLevel line short group (if 0 ≤ lvl then lvl else Attrs.INT_MIN)
      = sendLevel line short group lvl := by
  unfold sendLevel
  simp only [ite_nonneg]
  split
  . rfl
  . rfl

theorem sendColour_ite (line : ZcbDaemon.Command → Sending) (short group : UInt16) (xcr ycr : Int32)
    : sendColour line short group (if 0 ≤ xcr then xcr else Attrs.INT_MIN)
        (if 0 ≤ ycr then ycr else Attrs.INT_MIN)
      = sendColour line short group xcr ycr := by
  unfold sendColour
  simp only [ite_nonneg]
  split
  . next h => rw [if_pos h.1, if_pos h.2]
  . rfl

theorem grpHandle_heard {attrs heard : Attrs} (env : Conditions)
    (h : HearsGroup rgb2xy kelvin2xy attrs heard)
    : grpHandle env.line heard = (LampCommand.grp attrs).effect rgb2xy kelvin2xy env := by
  unfold grpHandle LampCommand.effect
  simp only [h.grpid, h.scnid, h.lvl, h.xcr, h.ycr, get0_of_filter h.cmd, get0_of_filter h.scn,
    grpCmd_filter, grpScn_filter, grpScn_ite, sendLevel_ite, sendColour_ite]

theorem lmpHandle_heard {attrs heard : Attrs} (env : Conditions) (h : HearsLamp attrs heard)
    (hmac : attrs.parsingGetStringAttr "mac" ≠ "")
    : lmpHandle env.line heard env.db = (LampCommand.lmp attrs).effect rgb2xy kelvin2xy env := by
  have hmac0 : heard.parsingGetStringAttr0 "mac"
      = some ⟨attrs.parsingGetStringAttr "mac", hmac⟩ := by
    unfold Attrs.parsingGetStringAttr0
    simp only [h.mac]
    exact dif_neg hmac
  have hcmd0 : heard.parsingGetStringAttr0 "cmd" = none := by
    unfold Attrs.parsingGetStringAttr0
    exact dif_pos h.cmd
  have hlvl := h.missing "lvl" (by decide)
  have hxcr := h.missing "xcr" (by decide)
  have hycr := h.missing "ycr" (by decide)
  have hkelvin := h.missing "kelvin" (by decide)
  have hneg : ¬0 ≤ Attrs.INT_MIN := by decide
  have hnpos : ¬0 < Attrs.INT_MIN := by decide
  unfold lmpHandle LampCommand.effect
  simp only [hmac0, hcmd0, hlvl, hxcr, hycr, hkelvin, h.grpid, h.scnid, get0_of_filter h.grp,
    get0_of_filter h.scn, lmpGrp_filter, lmpScn_filter, lmpCmd, sendLevel, sendColour, lmpKelvin,
    hneg, hnpos, false_and, if_false, List.nil_append, List.append_nil]

/--
The ZCB daemon does with the message of a command what the client wants.
-/
theorem answer_command (env : Conditions) (s : Handlers) {c : LampCommand} (hgiven : c.Given)
    : (answer s (env, c.object rgb2xy kelvin2xy)).2
      = (c.effect rgb2xy kelvin2xy env).map .command := by
  cases c with
  | grp attrs =>
    have heard := grpHandle_heard rgb2xy kelvin2xy env (hearsGroup rgb2xy kelvin2xy hgiven)
    rw [← heard]
    rfl
  | lmp attrs =>
    obtain ⟨hread, hmac, -⟩ := hgiven
    have heard := lmpHandle_heard rgb2xy kelvin2xy env (hearsLamp rgb2xy kelvin2xy hread) hmac
    rw [← heard]
    rfl

theorem sendable_command {c : LampCommand} (hgiven : c.Given)
    : Sendable (c.object rgb2xy kelvin2xy) := by
  cases c with
  | grp attrs =>
    have hwords := hgiven.word
    exact sendable_group rgb2xy kelvin2xy (words_get0 hwords "scn") (words_get0 hwords "cmd") _ _ _
      _ _ _ _
  | lmp attrs =>
    have hwords := hgiven.1.word
    exact sendable_lampGroup (hwords "mac") (words_get0 hwords "grp") (words_get0 hwords "scn") _ _

/--
Taking the messages of commands is doing what the clients want.
-/
theorem run_commands (s : Json.ParserData × Handlers) (taken : List (Conditions × Message))
    (commands : List LampCommand) (hgiven : ∀ c ∈ commands, c.Given)
    (htexts : taken.map Prod.snd = commands.map fun c => (c.object rgb2xy kelvin2xy).message)
    : trace readMessage s taken
      = ((taken.map Prod.fst).zip commands).flatMap fun d =>
          (d.2.effect rgb2xy kelvin2xy d.1).map .command := by
  induction taken generalizing s commands with
  | nil => rfl
  | cons message taken ih =>
    obtain ⟨env, text⟩ := message
    cases commands with
    | nil => cases htexts
    | cons c commands =>
      obtain ⟨htext, hrest⟩ := List.cons.inj htexts
      simp only at htext
      obtain ⟨hc, hcommands⟩ := List.forall_mem_cons.mp hgiven
      obtain ⟨hspells, hlength⟩ := (sendable_command rgb2xy kelvin2xy hc).spells
      rw [← htext] at hspells hlength
      rw [trace_cons, readMessage_spells env s hspells hlength, (parse_object env s hspells).2,
        answer_command rgb2xy kelvin2xy env s.2 hc, ih _ commands hcommands hrest]
      rfl

/--
However the clients, the control interface and the ZCB daemon follow each other: of the commands to
lamps and groups whose messages have got into the queue, some first ones are done, each with what its
client wants and in order, and the others are still in the queue.
-/
theorem lamp_commands_arrive (db : Db) (s : Main) (inputs : List MainInput)
    (commands : List LampCommand) (hqueue : s.queue = []) (hgiven : ∀ c ∈ commands, c.Given)
    (harrives : inputs.flatMap MainInput.arrives
      = commands.flatMap (LampCommand.writes rgb2xy kelvin2xy db))
    : ∃ (envs : List Conditions) (done pending : List LampCommand),
        commands = done ++ pending ∧ envs.length = done.length
          ∧ envs.Sublist (inputs.flatMap MainInput.offers)
          ∧ (exec mainStep s inputs).queue
              = pending.flatMap (LampCommand.writes rgb2xy kelvin2xy db)
          ∧ (trace mainStep s inputs).filter ToNode.isAnswer
              = (envs.zip done).flatMap fun d =>
                  (d.2.effect rgb2xy kelvin2xy d.1).map .command := by
  obtain ⟨taken, harrived, hoffers, hout, -⟩ := consumes_run consumes_mainStep s inputs
  rw [LampCommand.flatMap_writes rgb2xy kelvin2xy db commands hgiven] at harrives
  rw [hqueue, List.nil_append, harrives] at harrived
  obtain ⟨done, pending, rfl, hdone, hpending⟩ := List.map_eq_append_iff.mp harrived
  obtain ⟨hgiven, hgiven'⟩ := List.forall_mem_append.mp hgiven
  have hlength := congrArg List.length hdone
  rw [List.length_map, List.length_map] at hlength
  refine ⟨taken.map Prod.fst, done, pending, rfl, ?_, hoffers, ?_, ?_⟩
  . rw [List.length_map, hlength]
  . rw [LampCommand.flatMap_writes rgb2xy kelvin2xy db pending hgiven']
    exact hpending.symm
  . rw [hout]
    exact run_commands rgb2xy kelvin2xy s.reader taken done hgiven hdone.symm

end

/--
A client switches on a group.
-/
def groupOn : Attrs :=
  (Attrs.parsingReset.parsingIntAttr "grpid" 5).parsingStringAttr "cmd" "on"

theorem quotable_of_clean {value : String} (h : Clean value)
    (hshort : value.toList.length < MAXVALUE)
    : Quotable value := ⟨stringText_of_clean h, hshort⟩

theorem wellRead_groupOn : WellRead groupOn := by
  have hstring (name : String)
      : groupOn.parsingGetStringAttr name = "on" ∨ groupOn.parsingGetStringAttr name = "" := by
    show (if name = "cmd" then "on" else "") = "on" ∨ (if name = "cmd" then "on" else "") = ""
    split
    . left; rfl
    . right; rfl
  constructor
  . intro name
    rcases hstring name with h | h
    . rw [h]
      exact quotable_of_clean (by unfold Clean; decide) (by decide)
    . rw [h]
      exact quotable_of_clean (by unfold Clean; decide) (by decide)
  . intro name
    rcases hstring name with h | h
    . rw [h]
      decide
    . rw [h]
      decide
  . decide

def groupOnInputs : List MainInput :=
  [.write true ((LampCommand.grp groupOn).object (fun _ => (0, 0)) fun _ => (0, 0)).message,
    .poll false eveningEnv 0]

theorem lamp_commands_arrive_groupOn
    : ∃ (envs : List Conditions) (done pending : List LampCommand),
        [LampCommand.grp groupOn] = done ++ pending ∧ envs.length = done.length
          ∧ envs.Sublist (groupOnInputs.flatMap MainInput.offers)
          ∧ (exec mainStep { reader := (.init, {}) } groupOnInputs).queue
              = pending.flatMap (LampCommand.writes (fun _ => (0, 0)) (fun _ => (0, 0)) Db.init)
          ∧ (trace mainStep { reader := (.init, {}) } groupOnInputs).filter ToNode.isAnswer
              = (envs.zip done).flatMap fun d =>
                  (d.2.effect (fun _ => (0, 0)) (fun _ => (0, 0)) d.1).map .command := by
  apply lamp_commands_arrive (fun _ => (0, 0)) (fun _ => (0, 0)) Db.init { reader := (.init, {}) }
    groupOnInputs [.grp groupOn] rfl
  . intro c hc
    rw [List.mem_singleton.mp hc]
    exact wellRead_groupOn
  . decide

end Gateway
