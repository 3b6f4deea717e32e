import IotGateway.Dbp.Impl.Client

/-!
This module says for which contents of the receive buffer the parser of the requests stays inside the
buffer and its copy of the MAC address.
-/

namespace Dbp.Client

open Accesses Substring

variable {input needle : Text} {cmd_len : Nat} {buf : Buffer} {beyond : Text}

theorem searchAccess_inside (hinput : input.length < 512)
    : Inside size [searchAccess needle input] := by
  rw [inside_cons]
  refine ⟨.inr ?_, inside_nil⟩
  unfold searchAccess
  cases hfound : strstr needle input with
  | none =>
    show 0 + (input.length + 1) ≤ 512
    omega
  | some found =>
    obtain ⟨hsuffix, hbegins⟩ := suffix_of_strstr hfound
    have hle := hsuffix.length_le
    have hneedle := hbegins.length_le
    show 0 + (input.length - found.length + needle.length) ≤ 512
    omega

theorem searches_inside (hinput : input.length < 512) (needles : List Text)
    : Inside size (needles.map (searchAccess · input)) := by
  induction needles with
  | nil => exact inside_nil
  | cons needle needles ih =>
    rw [List.map_cons, ← List.singleton_append, inside_append]
    exact ⟨searchAccess_inside hinput, ih⟩

/--
The text that follows `0x`, or the command, has no more letters than a MAC address.
-/
def Fits (input : Text) (cmd_len : Nat) : Prop :=
  match strstr QUERY_PREFIX input with
  | some pos => pos.length ≤ 2 + MAC_STRING_LEN
  | none => input.length ≤ cmd_len + MAC_STRING_LEN

/--
The command has no MAC address, or one that fits.
-/
def CopyFits (input : Text) : Prop := ∀ cmd_len ∈ (command input).cmd_len, Fits input cmd_len

theorem length_of_prefix {pos : Text} (h : strstr QUERY_PREFIX input = some pos)
    : 2 ≤ pos.length ∧ pos.length ≤ input.length := by
  obtain ⟨hsuffix, hbegins⟩ := suffix_of_strstr h
  exact ⟨hbegins.length_le, hsuffix.length_le⟩

theorem macAccesses_inside_iff (hinput : input.length < 512)
    : Inside size (macAccesses input cmd_len) ↔ Fits input cmd_len := by
  have hsearch : Inside size [searchAccess QUERY_PREFIX input] := searchAccess_inside hinput
  unfold macAccesses Fits get_mac_address
  rw [← List.singleton_append, inside_append]
  simp only [hsearch, true_and]
  cases h : strstr QUERY_PREFIX input with
  | none =>
    dsimp only
    split
    . next hshort =>
      have hparent : temp_parent.length = 16 := by decide
      simp only [inside_cons, size, MAC_STRING_LEN, hparent]
      simp
      omega
    . next hlong =>
      simp only [inside_cons, size, MAC_STRING_LEN, List.length_drop]
      simp
      omega
  | some pos =>
    obtain ⟨htwo, hle⟩ := length_of_prefix h
    simp only [inside_cons, size, MAC_STRING_LEN, List.length_drop]
    simp
    omega

/--
If there is no terminator in the buffer the copy reads on behind it.
-/
theorem macAccesses_outside (hinput : 512 ≤ input.length)
    : ¬Inside size (macAccesses input cmd_len) := by
  unfold macAccesses
  cases h : strstr QUERY_PREFIX input with
  | none =>
    simp only [inside_cons, size]
    omega
  | some pos =>
    obtain ⟨htwo, hle⟩ := length_of_prefix h
    simp only [inside_cons, size]
    omega

/--
A command without a MAC address is found after a search that goes on to the terminator.
-/
theorem searched_of_cmd_len (h : (command input).cmd_len = none)
    : QUERY_LOC ∈ (command input).searched ∧ has QUERY_LOC input = false := by
  unfold command at h ⊢
  split at h
  . split at h
    . cases h
    . cases h
  . next hloc =>
    rw [if_neg hloc]
    refine ⟨?_, Bool.eq_false_iff.mpr hloc⟩
    repeat' split
    all_goals exact List.mem_cons_self

theorem searches_outside (hinput : 512 ≤ input.length) {needles : List Text}
    (hneedle : needle ∈ needles) (hnone : has needle input = false)
    : ¬Inside size (needles.map (searchAccess · input)) := by
  intro h
  have hsearch := h _ (List.mem_map_of_mem hneedle)
  unfold has at hnone
  rw [Option.isSome_eq_false_iff, Option.isNone_iff_eq_none] at hnone
  simp only [searchAccess, hnone, size] at hsearch
  omega

/--
The accesses behind the check of the first letters.
-/
def commandAccesses (input : Text) : List (Access Arr) :=
  (command input).searched.map (searchAccess · input)
    ++ ((command input).cmd_len.map (macAccesses input)).getD []

theorem commandAccesses_inside_iff
    : Inside size (commandAccesses input) ↔ input.length < 512 ∧ CopyFits input := by
  unfold commandAccesses CopyFits
  rw [inside_append]
  by_cases hinput : input.length < 512
  . have hsearches := searches_inside hinput (command input).searched
    cases hcmd_len : (command input).cmd_len with
    | none => simpa [hinput] using hsearches
    | some cmd_len =>
      simpa [hinput, hsearches] using macAccesses_inside_iff hinput
  . refine iff_of_false ?_ fun h => hinput h.1
    rintro ⟨hsearches, hcopy⟩
    cases hcmd_len : (command input).cmd_len with
    | none =>
      obtain ⟨hmem, hnone⟩ := searched_of_cmd_len hcmd_len
      exact searches_outside (Nat.le_of_not_lt hinput) hmem hnone hsearches
    | some cmd_len =>
      rw [hcmd_len] at hcopy
      exact macAccesses_outside (Nat.le_of_not_lt hinput) hcopy

theorem parse_inside_iff (env : Env) (device : NewDb.Device)
    : Inside size (dbp_parse_data env device input 512 512).accesses
      ↔ (check_dbp input = true → input.length < 512 ∧ CopyFits input) := by
  unfold dbp_parse_data
  rw [if_neg (by decide)]
  by_cases hcheck : check_dbp input = true
  . rw [hcheck, ← commandAccesses_inside_iff]
    simp only [Bool.not_true, Bool.false_eq_true, if_false]
    split
    . show Inside size (⟨.input, 0, 3⟩ :: commandAccesses input) ↔ _
      simp [size]
    . show Inside size (⟨.input, 0, 3⟩ :: commandAccesses input) ↔ _
      simp [size]
  . have hother : check_dbp input = false := Bool.eq_false_iff.mpr hcheck
    simp [hother, size]

/--
What the C string functions see of these bytes.
-/
def untilNul (bytes : Text) : Text := bytes.takeWhile (· ≠ '\x00')

theorem untilNul_append_of_mem {bytes : Text} (h : '\x00' ∈ bytes) (rest : Text)
    : untilNul (bytes ++ rest) = untilNul bytes ∧ (untilNul bytes).length < bytes.length := by
  unfold untilNul
  induction bytes with
  | nil => cases h
  | cons c bytes ih =>
    by_cases hc : c = '\x00'
    . simp [hc]
    . have hbytes : '\x00' ∈ bytes := by
        cases h with
        | head => exact absurd rfl hc
        | tail _ h => exact h
      obtain ⟨happend, hlength⟩ := ih hbytes
      constructor
      . simpa [hc] using happend
      . simpa [hc] using hlength

theorem untilNul_append_of_not_mem {bytes : Text} (h : '\x00' ∉ bytes) (rest : Text)
    : untilNul (bytes ++ rest) = bytes ++ untilNul rest := by
  apply List.takeWhile_append_of_pos
  intro c hc
  apply decide_eq_true
  rintro rfl
  exact h hc

theorem untilNul_of_not_mem {bytes : Text} (h : '\x00' ∉ bytes) : untilNul bytes = bytes := by
  have happend := untilNul_append_of_not_mem h []
  rw [List.append_nil] at happend
  exact happend.trans (List.append_nil _)

/--
What is left of the cleared buffer begins with a terminator.
-/
theorem drop_zero {n : Nat} (h : n < 512)
    : Buffer.zero.bytes.drop n = '\x00' :: List.replicate (511 - n) '\x00' := by
  show (List.replicate 512 '\x00').drop n = _
  rw [List.drop_replicate, ← List.replicate_succ]
  congr 1
  omega

theorem text_of_mem (h : '\x00' ∈ buf.bytes) (beyond : Text)
    : buf.text beyond = untilNul buf.bytes ∧ (buf.text beyond).length < 512 := by
  obtain ⟨happend, hlength⟩ := untilNul_append_of_mem h beyond
  have htext : buf.text beyond = untilNul buf.bytes := happend
  rw [buf.length_eq] at hlength
  rw [htext]
  exact ⟨rfl, hlength⟩

theorem text_of_not_mem (h : '\x00' ∉ buf.bytes) (beyond : Text)
    : 512 ≤ (buf.text beyond).length := by
  have happend : buf.text beyond = buf.bytes ++ untilNul beyond :=
    untilNul_append_of_not_mem h beyond
  rw [happend, List.length_append, buf.length_eq]
  omega

/--
A terminator is none of the letters.
-/
theorem check_dbp_untilNul (bytes : Text) : check_dbp (untilNul bytes) = check_dbp bytes := by
  have hnul : Char.toLower '\x00' = '\x00' := by decide
  unfold check_dbp untilNul
  rcases bytes with _ | ⟨a, _ | ⟨b, _ | ⟨c, rest⟩⟩⟩
  . rfl
  . by_cases ha : a = '\x00' <;> simp [ha]
  . by_cases ha : a = '\x00' <;> by_cases hb : b = '\x00' <;> simp [ha, hb]
  . by_cases ha : a = '\x00' <;> by_cases hb : b = '\x00' <;> by_cases hc : c = '\x00' <;>
      simp [ha, hb, hc, hnul]

theorem check_dbp_text : check_dbp (buf.text beyond) = check_dbp buf.bytes := by
  have htext : check_dbp (buf.text beyond) = check_dbp (buf.bytes ++ beyond) :=
    check_dbp_untilNul (buf.bytes ++ beyond)
  have hthree : 3 ≤ buf.bytes.length := by
    rw [buf.length_eq]
    decide
  rw [htext]
  unfold check_dbp
  rw [List.take_append_of_le_length hthree]

/--
The parser stays inside of the buffer and of its copy exactly if the buffer has no request, or one
with a terminator and a MAC address that fits.
-/
theorem copy_inside_iff (env : Env) (device : NewDb.Device) (buf : Buffer) (beyond : Text)
    : Inside size (dbp_parse_data env device (buf.text beyond) 512 512).accesses
      ↔ (check_dbp buf.bytes = true →
        '\x00' ∈ buf.bytes ∧ CopyFits (untilNul buf.bytes)) := by
  rw [parse_inside_iff, check_dbp_text]
  refine imp_congr_right fun _ => ?_
  by_cases hnul : '\x00' ∈ buf.bytes
  . obtain ⟨htext, hlength⟩ := text_of_mem hnul beyond
    rw [htext] at hlength ⊢
    simp [hnul, hlength]
  . have hlength := text_of_not_mem hnul beyond
    simp [hnul, Nat.not_lt_of_le hlength]

def lineRequest : Text := "dbp loc:0x00158D0000123456\r\n".toList

/--
The end of the line is copied behind the array.
-/
theorem line_not_inside
    : ¬∀ (env : Env) (device : NewDb.Device) (buf : Buffer) (beyond : Text),
      Inside size (dbp_parse_data env device (buf.text beyond) 512 512).accesses := by
  intro h
  have hinside := h ⟨true, {}, 0, false, [], fun _ => 0⟩ {}
    ⟨lineRequest ++ List.replicate 484 '\x00', by decide +kernel⟩ []
  revert hinside
  decide +kernel

end Dbp.Client
