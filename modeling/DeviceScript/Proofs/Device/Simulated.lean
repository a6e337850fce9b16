import DeviceScript.Device.Simulated
import DeviceScript.Proofs.Course.Served
import DeviceScript.Proofs.Instruction
/-!
# What a simulated device makes of a line

The command of a line is cut out of it twice.  A script takes the command word up to the first blank
behind the point and writes it down again with the arguments; a simulated device takes the first
word of what is written down, to look it up among the commands that it refuses.  The two cuts agree
on every line that has a command word (`Simulated.commandName_payload`), because the command word
has no blank in it and what follows it begins with one.  So the device refuses exactly the command
words on its list, whatever the arguments are (`Simulated.refuses_listed`).

Without a command word the device looks further, at the arguments
(`Simulated.commandName_payload_of_empty`).
-/

namespace DeviceScript

open Text

/-! ## 1. The first word -/

/-- A text with something before its first blank has it for its first word. -/
theorem Text.firstWord_of_split {cs : List Char} (h : (splitAtBlank cs).1 ≠ []) :
    firstWord cs = some (splitAtBlank cs).1 := by
  cases cs with
  | nil => exact absurd rfl h
  | cons x r =>
    have hx : isBlank x = false := by
      rw [← Bool.not_eq_true]
      intro hx
      have hnone : (splitAtBlank (x :: r)).1 = [] := by simp [splitAtBlank, hx]
      exact h hnone
    simp [firstWord, trimStart, hx]

namespace Simulated

variable {c : DeviceCommand} {sim : Simulated} {req : Request}

/-- **The two cuts agree.** -/
theorem commandName_payload (hv : ∀ x ∈ c.command.toList, isBlank x = false) (hc : c.command ≠ "") :
    commandName c.payload = c.command := by
  have hsplit := Instruction.splitAtBlank_payload hv
  have hword : firstWord c.payload.toList = some c.command.toList := by
    have hne : (splitAtBlank c.payload.toList).1 ≠ [] := by
      rw [hsplit]
      exact mt String.toList_eq_nil_iff.mp hc
    rw [firstWord_of_split hne, hsplit]
  rw [commandName, hword]
  exact String.ofList_toList

/-- Blanks before a command do not count for its name. -/
theorem commandName_payload_of_empty (hc : c.command = "") (ha : c.args ≠ "") :
    commandName c.payload = commandName c.args := by
  have hb : isBlank ' ' = true := by decide
  have hw : firstWord c.payload.toList = firstWord c.args.toList := by
    rw [DeviceCommand.payload, if_neg ha, hc]
    simp [firstWord, trimStart, hb]
  rw [commandName, hw, commandName]

/-- A simulated device refuses the commands on its list. -/
theorem success_reply_iff : (sim.reply req).success = true ↔ commandName req.command ∉ sim.reject := by
  by_cases h : commandName req.command ∈ sim.reject <;> simp [reply, h, Reply.rejected, Reply.ok]

/-- What is answered depends on the command word alone, and a refusal names it. -/
theorem reply_payload (sim : Simulated) (hv : ∀ x ∈ c.command.toList, isBlank x = false)
    (hc : c.command ≠ "") :
    sim.reply ⟨c.device, c.payload⟩ =
      if c.command ∈ sim.reject then .rejected (c.device ++ " rejected '" ++ c.command ++ "'")
      else .ok := by
  simp only [reply, commandName_payload hv hc]

/-! ## 2. Lines -/

/-- **A device refuses the commands on its list**, and no others.  A line commands a device that is
simulated and connected, and it has a command word.  What the line hands over is answered after the
latency of the device, whatever the arguments are; the answer is a refusal exactly when the command
word is on the list of the device, and then it names this word; otherwise it is the plain
acknowledgement. -/
theorem refuses_listed {line : String} {c : DeviceCommand} {r : Registry} {sim : Simulated}
    (h : Instruction.classify line = .command c) (hc : c.command ≠ "")
    (hd : r.devices.find? c.device = some ⟨sim.handler, .simulated, true⟩) :
    ∃ reply : Reply, r.handle ⟨c.device, c.payload⟩ = .after sim.latency (.replied reply) ∧
      (reply.success = false ↔ c.command ∈ sim.reject) ∧
      (c.command ∈ sim.reject →
        reply = .rejected (c.device ++ " rejected '" ++ c.command ++ "'")) ∧
      (c.command ∉ sim.reject → reply = .ok) := by
  obtain ⟨hv, ha⟩ := Instruction.parts_of_classify h
  have hblank : allBlank c.payload.toList = false := by
    rw [← Bool.not_eq_true, DeviceCommand.allBlank_payload_iff hv ha]
    exact fun hempty => hc hempty.1
  have hreply := sim.reply_payload hv hc
  refine ⟨sim.reply ⟨c.device, c.payload⟩, ?_, ?_, ?_, ?_⟩
  · exact Registry.handle_of_connected ⟨c.device, c.payload⟩ hd rfl hblank
  · rw [← Bool.not_eq_true, success_reply_iff, commandName_payload hv hc, not_not]
  · intro hmem
    rw [hreply, if_pos hmem]
  · intro hmem
    rw [hreply, if_neg hmem]

/-- Two devices, of which the second was disconnected for a while. -/
def pickyRegistry : Registry :=
  let r := register {} .empty "alpha"
  let r := register ⟨40, ["eject", "a.b"]⟩ r "beta"
  ((r.setConnected "beta" false).1.setConnected "beta" true).1

/-- Wide gaps and points in the arguments do not matter, nor that an argument is on the list. -/
theorem refuses_eject :
    Instruction.classify "\u2003beta .eject\u00a0 a.b \u3000now" =
        .command ⟨"beta", "eject", "a.b \u3000now"⟩ ∧
      Instruction.classify "beta.load a.b" = .command ⟨"beta", "load", "a.b"⟩ ∧
      pickyRegistry.devices.find? "beta" =
        some ⟨handler ⟨40, ["eject", "a.b"]⟩, .simulated, true⟩ ∧
      pickyRegistry.handle ⟨"beta", "eject a.b \u3000now"⟩ =
        .after 40 (.replied (.rejected "beta rejected 'eject'")) ∧
      pickyRegistry.handle ⟨"beta", "load a.b"⟩ = .after 40 (.replied .ok) := by
  have heject : Instruction.classify "\u2003beta .eject\u00a0 a.b \u3000now" =
      .command ⟨"beta", "eject", "a.b \u3000now"⟩ := by decide
  have hload : Instruction.classify "beta.load a.b" = .command ⟨"beta", "load", "a.b"⟩ := by decide
  have hd : pickyRegistry.devices.find? "beta" =
      some ⟨handler ⟨40, ["eject", "a.b"]⟩, .simulated, true⟩ := rfl
  obtain ⟨no, hno, -, hrejected, -⟩ := refuses_listed heject (by decide) hd
  obtain ⟨yes, hyes, -, -, hok⟩ := refuses_listed hload (by decide) hd
  obtain rfl := hrejected (by decide)
  obtain rfl := hok (by decide)
  exact ⟨heject, hload, hd, hno, hyes⟩

end Simulated

end DeviceScript
