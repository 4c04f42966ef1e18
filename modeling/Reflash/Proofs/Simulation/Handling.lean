import Reflash.Proofs.Bus.Handling
import Reflash.Proofs.Simulation.Crate
/-!
# Single bus cycles on a simulated board

What one bus cycle can change on a board, whatever its address and value are. Reads and probes only
use up polls and accesses. A write sets a register, or it is a reset, a reboot request or the start
of one command. At the address of a register, a cycle is one at the register's offset.
-/

namespace Reflash

namespace SimulatedBoard

variable (b : SimulatedBoard)

theorem probe_eq : b.probe = (b.rebooting == 0, { b with rebooting := b.rebooting - 1 }) := by
  cases hcount : b.rebooting <;> simp [probe, isAway, hcount]

theorem isReady_frame : ∃ notReady, b.isReady.2 = { b with notReady := notReady } := by
  unfold isReady
  split
  · exact ⟨b.notReady, rfl⟩
  · exact ⟨b.notReady - 1, rfl⟩

theorem read_frame (offset : UInt32) :
    ∃ notReady rebooting,
      (b.read offset).2 =
        { b with
          notReady := notReady
          rebooting := rebooting
          activity.reads := b.activity.reads + 1 } := by
  let counted : SimulatedBoard := { b with activity.reads := b.activity.reads + 1 }
  unfold read
  split
  next => exact ⟨_, _, rfl⟩
  split
  next => exact ⟨b.notReady, b.rebooting - 1, rfl⟩
  split
  next => exact ⟨b.notReady, b.rebooting - 1, rfl⟩
  iterate 4
    split
    next => exact ⟨_, _, rfl⟩
  split
  next =>
    obtain ⟨notReady, hready⟩ := counted.isReady_frame
    exact ⟨notReady, b.rebooting, hready⟩
  next => exact ⟨_, _, rfl⟩

theorem write_cases (offset value : UInt32) :
    let counted : SimulatedBoard := { b with activity.writes := b.activity.writes + 1 }
    (∃ control address data,
        b.write offset value =
          { counted with control := control, address := address, data := data }) ∨
      (offset = Register.reset ∧ b.write offset value = counted.reset) ∨
      (offset = Register.command ∧ hasBits value Control.reboot = true ∧
        b.write offset value = { counted.reboot with control := value }) ∨
      (offset = Register.command ∧ hasBits value Control.reboot = false ∧
        ∃ field closing,
          b.write offset value = ({ counted with control := value }).runCommand field closing) := by
  intro counted
  by_cases hreset : offset = Register.reset
  · exact .inr (.inl ⟨hreset, if_pos hreset⟩)
  by_cases hcommand : offset = Register.command
  · have hwrite : b.write offset value = counted.writeControl value :=
      (if_neg hreset).trans (if_pos hcommand)
    rw [hwrite, writeControl]
    dsimp only
    by_cases hreboot : hasBits value Control.reboot = true
    · rw [if_pos hreboot]
      exact .inr (.inr (.inl ⟨hcommand, hreboot, rfl⟩))
    · rw [if_neg hreboot]
      cases counted.started? value with
      | none => exact .inl ⟨value, b.address, b.data, rfl⟩
      | some field =>
          exact .inr (.inr (.inr ⟨hcommand, Bool.eq_false_iff.mpr hreboot, field, _, rfl⟩))
  · refine .inl ?_
    have hwrite : b.write offset value =
        if offset = Register.address then { counted with address := value &&& Rom.addressMask }
        else if offset = Register.data then { counted with data := value }
        else counted := (if_neg hreset).trans (if_neg hcommand)
    rw [hwrite]
    split
    · exact ⟨b.control, value &&& Rom.addressMask, b.data, rfl⟩
    split
    · exact ⟨b.control, b.address, value, rfl⟩
    · exact ⟨b.control, b.address, b.data, rfl⟩

/-- The identification can be read even from a board that is away. -/
theorem read_boardId :
    b.read Register.boardId =
      (boardId, { b with activity.reads := b.activity.reads + 1 }) := by
  unfold read
  rw [if_pos rfl]

/-- What a probe of a register brings, and the board after it: the value in the register, unless
the board is away. -/
def probed (offset : UInt32) : Option UInt32 × SimulatedBoard :=
  if b.rebooting = 0 then (some (b.read offset).1, (b.read offset).2)
  else (none, { b with rebooting := b.rebooting - 1 })

/-! ## What the board runs -/

def firmware : Version × Option Version × Nat :=
  (b.version, b.rebootVersion, b.activity.reboots)

theorem firmware_read (offset : UInt32) : (b.read offset).2.firmware = b.firmware := by
  obtain ⟨notReady, rebooting, hread⟩ := b.read_frame offset
  rw [hread]
  rfl

theorem firmware_probe : b.probe.2.firmware = b.firmware := by
  rw [probe_eq]
  rfl

theorem firmware_runCommand (field : UInt8) (closing : Bool) :
    (b.runCommand field closing).firmware = b.firmware := by
  unfold runCommand
  cases Rom.Opcode.ofByte? field with
  | none => rfl
  | some opcode =>
      cases opcode with
      | writeDisable | writeEnable | autoRead | readId => rfl
      | readStatus =>
          simp only [execute, reportStatus]
          split <;> rfl
      | bulkErase =>
          simp only [execute, bulkErase]
          split <;> rfl
      | pageProgram =>
          simp only [execute, pageProgram, commitPage]
          split <;> split <;> rfl

/-- Only a reboot changes what the board runs. -/
theorem firmware_write {offset value : UInt32}
    (h : offset = Register.command → hasBits value Control.reboot = false) :
    (b.write offset value).firmware = b.firmware := by
  obtain ⟨_, _, _, hwrite⟩ | ⟨-, hwrite⟩ | ⟨hcommand, hreboot, -⟩ | ⟨-, -, _, _, hwrite⟩ :=
    b.write_cases offset value
  · rw [hwrite]
    rfl
  · rw [hwrite]
    rfl
  · rw [h hcommand] at hreboot
    cases hreboot
  · rw [hwrite, firmware_runCommand]
    rfl

end SimulatedBoard

/-! ## Runs on a board -/

namespace Board

variable {σ ε : Type} {slot : Slot} {offset : UInt32}

theorem run_read (h : offset ≤ Register.engineStatus) (t : σ) (b : SimulatedBoard) :
    (((geographic slot).read offset : Job σ ε UInt32) t).run Bus.handler b =
      ((.ok (b.read offset).1, t), (b.read offset).2) := by
  have hread : Bus.read b ((geographic slot).base + offset) = b.read offset :=
    congrArg b.read (SimulatedCrate.offset_register slot h)
  rw [slot.fits_geographic.read_eq h, Job.run_read, hread]

theorem run_write (h : offset ≤ Register.engineStatus) (value : UInt32) (t : σ)
    (b : SimulatedBoard) :
    (((geographic slot).write offset value : Job σ ε Unit) t).run Bus.handler b =
      ((.ok (), t), b.write offset value) := by
  have hwrite : Bus.write b ((geographic slot).base + offset) value = b.write offset value :=
    congrArg (b.write · value) (SimulatedCrate.offset_register slot h)
  rw [slot.fits_geographic.write_eq h, Job.run_write, hwrite]

theorem run_probe (h : offset ≤ Register.engineStatus) (t : σ) (b : SimulatedBoard) :
    (((geographic slot).probe offset : Job σ ε (Option UInt32)) t).run Bus.handler b =
      ((.ok (b.probed offset).1, t), (b.probed offset).2) := by
  have haddress : ((geographic slot).address offset : Job σ ε UInt32) =
      pure ((geographic slot).base + offset) := slot.fits_geographic.address_eq h
  have hprobe : Bus.probe b ((geographic slot).base + offset) =
      (b.rebooting == 0, { b with rebooting := b.rebooting - 1 }) := b.probe_eq
  have hread : (((geographic slot).read offset : Job σ ε UInt32) t).run Bus.handler b =
      ((.ok (b.read offset).1, t), (b.read offset).2) := run_read h t b
  rw [read, haddress, pure_bind] at hread
  rw [probe, haddress, pure_bind, Routine.run_bind_ok (Job.run_probe _ t b), hprobe,
    SimulatedBoard.probed]
  by_cases hback : b.rebooting = 0
  · have hsame : ({ b with rebooting := b.rebooting - 1 } : SimulatedBoard) = b := by
      rw [hback, Nat.zero_sub, ← hback]
    rw [if_pos hback, if_pos (beq_iff_eq.mpr hback), hsame, Routine.run_bind_ok hread]
    rfl
  · rw [if_neg hback, if_neg (mt beq_iff_eq.mp hback)]
    rfl

end Board
end Reflash
