import Reflash.Proofs.Rom.Frames
import Reflash.Proofs.Simulation.Command
/-!
# Looks at a simulated board

What a board holds does not change while its ROM is only looked at, whatever state the board is
in: with a page buffer open, with a write in progress, with any fault. A look uses up polls and
accesses, and sets the registers of the command engine.
-/

namespace Reflash

def Rom.Command.Looks (cmd : Rom.Command) : Prop := cmd.opcode = .autoRead ∨ cmd.opcode = .readId

theorem Rom.looks_of_mem_wordReads {cmd : Rom.Command} (h : cmd ∈ Rom.wordReads) : cmd.Looks := by
  obtain ⟨address, lastOfPage, rfl⟩ := h
  exact .inl rfl

theorem Rom.looks_of_mem_idReads {cmd : Rom.Command} (h : cmd ∈ Rom.idReads) : cmd.Looks := by
  obtain rfl := h
  exact .inr rfl

/-- The request writes nothing, or a part of the frame of a command that looks at the ROM in some
slot. -/
def Request.IsHarmless : Request → Prop
  | .write address value =>
    ∃ (slot : Slot) (cmd : Rom.Command) (offset : UInt32),
      cmd.Looks ∧ (offset, value) ∈ cmd.frame ∧ address = slot.base + offset
  | .read _ | .probe _ | .pause _ | .tick | .remark _ | .report _ => True

namespace SimulatedBoard

variable (b : SimulatedBoard) {cmd : Rom.Command}

/-- What a board holds: its ROM, its firmware, the write-enable latch, the write in progress, the
page buffer, and what is wrong with it. -/
def contents : RomContents × Version × Bool × Nat × Option (Array (Nat × UInt32)) × Faults :=
  (b.rom, b.version, b.writeEnabled, b.busy, b.page, b.faults)

theorem contents_read (offset : UInt32) : (b.read offset).2.contents = b.contents := by
  obtain ⟨notReady, rebooting, hread⟩ := b.read_frame offset
  rw [hread]
  rfl

theorem contents_probe : b.probe.2.contents = b.contents := by
  rw [probe_eq]
  rfl

theorem contents_runCommand (h : cmd.Looks) (closing : Bool) :
    (b.runCommand cmd.opcode.byte closing).contents = b.contents := by
  rw [runCommand, Rom.Opcode.ofByte?_byte]
  obtain h | h := h
  · rw [h]
    rfl
  · rw [h]
    rfl

/-- The execute bit starts the command that looks, or none if it was set before. -/
theorem contents_writeControl (h : cmd.Looks) {extra : UInt32}
    (hextra : extra = 0 ∨ extra = Control.execute) :
    (b.writeControl (cmd.control extra)).contents = b.contents := by
  obtain rfl | rfl := hextra
  · rw [writeControl_of_not_execute b (Control.IsCommandWord.hasBits_reboot ⟨cmd, .inl rfl⟩)
      cmd.hasBits_execute_control_zero]
    rfl
  · have hreboot : hasBits (cmd.control Control.execute) Control.reboot = false :=
      Control.IsCommandWord.hasBits_reboot ⟨cmd, .inr rfl⟩
    by_cases hidle : hasBits b.control Control.execute = false
    · rw [writeControl_of_execute b hreboot cmd.hasBits_execute_control hidle,
        cmd.opcodeField_control]
      exact contents_runCommand _ h _
    · have hstarted : b.started? (cmd.control Control.execute) = none := by
        simp [started?, hidle]
      rw [writeControl, hstarted, hreboot]
      rfl

theorem contents_write (h : cmd.Looks) {offset value : UInt32}
    (hframe : (offset, value) ∈ cmd.frame) : (b.write offset value).contents = b.contents := by
  let counted : SimulatedBoard := { b with activity.writes := b.activity.writes + 1 }
  obtain heq | ⟨_, -, heq⟩ | ⟨_, -, heq⟩ | heq := Rom.Command.mem_frame.mp hframe
  · cases heq
    exact contents_writeControl counted h (.inl rfl)
  · cases heq
    rfl
  · cases heq
    rfl
  · cases heq
    exact contents_writeControl counted h (.inr rfl)

theorem contents_handler {r : Request} (h : r.IsHarmless) :
    (Bus.handler r b).2.contents = b.contents := by
  cases r with
  | read address => exact b.contents_read (SimulatedCrate.offset address)
  | probe => exact b.contents_probe
  | write address value =>
      obtain ⟨slot, cmd, offset, hcmd, hframe, rfl⟩ := h
      have hwrite : Bus.write b (slot.base + offset) value = b.write offset value :=
        congrArg (b.write · value)
          (SimulatedCrate.offset_register slot (cmd.offset_le_of_mem_frame hframe))
      show (Bus.write b (slot.base + offset) value).contents = b.contents
      rw [hwrite]
      exact b.contents_write hcmd hframe
  | pause | tick | remark | report => rfl

end SimulatedBoard

def SimulatedCrate.contents (c : SimulatedCrate) (slot : Slot) :
    Option (RomContents × Version × Bool × Nat × Option (Array (Nat × UInt32)) × Faults) :=
  (c.board? slot).map SimulatedBoard.contents

theorem SimulatedCrate.contents_handler (c : SimulatedCrate) {r : Request} (h : r.IsHarmless) :
    (Bus.handler r c).2.contents = c.contents := by
  funext slot
  unfold SimulatedCrate.contents
  obtain hsame | hstep := c.board?_handler r slot
  · rw [hsame]
  · rw [hstep, Option.map_map]
    exact congrArg (Option.map · (c.board? slot)) (funext fun b => b.contents_handler h)

theorem Request.isHarmless_of_mem_kstar {commands : Set Rom.Command}
    (hlook : ∀ cmd ∈ commands, cmd.Looks) {slot : Slot} {writes : List Access}
    (h : writes ∈ KStar.kstar ((Board.geographic slot).frames commands)) {address value : UInt32}
    (hmem : .write address value ∈ writes) : (Request.write address value).IsHarmless := by
  obtain ⟨frames, rfl, hframes⟩ := Language.mem_kstar.mp h
  obtain ⟨frame, hframe, hwrite⟩ := List.mem_flatten.mp hmem
  obtain ⟨cmd, hcmd, rfl⟩ := hframes frame hframe
  obtain ⟨⟨offset, value'⟩, hw, heq⟩ := List.mem_map.mp hwrite
  cases heq
  exact ⟨slot, cmd, offset, hlook cmd hcmd, hw, rfl⟩

end Reflash
