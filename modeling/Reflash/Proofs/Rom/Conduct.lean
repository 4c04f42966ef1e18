import Reflash.Proofs.Bus.Trace
import Reflash.Rom.Erasing
import Reflash.Rom.Programming
import Reflash.Rom.Reading
/-!
# Conduct of a ROM session

What a session with the ROM of a board may ask of the bus: it reads the readback and the status
register, and writes command words, addresses of 24 bits and data. It never resets or reboots the
board, and it keeps to its board. All of this holds whatever the bus answers.
-/

namespace Reflash

def Control.IsCommandWord (word : UInt32) : Prop :=
  ∃ cmd : Rom.Command, word = cmd.control 0 ∨ word = cmd.control Control.execute

private theorem hasBits_reboot_control (opcode : Rom.Opcode) (closing : Bool) {extra : UInt32}
    (hextra : extra = 0 ∨ extra = Control.execute) :
    hasBits (opcode.byte.toUInt32 ||| (extra ||| if closing then Control.endOfCommand else 0))
      Control.reboot = false := by
  obtain rfl | rfl := hextra
  all_goals cases opcode <;> cases closing <;> decide

theorem Control.IsCommandWord.hasBits_reboot {word : UInt32} (h : Control.IsCommandWord word) :
    hasBits word Control.reboot = false := by
  obtain ⟨cmd, rfl | rfl⟩ := h
  · exact hasBits_reboot_control cmd.opcode cmd.endOfCommand (.inl rfl)
  · exact hasBits_reboot_control cmd.opcode cmd.endOfCommand (.inr rfl)

namespace Rom

theorem Opcode.ofByte?_byte (opcode : Opcode) : ofByte? opcode.byte = some opcode := by
  cases opcode <;> decide

namespace Command

variable (cmd : Command)

private theorem control_bits (opcode : Opcode) (closing : Bool) :
    let extra := if closing then Control.endOfCommand else 0
    let bare := opcode.byte.toUInt32 ||| (0 ||| extra)
    let started := opcode.byte.toUInt32 ||| (Control.execute ||| extra)
    hasBits bare Control.execute = false ∧ hasBits started Control.execute = true ∧
      hasBits started Control.endOfCommand = closing ∧
      (started &&& Control.opcodeField).toUInt8 = opcode.byte := by
  cases opcode <;> cases closing <;> decide

theorem hasBits_execute_control_zero : hasBits (cmd.control 0) Control.execute = false :=
  (control_bits cmd.opcode cmd.endOfCommand).1

theorem hasBits_execute_control : hasBits (cmd.control Control.execute) Control.execute = true :=
  (control_bits cmd.opcode cmd.endOfCommand).2.1

theorem hasBits_endOfCommand_control :
    hasBits (cmd.control Control.execute) Control.endOfCommand = cmd.endOfCommand :=
  (control_bits cmd.opcode cmd.endOfCommand).2.2.1

theorem opcodeField_control :
    (cmd.control Control.execute &&& Control.opcodeField).toUInt8 = cmd.opcode.byte :=
  (control_bits cmd.opcode cmd.endOfCommand).2.2.2

end Command
end Rom

namespace Rom.Command

variable {cmd : Command} {w : UInt32 × UInt32}

def IsAddressable (cmd : Command) : Prop :=
  ∀ address ∈ cmd.address, address.toNat ≤ Rom.addressMask.toNat

theorem isAddressable_atAddress (cmd : Command) (address : UInt32) :
    (cmd.atAddress address).IsAddressable := by
  intro masked hmasked
  obtain rfl : address &&& Rom.addressMask = masked := by simpa [atAddress] using hmasked
  rw [UInt32.toNat_and]
  exact Nat.and_le_right

theorem mem_frame : w ∈ cmd.frame ↔
    w = (Register.command, cmd.control 0) ∨
      (∃ address ∈ cmd.address, (Register.address, address) = w) ∨
      (∃ data ∈ cmd.data, (Register.data, data) = w) ∨
      w = (Register.command, cmd.control Control.execute) := by
  simp only [frame, List.mem_cons, List.mem_append, List.mem_map, Option.mem_toList,
    List.not_mem_nil, or_false]
  constructor
  · rintro (h | (h | h) | h | h)
    · exact .inl h
    · exact .inr (.inl h)
    · exact .inr (.inr (.inl h))
    · exact .inr (.inr (.inr h))
    · exact .inl h
  · rintro (h | h | h | h)
    · exact .inl h
    · exact .inr (.inl (.inl h))
    · exact .inr (.inl (.inr h))
    · exact .inr (.inr (.inl h))

theorem offset_le_of_mem_frame (cmd : Command) (h : w ∈ cmd.frame) :
    w.1 ≤ Register.engineStatus := by
  rcases mem_frame.mp h with rfl | ⟨_, -, rfl⟩ | ⟨_, -, rfl⟩ | rfl
  · exact (by decide : Register.command ≤ Register.engineStatus)
  · exact (by decide : Register.address ≤ Register.engineStatus)
  · exact (by decide : Register.data ≤ Register.engineStatus)
  · exact (by decide : Register.command ≤ Register.engineStatus)

end Rom.Command

namespace Board

variable {σ ε : Type} {b : Board} {offset : UInt32}

/-- Every register of the board has an address on the bus. -/
def Fits (b : Board) : Prop := b.base.toNat + Register.engineStatus.toNat < UInt32.size

instance (b : Board) : Decidable b.Fits := inferInstanceAs (Decidable (_ < _))

def Drives (b : Board) : Request → Prop
  | .read address =>
    address = b.base + Register.readback ∨ address = b.base + Register.engineStatus
  | .write address value =>
    address = b.base + Register.command ∧ Control.IsCommandWord value ∨
      address = b.base + Register.address ∧ value.toNat ≤ Rom.addressMask.toNat ∨
      address = b.base + Register.data
  | .probe _ => False
  | .pause _ | .tick | .remark _ | .report _ => True

theorem Drives.of_isSilent {r : Request} (h : r.IsSilent) : b.Drives r := by
  cases r with
  | read | write | probe => exact h.elim
  | pause | tick | remark | report => trivial

theorem Fits.address_eq (hb : b.Fits) (hoffset : offset ≤ Register.engineStatus) :
    (b.address offset : Job σ ε UInt32) = pure (b.base + offset) := by
  have hle : offset.toNat ≤ Register.engineStatus.toNat := UInt32.le_iff_toNat_le.mp hoffset
  have hlt : b.base.toNat + offset.toNat < UInt32.size := by
    unfold Fits at hb
    omega
  rw [Board.address, Board.address?, if_pos hlt]

theorem Fits.read_eq (hb : b.Fits) (hoffset : offset ≤ Register.engineStatus) :
    (b.read offset : Job σ ε UInt32) = Job.ask (.read (b.base + offset)) := by
  rw [Board.read, hb.address_eq hoffset, pure_bind]

theorem Fits.write_eq (hb : b.Fits) (hoffset : offset ≤ Register.engineStatus) (value : UInt32) :
    (b.write offset value : Job σ ε Unit) = Job.ask (.write (b.base + offset) value) := by
  rw [Board.write, hb.address_eq hoffset, pure_bind]

end Board

/-! ## Single cycles and commands -/

section Keeps

variable {σ ε : Type} {b : Board} {holds : σ → Prop}

theorem Job.keeps_remark {allowed : Request → Prop} {r : Remark} (hr : allowed (.remark r)) :
    (Job.remark r : Job σ ε Unit).Keeps allowed holds :=
  Routine.Keeps.request hr

theorem Job.keeps_pause {allowed : Request → Prop} {milliseconds : Nat}
    (hr : allowed (.pause milliseconds)) :
    (Job.pause milliseconds : Job σ ε Unit).Keeps allowed holds :=
  Routine.Keeps.ite (.pure ()) (.request hr)

theorem Exchange.IsSilent.keeps {α : Type} {d : Exchange α} (hd : d.IsSilent) :
    (Routine.lift d : Job σ ε α).Keeps b.Drives holds :=
  Routine.Keeps.lift (hd.mono (fun _ => Board.Drives.of_isSilent) fun _ _ => trivial)

namespace Board

variable {allowed : Request → Prop} {offset : UInt32}

theorem keeps_writeAll (hb : b.Fits) {writes : List (UInt32 × UInt32)}
    (hwrites : ∀ w ∈ writes, w.1 ≤ Register.engineStatus ∧ allowed (.write (b.base + w.1) w.2)) :
    (b.writeAll writes : Job σ ε Unit).Keeps allowed holds := by
  induction writes with
  | nil => exact .pure ()
  | cons w rest ih =>
      obtain ⟨⟨hoffset, hallowed⟩, hrest⟩ := List.forall_mem_cons.mp hwrites
      rw [Board.writeAll, hb.write_eq hoffset]
      exact .bind (.request hallowed) fun _ => ih hrest

theorem drives_frame {cmd : Rom.Command} (hcmd : cmd.IsAddressable) :
    ∀ w ∈ cmd.frame, w.1 ≤ Register.engineStatus ∧ b.Drives (.write (b.base + w.1) w.2) := by
  intro w hw
  refine ⟨cmd.offset_le_of_mem_frame hw, ?_⟩
  rcases Rom.Command.mem_frame.mp hw with rfl | ⟨address, hmem, rfl⟩ | ⟨data, -, rfl⟩ | rfl
  · exact .inl ⟨rfl, cmd, .inl rfl⟩
  · exact .inr (.inl ⟨rfl, hcmd address hmem⟩)
  · exact .inr (.inr rfl)
  · exact .inl ⟨rfl, cmd, .inr rfl⟩

theorem keeps_issue (hb : b.Fits) {cmd : Rom.Command}
    (hnoted : allowed (.remark (.commandIssued b.slot cmd)))
    (hframe : ∀ w ∈ cmd.frame, allowed (.write (b.base + w.1) w.2)) :
    (b.issue cmd : Job σ ε Unit).Keeps allowed holds :=
  .bind (Job.keeps_remark hnoted) fun _ =>
    keeps_writeAll hb fun w hw => ⟨cmd.offset_le_of_mem_frame hw, hframe w hw⟩

theorem keeps_issue_drives (hb : b.Fits) {cmd : Rom.Command} (hcmd : cmd.IsAddressable) :
    (b.issue cmd : Job σ ε Unit).Keeps b.Drives holds :=
  keeps_issue hb trivial fun w hw => (drives_frame hcmd w hw).2

theorem keeps_read (hb : b.Fits) (hoffset : offset ≤ Register.engineStatus)
    (hr : allowed (.read (b.base + offset))) :
    (b.read offset : Job σ ε UInt32).Keeps allowed holds := by
  rw [hb.read_eq hoffset]
  exact .request hr

theorem keeps_readback (hb : b.Fits) (hr : allowed (.read (b.base + Register.readback))) :
    (b.readback : Job σ ε UInt32).Keeps allowed holds :=
  keeps_read hb (by decide) hr

theorem keeps_probe (hb : b.Fits) (hoffset : offset ≤ Register.engineStatus)
    (hprobe : allowed (.probe (b.base + offset))) (hr : allowed (.read (b.base + offset))) :
    (b.probe offset : Job σ ε (Option UInt32)).Keeps allowed holds := by
  rw [Board.probe, hb.address_eq hoffset, pure_bind]
  refine .bind (.request hprobe) fun answered => .ite ?_ (.pure none)
  exact .bind (.request hr) fun value => .pure (some value)

theorem keeps_awaitReady (hb : b.Fits) (hr : allowed (.read (b.base + Register.engineStatus)))
    (tries left : Nat) : (b.awaitReady tries left : Job σ RomError Nat).Keeps allowed holds := by
  have hready : (b.engineReady : Job σ RomError Bool).Keeps allowed holds :=
    .bind (keeps_read hb (by decide) hr) fun _ => .pure _
  induction left with
  | zero => exact .fail _
  | succ left ih => exact .bind hready fun _ => .ite (.pure _) ih

theorem keeps_readStatus (hb : b.Fits) (readyTries : Nat) :
    (b.readStatus readyTries : Job σ RomError UInt32).Keeps b.Drives holds := by
  refine .bind (keeps_awaitReady hb (.inr rfl) _ _) fun _ => ?_
  refine .bind (keeps_issue_drives hb (by simp [Rom.Command.IsAddressable])) fun _ => ?_
  exact .bind (keeps_awaitReady hb (.inr rfl) _ _) fun _ => keeps_readback hb (.inl rfl)

theorem keeps_awaitWrite (hb : b.Fits) {onTick : Exchange Unit} (hticks : onTick.IsSilent)
    (readyTries interval tries left : Nat) :
    (b.awaitWrite readyTries interval onTick tries left : Job σ RomError Nat).Keeps b.Drives
      holds := by
  induction left with
  | zero => exact .fail _
  | succ left ih =>
      refine .bind (keeps_readStatus hb _) fun status => .ite ?_ ?_
      · refine .bind hticks.keeps fun _ => ?_
        exact .bind (Job.keeps_pause trivial) fun _ => ih
      · exact .bind (Job.keeps_remark trivial) fun _ => .pure _

end Board
end Keeps

/-! ## Sessions -/

namespace Board

def programCommand (address word : UInt32) (lastOfPage : Bool) : Rom.Command :=
  Rom.Command.atAddress { opcode := .pageProgram, data := some word, endOfCommand := lastOfPage }
    address

def readCommand (address : UInt32) (lastOfPage : Bool) : Rom.Command :=
  Rom.Command.atAddress { opcode := .autoRead, endOfCommand := lastOfPage } address

theorem isAddressable_programCommand (address word : UInt32) (lastOfPage : Bool) :
    (programCommand address word lastOfPage).IsAddressable :=
  Rom.Command.isAddressable_atAddress _ address

theorem isAddressable_readCommand (address : UInt32) (lastOfPage : Bool) :
    (readCommand address lastOfPage).IsAddressable :=
  Rom.Command.isAddressable_atAddress _ address

end Board

/-- A part of a session that, at a board on the bus, works on that board's ROM only. -/
def RomJob.IsProper {α : Type} (work : RomJob α) : Prop :=
  ∀ b : Board, b.Fits → work.Keeps b.Drives fun s => s.board = b

namespace RomSession

variable {α : Type} {onTick : Exchange Unit}

/-- What is known of a session with the board, however much it has counted. -/
structure Knows (b : Board) (holds : RomSession → Prop) : Prop where
  board_eq : ∀ s, holds s → s.board = b
  counting : ∀ s counts, holds s → holds { s with counts }

theorem knows_board (b : Board) : Knows b fun s => s.board = b := ⟨fun _ h => h, fun _ _ h => h⟩

section Keeps

variable {allowed : Request → Prop} {b : Board} {holds : RomSession → Prop} (hknown : Knows b holds)
include hknown

theorem keeps_count (f : RomCounts → RomCounts) : (count f).Keeps allowed holds :=
  .modify fun s => hknown.counting s _

variable (hb : b.Fits) (hr : allowed (.read (b.base + Register.engineStatus)))
include hb hr

theorem keeps_waitReady : waitReady.Keeps allowed holds := by
  refine .get_bind fun s hs => ?_
  rw [hknown.board_eq s hs]
  exact .bind (Board.keeps_awaitReady hb hr _ _) fun _ => .pure ()

theorem keeps_awaitEngine : awaitEngine.Keeps allowed holds := by
  refine .get_bind fun s hs => ?_
  rw [hknown.board_eq s hs]
  exact .bind (Board.keeps_awaitReady hb hr _ _) fun _ => .pure ()

section Command

variable {cmd : Rom.Command} (hnoted : allowed (.remark (.commandIssued b.slot cmd)))
  (hframe : ∀ w ∈ cmd.frame, allowed (.write (b.base + w.1) w.2))
include hnoted hframe

theorem keeps_command : (command cmd).Keeps allowed holds := by
  refine .bind (keeps_waitReady hknown hb hr) fun _ => .get_bind fun s hs => ?_
  rw [hknown.board_eq s hs]
  refine .bind (Board.keeps_issue hb hnoted hframe) fun _ => ?_
  exact .ite (keeps_count hknown _) (.pure ())

theorem keeps_query (hreadback : allowed (.read (b.base + Register.readback))) :
    (query cmd).Keeps allowed holds := by
  refine .bind (keeps_command hknown hb hr hnoted hframe) fun _ => ?_
  refine .bind (keeps_waitReady hknown hb hr) fun _ => .get_bind fun s hs => ?_
  rw [hknown.board_eq s hs]
  exact Board.keeps_readback hb hreadback

end Command
end Keeps

theorem isProper_awaitEngine : RomJob.IsProper awaitEngine := fun _ hb =>
  keeps_awaitEngine (knows_board _) hb (.inr rfl)

theorem isProper_command {cmd : Rom.Command} (hcmd : cmd.IsAddressable) :
    RomJob.IsProper (command cmd) := fun _ hb =>
  keeps_command (knows_board _) hb (.inr rfl) trivial fun w hw => (Board.drives_frame hcmd w hw).2

theorem isProper_query {cmd : Rom.Command} (hcmd : cmd.IsAddressable) :
    RomJob.IsProper (query cmd) := fun _ hb =>
  keeps_query (knows_board _) hb (.inr rfl) trivial (fun w hw => (Board.drives_frame hcmd w hw).2)
    (.inl rfl)

theorem isProper_readId : RomJob.IsProper readId :=
  isProper_query (by simp [Rom.Command.IsAddressable])

theorem isProper_readStatus : RomJob.IsProper readStatus := by
  intro b hb
  refine .get_bind fun s hs => ?_
  rw [hs]
  exact Board.keeps_readStatus hb _

theorem isProper_enableWrites : RomJob.IsProper enableWrites := by
  intro b hb
  refine .bind (isProper_command (by simp [Rom.Command.IsAddressable]) b hb) fun _ => ?_
  refine .bind (keeps_count (knows_board b) _) fun _ => ?_
  exact .bind (isProper_readStatus b hb) fun status => .ite (.fail _) (.pure ())

theorem isProper_awaitWrite (hticks : onTick.IsSilent) (tries : Nat) :
    RomJob.IsProper (awaitWrite tries onTick) := by
  intro b hb
  refine .get_bind fun s hs => ?_
  rw [hs]
  exact Board.keeps_awaitWrite hb hticks _ _ _ _

theorem isProper_startErase : RomJob.IsProper startErase := fun b hb =>
  .bind (isProper_enableWrites b hb) fun _ =>
    isProper_command (by simp [Rom.Command.IsAddressable]) b hb

theorem isProper_awaitErase (hticks : onTick.IsSilent) :
    RomJob.IsProper (awaitErase onTick) := by
  intro b hb
  refine .get_bind fun s hs => ?_
  refine .bind (isProper_awaitWrite hticks _ b hb) fun polls => ?_
  exact .bind (Job.keeps_remark trivial) fun _ => .pure _

theorem isProper_erase (hticks : onTick.IsSilent) : RomJob.IsProper (erase true onTick) :=
  fun b hb => .bind (isProper_startErase b hb) fun _ =>
    .bind (isProper_awaitErase hticks b hb) fun _ => .pure ()

theorem isProper_readWord (address : UInt32) (lastOfPage : Bool) :
    RomJob.IsProper (readWord address lastOfPage) := by
  intro b hb
  have hcmd := Board.isAddressable_readCommand address lastOfPage
  refine .bind (isProper_query hcmd b hb) fun word => ?_
  exact .bind (keeps_count (knows_board b) _) fun _ => .pure word

theorem isProper_readWordsFrom (hticks : onTick.IsSilent) (index : Nat) (sofar : List UInt32)
    (count : Nat) : RomJob.IsProper (readWordsFrom onTick index sofar count) := by
  intro b hb
  induction count generalizing index sofar with
  | zero => exact .pure _
  | succ count ih =>
      refine .bind (isProper_readWord _ _ b hb) fun word => ?_
      exact .bind hticks.keeps fun _ => ih (index + 1) (word :: sofar)

theorem keeps_download {b : Board} (hb : b.Fits) (hticks : onTick.IsSilent) (sizeBytes : Nat) :
    (download sizeBytes onTick).Keeps b.Drives fun p => p.1.board = b := by
  refine .ite (.fail _) ?_
  refine .bind (.modify fun _ hs => hs) fun _ => ?_
  refine .bind (Routine.Keeps.within (isProper_readWordsFrom hticks 0 [] _ b hb)
    (fun _ ht => ht) fun _ _ _ hs => hs) fun words => ?_
  exact .modify fun _ hs => hs

def putWord (address word : UInt32) (lastOfPage : Bool) : RomJob Unit := do
  command (Board.programCommand address word lastOfPage)
  count fun c => { c with wordsWritten := c.wordsWritten + 1 }
  if lastOfPage then
    count fun c => { c with pageWaits := c.pageWaits + 1 }
    let _ ← awaitWrite (← Routine.get).budgets.pageTries Exchange.silent

theorem writeWord_eq (address word : UInt32) (lastOfPage : Bool) :
    writeWord address word lastOfPage =
      if address.toNat % Rom.pageBytes = 0 then
        enableWrites >>= fun _ => putWord address word lastOfPage
      else putWord address word lastOfPage := rfl

theorem isProper_putWord (address word : UInt32) (lastOfPage : Bool) :
    RomJob.IsProper (putWord address word lastOfPage) := by
  intro b hb
  refine .bind (isProper_command (Board.isAddressable_programCommand _ _ _) b hb) fun _ => ?_
  refine .bind (keeps_count (knows_board b) _) fun _ => .ite ?_ (.pure ())
  refine .bind (keeps_count (knows_board b) _) fun _ => .get_bind fun s hs => ?_
  exact .bind (isProper_awaitWrite Exchange.isSilent_silent _ b hb) fun _ => .pure ()

theorem isProper_writeWord (address word : UInt32) (lastOfPage : Bool) :
    RomJob.IsProper (writeWord address word lastOfPage) := by
  intro b hb
  rw [writeWord_eq]
  refine .ite ?_ (isProper_putWord address word lastOfPage b hb)
  exact .bind (isProper_enableWrites b hb) fun _ => isProper_putWord address word lastOfPage b hb

theorem isProper_writeWordsFrom (hticks : onTick.IsSilent) (index : Nat) (words : List UInt32) :
    RomJob.IsProper (writeWordsFrom onTick index words) := by
  intro b hb
  induction words generalizing index with
  | nil => exact .pure index
  | cons word rest ih =>
      refine .bind (isProper_writeWord _ _ _ b hb) fun _ => ?_
      exact .bind hticks.keeps fun _ => ih (index + 1)

/-- An image that is loaded and not too large is programmed word by word. -/
theorem program_eq {image : Image} {words : List UInt32} (himage : image.contents? = some words)
    (hsize : image.sizeBytes ≤ Rom.maxImageBytes) :
    program image onTick = writeWordsFrom onTick 0 words >>= fun behind =>
      writeWord (Rom.wordAddress behind) Rom.flushWord true := by
  rw [program, himage]
  exact if_neg (Nat.not_lt.mpr hsize)

theorem isProper_program (hticks : onTick.IsSilent) (image : Image) :
    RomJob.IsProper (program image onTick) := by
  intro b hb
  rw [program]
  cases image.contents? with
  | none => exact .fail _
  | some words =>
      refine .ite (.fail _) (.bind (isProper_writeWordsFrom hticks 0 words b hb) fun behind => ?_)
      exact isProper_writeWord _ _ _ b hb

end RomSession
end Reflash
