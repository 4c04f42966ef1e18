import Reflash.Proofs.Rom.Cycles
import Reflash.Proofs.Simulation.Command
import Reflash.Proofs.Update.Isolation
/-!
# Commands that boards run

What boards of a simulated crate run in the course of a dialogue: every rise of an execute bit is
one execution, of the command in the control word and on the operands in the registers. A command
that is issued is one execution on its board, whatever the command register held before, and some
commands one behind the other are executed as they are carried out one by one.
-/

namespace Reflash

structure Execution where
  /-- The opcode in the control word, if that is one. -/
  opcode? : Option Rom.Opcode
  endOfCommand : Bool
  address : UInt32
  data : UInt32
  deriving DecidableEq

namespace SimulatedBoard

variable (b : SimulatedBoard)

def execution? (offset value : UInt32) : Option Execution :=
  if offset = Register.command then
    (b.started? value).map fun field =>
      ⟨Rom.Opcode.ofByte? field, hasBits value Control.endOfCommand, b.address, b.data⟩
  else none

def executions (b : SimulatedBoard) : List (UInt32 × UInt32) → List Execution
  | [] => []
  | w :: rest => (b.execution? w.1 w.2).toList ++ (b.write w.1 w.2).executions rest

def executionOf (cmd : Rom.Command) : Execution :=
  ⟨some cmd.opcode, cmd.endOfCommand, (cmd.address.map (· &&& Rom.addressMask)).getD b.address,
    cmd.data.getD b.data⟩

def executionsOf (b : SimulatedBoard) : List Rom.Command → List Execution
  | [] => []
  | cmd :: rest => b.executionOf cmd :: (b.carryOut cmd).executionsOf rest

/-! ## Executions are counted -/

theorem execute_frame (closing : Bool) (opcode : Rom.Opcode) :
    let b' := b.execute closing opcode
    b'.address = b.address ∧ b'.data = b.data ∧ b'.rebooting = b.rebooting ∧
      b'.activity.commands = b.activity.commands := by
  cases opcode with
  | writeDisable | writeEnable | autoRead | readId => exact ⟨rfl, rfl, rfl, rfl⟩
  | readStatus =>
      simp only [execute, reportStatus]
      split <;> exact ⟨rfl, rfl, rfl, rfl⟩
  | bulkErase =>
      simp only [execute, bulkErase]
      split <;> exact ⟨rfl, rfl, rfl, rfl⟩
  | pageProgram =>
      simp only [execute, pageProgram, commitPage]
      split
      next => exact ⟨rfl, rfl, rfl, rfl⟩
      next => split <;> exact ⟨rfl, rfl, rfl, rfl⟩

theorem commands_runCommand (field : UInt8) (closing : Bool) :
    (b.runCommand field closing).activity.commands = b.activity.commands + 1 := by
  unfold runCommand
  cases Rom.Opcode.ofByte? field with
  | none => rfl
  | some opcode => exact (execute_frame _ closing opcode).2.2.2

theorem commands_writeControl (word : UInt32) :
    (b.writeControl word).activity.commands =
      b.activity.commands + (b.started? word).toList.length := by
  -- A word that reboots the board starts nothing, whatever else is in it.
  cases hreboot : hasBits word Control.reboot with
  | true => simp [writeControl, started?, hreboot, reboot, dropPage]
  | false =>
      rw [writeControl, if_neg (by simp [hreboot])]
      cases b.started? word with
      | none => rfl
      | some field => exact commands_runCommand _ field _

/-- The board counts what it runs. -/
theorem commands_write (offset value : UInt32) :
    (b.write offset value).activity.commands =
      b.activity.commands + (b.execution? offset value).toList.length := by
  rw [write, execution?]
  by_cases hreset : offset = Register.reset
  · rw [if_pos hreset, if_neg (by rw [hreset]; decide)]
    rfl
  rw [if_neg hreset]
  by_cases hcommand : offset = Register.command
  · rw [if_pos hcommand, if_pos hcommand, commands_writeControl, Option.toList_map,
      List.length_map]
    rfl
  rw [if_neg hcommand, if_neg hcommand]
  split
  · rfl
  split <;> rfl

/-! ## A frame is one execution -/

theorem executions_append (writes writes' : List (UInt32 × UInt32)) :
    b.executions (writes ++ writes') =
      b.executions writes ++ (b.writeAll writes).executions writes' := by
  induction writes generalizing b with
  | nil => rfl
  | cons w rest ih =>
      rw [List.cons_append, executions, ih, ← List.append_assoc]
      rfl

/-- Only a write of the command register makes the board run anything. -/
theorem executions_eq_nil {writes : List (UInt32 × UInt32)}
    (h : ∀ w ∈ writes, w.1 ≠ Register.command) : b.executions writes = [] := by
  induction writes generalizing b with
  | nil => rfl
  | cons w rest ih =>
      obtain ⟨hw, hrest⟩ := List.forall_mem_cons.mp h
      rw [executions, ih _ hrest, execution?, if_neg hw]
      rfl

private theorem execution?_control_zero (cmd : Rom.Command) :
    b.execution? Register.command (cmd.control 0) = none := by
  simp [execution?, started?, cmd.hasBits_execute_control_zero]

private theorem execution?_control_execute {cmd : Rom.Command}
    (hcontrol : b.control = cmd.control 0) :
    b.execution? Register.command (cmd.control Control.execute) =
      some ⟨some cmd.opcode, cmd.endOfCommand, b.address, b.data⟩ := by
  have hreboot : hasBits (cmd.control Control.execute) Control.reboot = false :=
    Control.IsCommandWord.hasBits_reboot ⟨cmd, .inr rfl⟩
  have hidle : hasBits b.control Control.execute = false := by
    rw [hcontrol]
    exact cmd.hasBits_execute_control_zero
  simp [execution?, started?, hreboot, hidle, cmd.hasBits_execute_control,
    cmd.opcodeField_control, cmd.hasBits_endOfCommand_control, cmd.opcode.ofByte?_byte]

/-- The register writes of a command are one execution: of the command, on its operands. -/
theorem executions_frame (cmd : Rom.Command) : b.executions cmd.frame = [b.executionOf cmd] := by
  generalize hoperands : cmd.address.toList.map (Register.address, ·) ++
    cmd.data.toList.map (Register.data, ·) = operands
  have hframe : cmd.frame = [(Register.command, cmd.control 0)] ++ (operands ++
      [(Register.command, cmd.control Control.execute), (Register.command, cmd.control 0)]) := by
    rw [Rom.Command.frame, hoperands]
    rfl
  -- The first write clears what is left of an execute bit, the operands run nothing, and then there
  -- is one rise.
  have hnone : ∀ w ∈ operands, w.1 ≠ Register.command := by
    rw [← hoperands]
    intro w hw
    obtain ⟨_, -, rfl⟩ | ⟨_, -, rfl⟩ := (List.mem_append.mp hw).imp List.mem_map.mp List.mem_map.mp
    · exact (by decide : Register.address ≠ Register.command)
    · exact (by decide : Register.data ≠ Register.command)
  have hfirst : b.writeAll [(Register.command, cmd.control 0)] =
      { b with control := cmd.control 0, activity.writes := b.activity.writes + 1 } :=
    write_command_control_zero b cmd
  rw [hframe, executions_append, executions_append, executions_eq_nil _ hnone, hfirst, ← hoperands,
    writeAll_operands]
  simp only [executions, execution?_control_zero, execution?_control_execute, executionOf,
    Option.toList_none, Option.toList_some, List.nil_append, List.append_nil]

/-! ## Commands one behind the other -/

theorem carryOut_frame (control : UInt32) (writes : Nat) (cmd : Rom.Command) :
    ({ b with control := control, activity.writes := writes }).carryOut cmd =
      { b.carryOut cmd with control := control, activity.writes := writes } :=
  runCommand_frame { b with
    address := (cmd.address.map (· &&& Rom.addressMask)).getD b.address
    data := cmd.data.getD b.data } control writes cmd.opcode.byte cmd.endOfCommand

theorem foldl_carryOut_frame (control : UInt32) (writes : Nat) (cmds : List Rom.Command) :
    cmds.foldl carryOut { b with control := control, activity.writes := writes } =
      { cmds.foldl carryOut b with control := control, activity.writes := writes } := by
  induction cmds generalizing b with
  | nil => rfl
  | cons cmd rest ih => rw [List.foldl_cons, carryOut_frame, ih, List.foldl_cons]

theorem executionsOf_frame (control : UInt32) (writes : Nat) (cmds : List Rom.Command) :
    ({ b with control := control, activity.writes := writes }).executionsOf cmds =
      b.executionsOf cmds := by
  induction cmds generalizing b with
  | nil => rfl
  | cons cmd rest ih =>
      rw [executionsOf, carryOut_frame, ih]
      rfl

/-- Commands that are issued one behind the other do to the board what they do when they are
carried out one by one, the command register and the number of writes apart. -/
theorem foldl_issued (cmds : List Rom.Command) :
    cmds.foldl issued b =
      { cmds.foldl carryOut b with
        control := (cmds.getLast?.map (·.control 0)).getD b.control
        activity.writes := b.activity.writes + (cmds.flatMap (·.frame)).length } := by
  induction cmds generalizing b with
  | nil => rfl
  | cons cmd rest ih =>
      rw [List.foldl_cons, ih, issued, foldl_carryOut_frame, List.foldl_cons, List.flatMap_cons,
        List.length_append, List.getLast?_cons, ← Nat.add_assoc]
      cases rest.getLast? <;> rfl

theorem carryOut_eq (cmd : Rom.Command) :
    b.carryOut cmd =
      ({ b with
          address := (cmd.address.map (· &&& Rom.addressMask)).getD b.address
          data := cmd.data.getD b.data
          activity.commands := b.activity.commands + 1
          activity.endOfCommands := b.activity.endOfCommands + if cmd.endOfCommand then 1 else 0
        }).execute cmd.endOfCommand cmd.opcode := by
  rw [carryOut, runCommand, cmd.opcode.ofByte?_byte]

end SimulatedBoard

/-! ## Executions in a crate -/

namespace SimulatedCrate

def execution? (c : SimulatedCrate) : Request → Option (Slot × Execution)
  | .write address value =>
    (c.decode? address).bind fun (slot, b) =>
      (b.execution? (offset address) value).map (slot, ·)
  | .read _ | .probe _ | .pause _ | .tick | .remark _ | .report _ => none

def executions {α : Type} (c : SimulatedCrate) : Exchange α → List (Slot × Execution)
  | .done _ => []
  | .ask r next =>
    (c.execution? r).toList ++ (Bus.handler r c).2.executions (next (Bus.handler r c).1)

variable {α β σ ε : Type} {c : SimulatedCrate} {slot : Slot} {b : SimulatedBoard}

theorem executions_bind (d : Exchange α) (f : α → Exchange β) (c : SimulatedCrate) :
    c.executions (d.bind f) =
      c.executions d ++ (d.run Bus.handler c).2.executions (f (d.run Bus.handler c).1) := by
  induction d generalizing c with
  | done a => rfl
  | ask r next ih =>
      rw [Dialogue.bind, executions, executions, ih, ← List.append_assoc]
      rfl

theorem executions_bind_ok {r : Job σ ε α} {f : α → Job σ ε β} {s s' : σ} {a : α}
    {c' : SimulatedCrate} (hr : (r s).run Bus.handler c = ((.ok a, s'), c')) :
    c.executions ((r >>= f) s) = c.executions (r s) ++ c'.executions (f a s') := by
  rw [Routine.bind_eq, Routine.bind, executions_bind, hr]

theorem executions_remark_bind (remark : Remark) (f : Unit → Job σ ε α) (s : σ) :
    c.executions ((Job.remark remark >>= f) s) = c.executions (f () s) := rfl

theorem execution?_write {address : UInt32} (haddress : Slot.ofAddress? address = some slot)
    (hb : c.board? slot = some b) (value : UInt32) :
    c.execution? (.write address value) =
      (b.execution? (offset address) value).map (slot, ·) := by
  rw [execution?, decode?_of_board? haddress hb]
  rfl

theorem execution?_write_register (hb : c.board? slot = some b) {offset : UInt32}
    (hoffset : offset ≤ Register.engineStatus) (value : UInt32) :
    c.execution? (.write (slot.base + offset) value) =
      (b.execution? offset value).map (slot, ·) := by
  rw [execution?_write (Slot.ofAddress?_register slot hoffset) hb, offset_register slot hoffset]

theorem write_register (hb : c.board? slot = some b) {offset : UInt32}
    (hoffset : offset ≤ Register.engineStatus) (value : UInt32) :
    c.write (slot.base + offset) value = c.insert slot (b.write offset value) := by
  have haddress := Slot.ofAddress?_register slot hoffset
  rw [SimulatedCrate.write, haddress]
  dsimp only
  rw [modify_of_board? hb, offset_register slot hoffset]

theorem commands_handler (c : SimulatedCrate) (slot : Slot) (r : Request) :
    ((Bus.handler r c).2.board? slot).map (·.activity.commands) =
      (c.board? slot).map fun b =>
        b.activity.commands + (c.execution? r).toList.countP fun e => e.1 = slot := by
  have hsame : (c.board? slot).map (·.activity.commands) =
      (c.board? slot).map fun b => b.activity.commands + 0 := rfl
  have hlook : ∀ {other : Slot} {b b' : SimulatedBoard}, c.board? other = some b →
      b'.activity.commands = b.activity.commands →
      ((c.insert other b').board? slot).map (·.activity.commands) =
        (c.board? slot).map (·.activity.commands) := by
    intro other b b' hb hcommands
    by_cases h : slot = other
    · rw [h, board?_insert_self, hb, Option.map_some, Option.map_some, hcommands]
    · rw [board?_insert_of_ne c _ h]
  cases r with
  | read address =>
      show ((c.read address).2.board? slot).map _ = _
      rw [SimulatedCrate.read]
      split
      next other b heq =>
        obtain ⟨_, _, hread⟩ := b.read_frame (offset address)
        exact hlook (board?_of_decode? heq) (by rw [hread])
      next => exact hsame
  | probe address =>
      show ((c.probe address).2.board? slot).map _ = _
      rw [SimulatedCrate.probe]
      split
      next other b heq => exact hlook (board?_of_decode? heq) (by rw [b.probe_eq])
      next => exact hsame
  | write address value =>
      show ((c.write address value).board? slot).map _ = _
      rw [SimulatedCrate.write]
      cases haddress : Slot.ofAddress? address with
      | none => simp [execution?, decode?, haddress]
      | some other =>
          dsimp only
          cases hb : c.board? other with
          | none => simp [modify_of_vacant hb, execution?, decode?, haddress, hb]
          | some b =>
              have hcount := b.commands_write (offset address) value
              rw [execution?_write haddress hb, modify_of_board? hb]
              by_cases h : slot = other
              · rw [h, board?_insert_self, hb, Option.map_some, Option.map_some, hcount]
                cases b.execution? (offset address) value <;> simp
              · rw [board?_insert_of_ne c _ h]
                cases b.execution? (offset address) value <;> simp [Ne.symm h]
  | pause | tick | remark | report => exact hsame

/-- The executions of a dialogue are those that the boards count. -/
theorem commands_run (d : Exchange α) (c : SimulatedCrate) (slot : Slot) :
    ((d.run Bus.handler c).2.board? slot).map (·.activity.commands) =
      (c.board? slot).map fun b =>
        b.activity.commands + (c.executions d).countP fun e => e.1 = slot := by
  induction d generalizing c with
  | done a => rfl
  | ask r next ih =>
      have hstep := c.commands_handler slot r
      rw [Dialogue.run, ih, executions, List.countP_append]
      cases hb : c.board? slot <;> cases hb' : (Bus.handler r c).2.board? slot <;>
        simp_all [Nat.add_assoc]

end SimulatedCrate

namespace Board

variable {σ ε : Type}

def issueAll (b : Board) : List Rom.Command → Job σ ε Unit
  | [] => pure ()
  | cmd :: rest => do
    b.issue cmd
    b.issueAll rest

variable {slot : Slot} {b : SimulatedBoard} {c : SimulatedCrate}

theorem executions_writeAll (hb : c.board? slot = some b) {writes : List (UInt32 × UInt32)}
    (h : ∀ w ∈ writes, w.1 ≤ Register.engineStatus) (t : σ) :
    c.executions (((geographic slot).writeAll writes : Job σ ε Unit) t) =
      (b.executions writes).map (slot, ·) := by
  induction writes generalizing b c with
  | nil => rfl
  | cons w rest ih =>
      obtain ⟨hw, hrest⟩ := List.forall_mem_cons.mp h
      let first : Job σ ε Unit := Job.ask (.write (slot.base + w.1) w.2)
      have hrun : (first t).run Bus.handler c = ((.ok (), t), c.insert slot (b.write w.1 w.2)) :=
        congrArg (Prod.mk _) (SimulatedCrate.write_register hb hw w.2)
      have hfirst : c.executions (first t) =
          (c.execution? (.write (slot.base + w.1) w.2)).toList := List.append_nil _
      calc c.executions (((geographic slot).writeAll (w :: rest) : Job σ ε Unit) t)
        _ = c.executions ((first >>= fun _ => (geographic slot).writeAll rest) t) := by
            rw [writeAll, slot.fits_geographic.write_eq hw]
            rfl
        _ = _ := SimulatedCrate.executions_bind_ok hrun
        _ = (b.executions (w :: rest)).map (slot, ·) := by
            rw [hfirst, SimulatedCrate.execution?_write_register hb hw,
              ih (SimulatedCrate.board?_insert_self ..) hrest, SimulatedBoard.executions,
              List.map_append, Option.toList_map]

theorem executions_issue (hb : c.board? slot = some b) (cmd : Rom.Command) (t : σ) :
    c.executions (((geographic slot).issue cmd : Job σ ε Unit) t) =
      [(slot, b.executionOf cmd)] := by
  rw [issue, SimulatedCrate.executions_remark_bind,
    executions_writeAll hb (fun w => cmd.offset_le_of_mem_frame), b.executions_frame]
  rfl

theorem run_crate_issue (hb : c.board? slot = some b) (cmd : Rom.Command) (t : σ) :
    (((geographic slot).issue cmd : Job σ ε Unit) t).run Bus.handler c =
      ((.ok (), t), c.insert slot (b.issued cmd)) := by
  have hkeeps : ((geographic slot).issue cmd : Job σ ε Unit).Keeps (Request.InWindow slot)
      fun _ => True :=
    keeps_issue slot.fits_geographic trivial fun w hw =>
      Slot.ofAddress?_register slot (cmd.offset_le_of_mem_frame hw)
  rw [SimulatedCrate.run_of_inWindow (hkeeps t trivial) hb, run_issue]

theorem run_issueAll (hb : c.board? slot = some b) (cmds : List Rom.Command) (t : σ) :
    (((geographic slot).issueAll cmds : Job σ ε Unit) t).run Bus.handler c =
        ((.ok (), t), c.insert slot (cmds.foldl SimulatedBoard.issued b)) ∧
      c.executions (((geographic slot).issueAll cmds : Job σ ε Unit) t) =
        (b.executionsOf cmds).map (slot, ·) := by
  induction cmds generalizing b c with
  | nil => exact ⟨congrArg (Prod.mk _) (SimulatedCrate.insert_of_board? hb).symm, rfl⟩
  | cons cmd rest ih =>
      have hfirst : (((geographic slot).issue cmd : Job σ ε Unit) t).run Bus.handler c = _ :=
        run_crate_issue hb cmd t
      obtain ⟨hrun, hran⟩ := ih (SimulatedCrate.board?_insert_self c slot (b.issued cmd))
      have hsame : (b.issued cmd).executionsOf rest = (b.carryOut cmd).executionsOf rest :=
        (b.carryOut cmd).executionsOf_frame _ (b.activity.writes + cmd.frame.length) rest
      constructor
      · rw [issueAll, Routine.run_bind_ok hfirst, hrun, SimulatedCrate.insert_insert]
        rfl
      · rw [issueAll, SimulatedCrate.executions_bind_ok hfirst, hran, hsame,
          executions_issue hb cmd t]
        rfl

theorem cycles_issue (c : SimulatedCrate) (slot : Slot) (cmd : Rom.Command) (t : σ) :
    Exchange.cycles (((geographic slot).issue cmd : Job σ ε Unit) t) c =
      (geographic slot).frameCycles cmd := by
  have hends := Job.ends_remark_bind
    (Routine.ends_run ((geographic slot).issue cmd : Job σ ε Unit) t c)
  exact (ends_writeAll slot.fits_geographic (fun w => cmd.offset_le_of_mem_frame) hends).1

end Board

namespace SimulatedBoard

variable (b : SimulatedBoard)

/-- A board behind a command: the operands that the command brought are in their registers, the
command has been run on them, and the command register is ready for the rise of the next execute
bit. What the board runs is the same as before, and so is the time that it is away. -/
structure HasRun (cmd : Rom.Command) (b' : SimulatedBoard) : Prop where
  eq_execute : b' =
    { ({ b with
        address := (cmd.address.map (· &&& Rom.addressMask)).getD b.address
        data := cmd.data.getD b.data
        activity.commands := b.activity.commands + 1
        activity.endOfCommands := b.activity.endOfCommands + if cmd.endOfCommand then 1 else 0
      }).execute cmd.endOfCommand cmd.opcode with
      control :=
        cmd.opcode.byte.toUInt32 ||| if cmd.endOfCommand then Control.endOfCommand else 0
      activity.writes :=
        b.activity.writes + (3 + cmd.address.toList.length + cmd.data.toList.length) }
  address_eq : b'.address = (cmd.address.map (· &&& Rom.addressMask)).getD b.address
  data_eq : b'.data = cmd.data.getD b.data
  not_execute : hasBits b'.control Control.execute = false
  firmware_eq : b'.firmware = b.firmware
  rebooting_eq : b'.rebooting = b.rebooting

theorem hasRun_issued (cmd : Rom.Command) : b.HasRun cmd (b.issued cmd) := by
  have hcontrol : cmd.control 0 =
      cmd.opcode.byte.toUInt32 ||| if cmd.endOfCommand then Control.endOfCommand else 0 := by
    rw [Rom.Command.control, UInt32.zero_or]
  have hlength : cmd.frame.length = 3 + cmd.address.toList.length + cmd.data.toList.length := by
    simp only [Rom.Command.frame, List.length_cons, List.length_append, List.length_map,
      List.length_nil]
    omega
  have hexecute := execute_frame
    { b with
      address := (cmd.address.map (· &&& Rom.addressMask)).getD b.address
      data := cmd.data.getD b.data
      activity.commands := b.activity.commands + 1
      activity.endOfCommands := b.activity.endOfCommands + if cmd.endOfCommand then 1 else 0 }
    cmd.endOfCommand cmd.opcode
  rw [← b.carryOut_eq cmd] at hexecute
  refine ⟨?_, hexecute.1, hexecute.2.1, cmd.hasBits_execute_control_zero, ?_, hexecute.2.2.1⟩
  · rw [issued, ← b.carryOut_eq cmd, hcontrol, hlength]
  · exact firmware_runCommand _ cmd.opcode.byte cmd.endOfCommand

theorem executionsOf_opcodes (cmds : List Rom.Command) :
    (b.executionsOf cmds).map (fun e => (e.opcode?, e.endOfCommand)) =
      cmds.map fun cmd => (some cmd.opcode, cmd.endOfCommand) := by
  induction cmds generalizing b with
  | nil => rfl
  | cons cmd rest ih => rw [executionsOf, List.map_cons, List.map_cons, ih, executionOf]

end SimulatedBoard

namespace SimulatedCrate

variable {σ ε : Type} {c : SimulatedCrate} {slot : Slot} {b : SimulatedBoard}

/-- Whatever a board's registers hold, a command that is issued to it is one execution of that
command, with the operands that it brings, and it takes three register writes and one for each
operand. Any number of commands leaves the board as carrying them out one by one does, and is
executed so. -/
theorem issued_is_executed (hb : c.board? slot = some b) (t : σ) :
    (∀ cmd : Rom.Command,
      let issue : Exchange (Outcome ε Unit × σ) := (Board.geographic slot).issue cmd t
      ∃ b', issue.run Bus.handler c = ((.ok (), t), c.insert slot b') ∧ b.HasRun cmd b' ∧
        c.executions issue = [(slot, b.executionOf cmd)] ∧
        Exchange.cycles issue c = (Board.geographic slot).frameCycles cmd) ∧
    ∀ cmds : List Rom.Command,
      let issues : Exchange (Outcome ε Unit × σ) := (Board.geographic slot).issueAll cmds t
      issues.run Bus.handler c =
        ((.ok (), t), c.insert slot
          { cmds.foldl SimulatedBoard.carryOut b with
            control := (cmds.getLast?.map (·.control 0)).getD b.control
            activity.writes := b.activity.writes + (cmds.flatMap (·.frame)).length }) ∧
      c.executions issues = (b.executionsOf cmds).map (slot, ·) ∧
      (b.executionsOf cmds).map (fun e => (e.opcode?, e.endOfCommand)) =
        cmds.map fun cmd => (some cmd.opcode, cmd.endOfCommand) := by
  constructor
  · intro cmd issue
    exact ⟨b.issued cmd, Board.run_crate_issue hb cmd t, b.hasRun_issued cmd,
      Board.executions_issue hb cmd t, Board.cycles_issue c slot cmd t⟩
  · intro cmds issues
    obtain ⟨hrun, hran⟩ := Board.run_issueAll (ε := ε) hb cmds t
    rw [b.foldl_issued] at hrun
    exact ⟨hrun, hran, b.executionsOf_opcodes cmds⟩

/-- A board whose command register still holds the execute and the reboot bit runs a word that is
sent to it once, at the address that is left in its address register. -/
theorem issued_is_executed_over_leftovers :
    let b : SimulatedBoard :=
      { version := ⟨1, 2⟩, control := Control.execute ||| Control.reboot, address := 8 }
    let c := sole .third b
    let cmd : Rom.Command := { opcode := .pageProgram, data := some 5, endOfCommand := true }
    c.board? .third = some b ∧
      c.executions (((Board.geographic .third).issue cmd : Job Unit RomError Unit) ()) =
        [(.third, ⟨some .pageProgram, true, 8, 5⟩)] := by
  intro b c cmd
  have hb : c.board? .third = some b := board?_insert_self ..
  obtain ⟨_, -, -, hran, -⟩ := (issued_is_executed hb ()).1 cmd
  exact ⟨hb, hran⟩

end SimulatedCrate
end Reflash
