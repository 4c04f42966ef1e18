import Reflash.Proofs.Simulation.Handling
/-!
# Commands on a simulated board

A command reaches a board as a handful of register writes. The board acts when the execute bit
rises, and not when the words around it are written: whatever was left in its registers, it carries
out exactly the command that was issued. Polls for a ready engine cost the board nothing but its
count of polls that find it not ready.
-/

namespace Reflash

namespace SimulatedBoard

variable (b : SimulatedBoard)

/-! ## A command, carried out -/

/-- The board with a command carried out on the operands that the command brings along. An operand
that it does not bring is still in its register. -/
def carryOut (cmd : Rom.Command) : SimulatedBoard :=
  ({ b with
      address := (cmd.address.map (· &&& Rom.addressMask)).getD b.address
      data := cmd.data.getD b.data }).runCommand cmd.opcode.byte cmd.endOfCommand

def issued (cmd : Rom.Command) : SimulatedBoard :=
  { b.carryOut cmd with
    control := cmd.control 0
    activity.writes := b.activity.writes + cmd.frame.length }

/-- Running a command neither looks at the command register nor at the number of writes. -/
theorem runCommand_frame (control : UInt32) (writes : Nat) (field : UInt8) (closing : Bool) :
    ({ b with control := control, activity.writes := writes }).runCommand field closing =
      { b.runCommand field closing with control := control, activity.writes := writes } := by
  unfold runCommand
  cases Rom.Opcode.ofByte? field with
  | none => rfl
  | some opcode =>
      cases opcode with
      | writeDisable | writeEnable | autoRead | readId => rfl
      | readStatus =>
          simp only [execute, reportStatus]
          split <;> rfl
      | bulkErase =>
          simp only [execute, bulkErase]
          split <;> rfl
      | pageProgram =>
          simp only [execute, pageProgram, wordIndex, commitPage]
          cases b.page with
          | none => cases b.writeEnabled && b.busy == 0 <;> cases closing <;> rfl
          | some page => cases closing <;> rfl

theorem writeControl_of_not_execute {word : UInt32}
    (hreboot : hasBits word Control.reboot = false)
    (hexecute : hasBits word Control.execute = false) :
    b.writeControl word = { b with control := word } := by
  simp [writeControl, started?, hreboot, hexecute]

theorem writeControl_of_execute {word : UInt32}
    (hreboot : hasBits word Control.reboot = false)
    (hexecute : hasBits word Control.execute = true)
    (hidle : hasBits b.control Control.execute = false) :
    b.writeControl word =
      ({ b with control := word }).runCommand (word &&& Control.opcodeField).toUInt8
        (hasBits word Control.endOfCommand) := by
  simp [writeControl, started?, hreboot, hexecute, hidle]

def writeAll (b : SimulatedBoard) (writes : List (UInt32 × UInt32)) : SimulatedBoard :=
  writes.foldl (fun b w => b.write w.1 w.2) b

theorem writeAll_operands (cmd : Rom.Command) :
    let writes := cmd.address.toList.map (Register.address, ·) ++
      cmd.data.toList.map (Register.data, ·)
    b.writeAll writes =
      { b with
        address := (cmd.address.map (· &&& Rom.addressMask)).getD b.address
        data := cmd.data.getD b.data
        activity.writes := b.activity.writes + writes.length } := by
  cases cmd.address <;> cases cmd.data <;> rfl

theorem write_command_control_zero (cmd : Rom.Command) :
    b.write Register.command (cmd.control 0) =
      { b with control := cmd.control 0, activity.writes := b.activity.writes + 1 } :=
  writeControl_of_not_execute _ (Control.IsCommandWord.hasBits_reboot ⟨cmd, .inl rfl⟩)
    cmd.hasBits_execute_control_zero

private theorem write_command_control_execute {cmd : Rom.Command}
    (hcontrol : b.control = cmd.control 0) :
    b.write Register.command (cmd.control Control.execute) =
      ({ b with
          control := cmd.control Control.execute
          activity.writes := b.activity.writes + 1 }).runCommand cmd.opcode.byte
        cmd.endOfCommand := by
  have hreboot : hasBits (cmd.control Control.execute) Control.reboot = false :=
    Control.IsCommandWord.hasBits_reboot ⟨cmd, .inr rfl⟩
  have hidle : hasBits b.control Control.execute = false := by
    rw [hcontrol]
    exact cmd.hasBits_execute_control_zero
  have hwrite := writeControl_of_execute
    { b with activity.writes := b.activity.writes + 1 } hreboot cmd.hasBits_execute_control hidle
  rw [cmd.opcodeField_control, cmd.hasBits_endOfCommand_control] at hwrite
  exact hwrite

/-- The register writes of a command make the board carry it out, once. -/
theorem writeAll_frame (cmd : Rom.Command) : b.writeAll cmd.frame = b.issued cmd := by
  generalize hoperands : cmd.address.toList.map (Register.address, ·) ++
    cmd.data.toList.map (Register.data, ·) = operands
  have hframe : b.writeAll cmd.frame =
      ((((b.write Register.command (cmd.control 0)).writeAll operands).write Register.command
        (cmd.control Control.execute)).write Register.command (cmd.control 0)) := by
    rw [Rom.Command.frame, hoperands]
    simp [writeAll]
  have hlength : cmd.frame.length = operands.length + 3 := by
    rw [Rom.Command.frame, hoperands]
    simp
  have hcount : b.activity.writes + cmd.frame.length =
      b.activity.writes + 1 + operands.length + 1 + 1 := by omega
  have hrun := runCommand_frame
    { b with
      address := (cmd.address.map (· &&& Rom.addressMask)).getD b.address
      data := cmd.data.getD b.data }
    (cmd.control Control.execute) (b.activity.writes + 1 + operands.length + 1) cmd.opcode.byte
    cmd.endOfCommand
  rw [issued, hframe, ← hoperands, writeAll_operands, hoperands, write_command_control_zero b,
    write_command_control_execute _ rfl, hcount]
  refine (congrArg (fun b => write b Register.command (cmd.control 0)) hrun).trans ?_
  exact write_command_control_zero _ cmd

/-! ## Polls -/

/-- The command engine reports ready at some poll. -/
def Responds : Prop := b.faults.neverReady = false ∧ b.hung = false

/-- The command engine reports ready before that many polls are over. -/
def AnswersWithin (tries : Nat) : Prop := b.Responds ∧ b.notReady < tries

instance : Decidable b.Responds := inferInstanceAs (Decidable (_ ∧ _))

instance (tries : Nat) : Decidable (b.AnswersWithin tries) :=
  inferInstanceAs (Decidable (_ ∧ _))

def polled (polls : Nat) : SimulatedBoard :=
  { b with
    notReady := if b.Responds then b.notReady - polls else b.notReady
    activity.reads := b.activity.reads + polls }

theorem polled_polled (polls polls' : Nat) :
    (b.polled polls).polled polls' = b.polled (polls + polls') := by
  let left := if b.Responds then b.notReady - polls else b.notReady
  show { b with
      notReady := if b.Responds then left - polls' else left
      activity.reads := b.activity.reads + polls + polls' } = b.polled (polls + polls')
  unfold left polled
  by_cases h : b.Responds
  · simp only [if_pos h, Nat.sub_sub, Nat.add_assoc]
  · simp only [if_neg h, Nat.add_assoc]

private theorem read_engineStatus_eq :
    let polled := ({ b with activity.reads := b.activity.reads + 1 }).isReady
    b.read Register.engineStatus = (if polled.1 then EngineStatus.ready else 0, polled.2) := by
  unfold read
  iterate 7 rw [if_neg (by decide)]
  rw [if_pos rfl]

/-- A poll finds the command engine ready exactly if the next poll is all that it takes. -/
theorem read_engineStatus :
    b.read Register.engineStatus =
      (if b.AnswersWithin 1 then EngineStatus.ready else 0, b.polled 1) := by
  rw [read_engineStatus_eq]
  by_cases h : b.Responds
  · have hanswers : b.AnswersWithin 1 ↔ b.notReady = 0 := by simp [AnswersWithin, h]
    simp [isReady, h.1, h.2, polled, h, hanswers]
  · have hnever : (b.faults.neverReady || b.hung) = true := by
      rw [Responds, ← Bool.not_eq_true, ← Bool.not_eq_true, ← not_or, Decidable.not_not] at h
      simpa using h
    have hanswers : ¬b.AnswersWithin 1 := fun hwithin => h hwithin.1
    simp [isReady, hnever, polled, h, hanswers]

theorem read_readback :
    b.read Register.readback =
      (b.readback, { b with activity.reads := b.activity.reads + 1 }) := by
  unfold read
  iterate 6 rw [if_neg (by decide)]
  rw [if_pos rfl]

end SimulatedBoard

/-! ## Runs on a board -/

section Run

variable {σ ε : Type} {slot : Slot} {b : SimulatedBoard}

namespace Board

theorem run_writeAll {writes : List (UInt32 × UInt32)}
    (h : ∀ w ∈ writes, w.1 ≤ Register.engineStatus) (t : σ) (b : SimulatedBoard) :
    (((geographic slot).writeAll writes : Job σ ε Unit) t).run Bus.handler b =
      ((.ok (), t), b.writeAll writes) := by
  induction writes generalizing b with
  | nil => rfl
  | cons w rest ih =>
      have hw := List.forall_mem_cons.mp h
      rw [Board.writeAll, Routine.run_bind_ok (run_write hw.1 w.2 t b), ih hw.2]
      rfl

theorem run_issue (cmd : Rom.Command) (t : σ) (b : SimulatedBoard) :
    (((geographic slot).issue cmd : Job σ ε Unit) t).run Bus.handler b =
      ((.ok (), t), b.issued cmd) := by
  rw [issue, Job.run_remark_bind, run_writeAll (fun w => cmd.offset_le_of_mem_frame),
    b.writeAll_frame]

theorem run_readback (t : σ) (b : SimulatedBoard) :
    (((geographic slot).readback : Job σ ε UInt32) t).run Bus.handler b =
      ((.ok b.readback, t), { b with activity.reads := b.activity.reads + 1 }) := by
  rw [readback, run_read (by decide), b.read_readback]

theorem run_engineReady (t : σ) (b : SimulatedBoard) :
    (((geographic slot).engineReady : Job σ ε Bool) t).run Bus.handler b =
      ((.ok (hasBits (b.read Register.engineStatus).1 EngineStatus.ready), t),
        (b.read Register.engineStatus).2) := by
  rw [engineReady, Routine.run_bind_ok (run_read (by decide) t b)]
  rfl

theorem run_awaitReady_succ (tries left : Nat) (t : σ) (b : SimulatedBoard) :
    (((geographic slot).awaitReady tries (left + 1) : Job σ RomError Nat) t).run Bus.handler b =
      if hasBits (b.read Register.engineStatus).1 EngineStatus.ready then
        ((.ok (tries - left), t), (b.read Register.engineStatus).2)
      else
        (((geographic slot).awaitReady tries left : Job σ RomError Nat) t).run Bus.handler
          (b.read Register.engineStatus).2 := by
  rw [awaitReady, Routine.run_bind_ok (run_engineReady t b)]
  split <;> rfl

private theorem hasBits_ready : hasBits EngineStatus.ready EngineStatus.ready = true := by decide

private theorem hasBits_not_ready : hasBits 0 EngineStatus.ready = false := by decide

/-- Waiting for a board that answers in time takes one poll more than those that find it not
ready. -/
theorem run_awaitReady {tries left : Nat} (h : b.AnswersWithin left) (t : σ) :
    (((geographic slot).awaitReady tries left : Job σ RomError Nat) t).run Bus.handler b =
      ((.ok (tries - (left - (b.notReady + 1))), t), b.polled (b.notReady + 1)) := by
  induction left generalizing b with
  | zero => exact absurd h.2 (Nat.not_lt_zero _)
  | succ left ih =>
      rcases h with ⟨hresponds, hlt⟩
      rw [run_awaitReady_succ, b.read_engineStatus]
      dsimp only
      by_cases hcount : b.notReady = 0
      · have hready : b.AnswersWithin 1 := ⟨hresponds, by omega⟩
        rw [if_pos hready, hasBits_ready, if_pos rfl, hcount, Nat.zero_add, Nat.add_sub_cancel]
      · have hready : ¬b.AnswersWithin 1 := by
          rintro ⟨-, hzero⟩
          omega
        have hnotReady : (b.polled 1).notReady = b.notReady - 1 := if_pos hresponds
        have hpolled : (b.polled 1).notReady + 1 = b.notReady := by omega
        have hrest : (b.polled 1).AnswersWithin left := ⟨hresponds, by omega⟩
        rw [if_neg hready, hasBits_not_ready, if_neg Bool.false_ne_true, ih hrest, hpolled,
          SimulatedBoard.polled_polled, Nat.add_comm 1, Nat.add_sub_add_right]

theorem run_awaitReady_timeout {tries left : Nat} (h : ¬b.AnswersWithin left) (t : σ) :
    (((geographic slot).awaitReady tries left : Job σ RomError Nat) t).run Bus.handler b =
      ((.failed (.readyTimeout tries), t), b.polled left) := by
  induction left generalizing b with
  | zero =>
      have hpolled : b.polled 0 = b := by simp [SimulatedBoard.polled]
      rw [hpolled]
      rfl
  | succ left ih =>
      have hready : ¬b.AnswersWithin 1 := by
        rintro ⟨hresponds, hzero⟩
        exact h ⟨hresponds, by omega⟩
      have hrest : ¬(b.polled 1).AnswersWithin left := by
        rintro ⟨hresponds, hlt⟩
        have hnotReady : (b.polled 1).notReady = b.notReady - 1 := if_pos hresponds
        exact h ⟨hresponds, by omega⟩
      rw [run_awaitReady_succ, b.read_engineStatus, if_neg hready]
      dsimp only
      rw [hasBits_not_ready, if_neg Bool.false_ne_true, ih hrest, SimulatedBoard.polled_polled,
        Nat.add_comm 1]

theorem run_waitReady {tries : Nat} (h : b.AnswersWithin tries) (t : σ) :
    (((geographic slot).waitReady tries : Job σ RomError Nat) t).run Bus.handler b =
      ((.ok (b.notReady + 1), t), b.polled (b.notReady + 1)) := by
  have hpolls : tries - (tries - (b.notReady + 1)) = b.notReady + 1 := by
    have hlt := h.2
    omega
  rw [waitReady, run_awaitReady h, hpolls]

end Board

namespace RomSession

variable {s : RomSession} (hs : s.board = .geographic slot)
include hs

theorem run_waitReady (h : b.AnswersWithin s.budgets.commandReadyTries) :
    (waitReady s).run Bus.handler b = ((.ok (), s), b.polled (b.notReady + 1)) := by
  rw [waitReady, Routine.run_get_bind, hs, Routine.run_bind_ok (Board.run_waitReady h s)]
  rfl

theorem run_command (cmd : Rom.Command) (h : b.AnswersWithin s.budgets.commandReadyTries) :
    ∃ counts, (command cmd s).run Bus.handler b =
      ((.ok (), { s with counts }), (b.polled (b.notReady + 1)).issued cmd) := by
  have hissue : ((s.board.issue cmd : RomJob Unit) s).run Bus.handler
      (b.polled (b.notReady + 1)) = ((.ok (), s), (b.polled (b.notReady + 1)).issued cmd) := by
    rw [hs]
    exact Board.run_issue cmd s _
  rw [command, Routine.run_bind_ok (run_waitReady hs h), Routine.run_get_bind,
    Routine.run_bind_ok hissue]
  split
  · exact ⟨_, rfl⟩
  · exact ⟨s.counts, rfl⟩

end RomSession
end Run
end Reflash
