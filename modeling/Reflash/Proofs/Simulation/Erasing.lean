import Reflash.Proofs.Simulation.Session
/-!
# Erasing the ROM of a simulated board

The write-enable latch, the wait for a write in progress, and the bulk erase that needs both. The
latch is set unless the board is write-protected; a wait is over in time if the budget of status
reads is larger than the number of them that still find the write in progress.
-/

namespace Reflash

namespace SimulatedBoard

variable {b : SimulatedBoard}

theorem alike_carryOut_writeEnable (b : SimulatedBoard) :
    Alike (b.carryOut { opcode := .writeEnable })
      { b with writeEnabled := !b.faults.writeProtected } := rfl

def status (b : SimulatedBoard) : UInt32 :=
  (if b.busy = 0 then 0 else RomStatus.writing) |||
    if b.writeEnabled then RomStatus.writeEnabled else 0

def closedStatus (b : SimulatedBoard) : UInt32 := status { b with writeEnabled := false }

theorem closedStatus_of_not_busy (hbusy : b.busy = 0) : b.closedStatus = 0 := by
  unfold closedStatus status
  dsimp only
  rw [if_pos hbusy, if_neg Bool.false_ne_true, UInt32.or_self]

theorem hasBits_writing_status (b : SimulatedBoard) :
    hasBits b.status RomStatus.writing = !decide (b.busy = 0) := by
  unfold status
  by_cases hbusy : b.busy = 0
  · rw [if_pos hbusy, decide_eq_true hbusy]
    cases b.writeEnabled <;> decide
  · rw [if_neg hbusy, decide_eq_false hbusy]
    cases b.writeEnabled <;> decide

theorem hasBits_writeEnabled_status (b : SimulatedBoard) :
    hasBits b.status RomStatus.writeEnabled = b.writeEnabled := by
  unfold status
  split <;> cases b.writeEnabled <;> decide

/-- A status command counts as a wait for a write in progress. -/
theorem alike_carryOut_readStatus (b : SimulatedBoard) :
    Alike (b.carryOut { opcode := .readStatus }) { b with busy := b.busy - 1 } := by
  have hreport : b.carryOut { opcode := .readStatus } =
      reportStatus { b with activity.commands := b.activity.commands + 1 } := rfl
  rw [hreport, reportStatus]
  split
  next hbusy =>
    have hdone : b.busy - 1 = b.busy := by
      have hnone : b.busy = 0 := hbusy
      omega
    rw [hdone]
    rfl
  next => rfl

theorem readback_carryOut_readStatus (b : SimulatedBoard) :
    (b.carryOut { opcode := .readStatus }).readback = b.status := by
  have hreport : b.carryOut { opcode := .readStatus } =
      reportStatus { b with activity.commands := b.activity.commands + 1 } := rfl
  rw [hreport, reportStatus, status]
  dsimp only
  by_cases hbusy : b.busy = 0
  · rw [if_pos hbusy, if_pos hbusy, UInt32.zero_or]
  · rw [if_neg hbusy, if_neg hbusy]

def eraseTime (b : SimulatedBoard) : Nat :=
  if b.faults.eraseStuck then forever else b.latency.erase

def erasing (b : SimulatedBoard) : SimulatedBoard :=
  { b with
    rom := .blank
    writeEnabled := false
    faults.writeProtected := b.faults.writeProtected || b.faults.protectAfterErase
    busy := b.eraseTime
    activity.erases := b.activity.erases + 1 }

/-- The board after it has been asked for a bulk erase with its latch set first. The status that
shows the latch takes one of the waits for a write in progress; if there are more, the bulk erase is
ignored. -/
def askedToErase (b : SimulatedBoard) : SimulatedBoard :=
  if b.busy ≤ 1 then b.erasing else { b with writeEnabled := true, busy := b.busy - 1 }

theorem alike_carryOut_bulkErase (b : SimulatedBoard) :
    Alike (({ b with writeEnabled := true, busy := b.busy - 1 } : SimulatedBoard).carryOut
      { opcode := .bulkErase }) b.askedToErase := by
  have herase : ({ b with writeEnabled := true, busy := b.busy - 1 } : SimulatedBoard).carryOut
      { opcode := .bulkErase } =
        bulkErase
          { b with
            writeEnabled := true
            busy := b.busy - 1
            activity.commands := b.activity.commands + 1 } := rfl
  rw [herase, bulkErase, askedToErase]
  dsimp only
  by_cases hbusy : b.busy ≤ 1
  · have hopen : (true && b.busy - 1 == 0) = true := by
      have hdone : b.busy - 1 = 0 := by omega
      rw [hdone]
      rfl
    rw [if_pos hopen, if_pos hbusy]
    rfl
  · have hclosed : ¬(true && b.busy - 1 == 0) = true := by
      rw [Bool.true_and, beq_iff_eq]
      omega
    rw [if_neg hclosed, if_neg hbusy]
    rfl

theorem askedToErase_of_le (h : b.busy ≤ 1) : b.askedToErase = b.erasing := if_pos h

theorem rom_askedToErase (b : SimulatedBoard) :
    b.askedToErase.rom = if b.busy ≤ 1 then .blank else b.rom := by
  unfold askedToErase
  split <;> rfl

theorem Idle.askedToErase (h : b.Idle) : b.askedToErase.Idle := by
  unfold SimulatedBoard.askedToErase
  split
  · exact h
  · exact h

end SimulatedBoard

namespace Board

variable {σ : Type} [Outlined σ] {s : σ} {slot : Slot} {b : SimulatedBoard}
  {readyTries interval tries left : Nat} {onTick : Exchange Unit}

private theorem yields_reportStatus (hready : 0 < readyTries) (h : b.Idle) :
    ((geographic slot).readStatus readyTries : Job σ RomError UInt32).Yields s b (.ok b.status) s
      { b with busy := b.busy - 1 } := by
  have hstatus := b.alike_carryOut_readStatus
  have hafter := (SimulatedBoard.alike_responds hstatus).mpr h.1
  rw [← b.readback_carryOut_readStatus]
  exact (yields_readStatus h hready hafter).trans (.refl s) hstatus

private theorem yields_awaitWrite_done (hready : 0 < readyTries) (h : b.Idle)
    (hbusy : b.busy = 0) :
    ((geographic slot).awaitWrite readyTries interval onTick tries (left + 1) :
      Job σ RomError Nat).Yields s b (.ok (tries - left)) s b := by
  have hdone : b.busy - 1 = b.busy := by omega
  have hsame : ({ b with busy := b.busy - 1 } : SimulatedBoard) = b := by rw [hdone]
  rw [awaitWrite]
  refine ((yields_reportStatus hready h).trans (.refl s) (.of_eq hsame)).bind ?_
  rw [b.hasBits_writing_status, decide_eq_true hbusy, Bool.not_true, if_neg Bool.false_ne_true]
  exact (Routine.yields_remark _).bind (Routine.yields_pure _)

private theorem yields_awaitWrite_again {out : Outcome RomError Nat} {b' : SimulatedBoard}
    (hready : 0 < readyTries) (hticks : onTick.IsSilent) (h : b.Idle) (hbusy : b.busy ≠ 0)
    (hrest : ((geographic slot).awaitWrite readyTries interval onTick tries left :
      Job σ RomError Nat).Yields s { b with busy := b.busy - 1 } out s b') :
    ((geographic slot).awaitWrite readyTries interval onTick tries (left + 1) :
      Job σ RomError Nat).Yields s b out s b' := by
  rw [awaitWrite]
  refine (yields_reportStatus hready h).bind ?_
  rw [b.hasBits_writing_status, decide_eq_false hbusy, Bool.not_false, if_pos rfl]
  exact (Routine.yields_lift hticks).bind ((Routine.yields_pause interval).bind hrest)

theorem yields_awaitWrite (hready : 0 < readyTries) (hticks : onTick.IsSilent) (h : b.Idle)
    (hlt : b.busy < left) :
    ((geographic slot).awaitWrite readyTries interval onTick tries left :
      Job σ RomError Nat).Yields s b (.ok (tries - (left - (b.busy + 1)))) s
        { b with busy := 0 } := by
  induction left generalizing b with
  | zero => exact absurd hlt (Nat.not_lt_zero _)
  | succ left ih =>
      by_cases hbusy : b.busy = 0
      · have hsame : ({ b with busy := 0 } : SimulatedBoard) = b := by rw [← hbusy]
        rw [hsame, hbusy, Nat.zero_add, Nat.add_sub_cancel]
        exact yields_awaitWrite_done hready h hbusy
      · refine yields_awaitWrite_again hready hticks h hbusy ?_
        have hpolls : left + 1 - (b.busy + 1) = left - (b.busy - 1 + 1) := by omega
        rw [hpolls]
        exact ih h (by show b.busy - 1 < left; omega)

theorem yields_awaitWrite_timeout (hready : 0 < readyTries) (hticks : onTick.IsSilent)
    (h : b.Idle) (hle : left ≤ b.busy) :
    ((geographic slot).awaitWrite readyTries interval onTick tries left :
      Job σ RomError Nat).Yields s b (.failed (.writeTimeout tries)) s
        { b with busy := b.busy - left } := by
  induction left generalizing b with
  | zero => exact Routine.yields_fail _
  | succ left ih =>
      refine yields_awaitWrite_again hready hticks h (by omega) ?_
      have hbusy : b.busy - (left + 1) = b.busy - 1 - left := by omega
      rw [hbusy]
      exact ih h (by show left ≤ b.busy - 1; omega)

end Board

namespace RomSession

variable {s : RomSession} {slot : Slot} {b : SimulatedBoard} {onTick : Exchange Unit}
  (hs : s.board = .geographic slot)
include hs

section Ready

variable (hready : 0 < s.budgets.commandReadyTries) (h : b.Idle)
include hready h

theorem yields_readStatus :
    readStatus.Yields s b (.ok b.status) s { b with busy := b.busy - 1 } := by
  refine Routine.yields_get_bind fun t ht => ?_
  obtain ⟨hboard, hbudgets, -⟩ := alike_iff.mp ht
  rw [hboard, hbudgets, hs]
  exact Board.yields_reportStatus hready h

/-- A write that is over within the budget of status reads is waited for. -/
theorem yields_awaitWrite (hticks : onTick.IsSilent) {tries : Nat} (hlt : b.busy < tries) :
    (awaitWrite tries onTick).Yields s b (.ok (b.busy + 1)) s { b with busy := 0 } := by
  have hpolls : tries - (tries - (b.busy + 1)) = b.busy + 1 := by omega
  refine Routine.yields_get_bind fun t ht => ?_
  obtain ⟨hboard, hbudgets, -⟩ := alike_iff.mp ht
  rw [hboard, hbudgets, hs, ← hpolls]
  exact Board.yields_awaitWrite hready hticks h hlt

theorem yields_awaitWrite_timeout (hticks : onTick.IsSilent) {tries : Nat}
    (hle : tries ≤ b.busy) :
    (awaitWrite tries onTick).Yields s b (.failed (.writeTimeout tries)) s
      { b with busy := b.busy - tries } := by
  refine Routine.yields_get_bind fun t ht => ?_
  obtain ⟨hboard, hbudgets, -⟩ := alike_iff.mp ht
  rw [hboard, hbudgets, hs]
  exact Board.yields_awaitWrite_timeout hready hticks h hle

theorem yields_awaitErase (hticks : onTick.IsSilent) (hlt : b.busy < s.budgets.eraseTries) :
    (awaitErase onTick).Yields s b (.ok (b.busy + 1)) s { b with busy := 0 } := by
  refine Routine.yields_get_bind fun t ht => ?_
  rw [(alike_iff.mp ht).2.1]
  refine (yields_awaitWrite hs hready h hticks hlt).bind ?_
  exact (Routine.yields_remark _).bind (Routine.yields_pure _)

theorem yields_awaitErase_timeout (hticks : onTick.IsSilent)
    (hle : s.budgets.eraseTries ≤ b.busy) :
    (awaitErase onTick).Yields s b (.failed (.writeTimeout s.budgets.eraseTries)) s
      { b with busy := b.busy - s.budgets.eraseTries } := by
  refine Routine.yields_get_bind fun t ht => ?_
  rw [(alike_iff.mp ht).2.1]
  exact (yields_awaitWrite_timeout hs hready h hticks hle).bind_failed

end Ready

/-! ## The latch and the bulk erase

Both wait for a ready engine first, so they also settle a board that is still coming out of a
reset. -/

section Answers

variable (h : b.AnswersWithin s.budgets.commandReadyTries)
include h

private theorem yields_enableWrites_eq :
    enableWrites.Yields s b
      (if b.faults.writeProtected then .failed (.writeEnableFailed b.closedStatus) else .ok ()) s
      { b.settled with writeEnabled := !b.faults.writeProtected, busy := b.busy - 1 } := by
  have hready : 0 < s.budgets.commandReadyTries := Nat.zero_lt_of_lt h.2
  have hidle : ({ b.settled with writeEnabled := !b.faults.writeProtected } :
    SimulatedBoard).Idle := ⟨h.1, rfl⟩
  have hcommand := (yields_command_settled hs (by decide) h).trans (.refl s)
    b.settled.alike_carryOut_writeEnable
  refine hcommand.bind ((yields_count _).bind ((yields_readStatus hs hready hidle).bind ?_))
  rw [SimulatedBoard.hasBits_writeEnabled_status]
  dsimp only
  cases b.faults.writeProtected with
  | true => exact Routine.yields_fail _
  | false => exact Routine.yields_pure ()

theorem yields_enableWrites_settled (hopen : b.faults.writeProtected = false) :
    enableWrites.Yields s b (.ok ()) s
      { b.settled with writeEnabled := true, busy := b.busy - 1 } := by
  have henable := yields_enableWrites_eq hs h
  rw [hopen] at henable
  exact henable

theorem yields_enableWrites_settled_protected (hprotected : b.faults.writeProtected = true) :
    enableWrites.Yields s b (.failed (.writeEnableFailed b.closedStatus)) s
      { b.settled with writeEnabled := false, busy := b.busy - 1 } := by
  have henable := yields_enableWrites_eq hs h
  rw [hprotected] at henable
  exact henable

theorem yields_startErase (hopen : b.faults.writeProtected = false) :
    startErase.Yields s b (.ok ()) s b.settled.askedToErase := by
  have hidle : ({ b.settled with writeEnabled := true, busy := b.busy - 1 } :
    SimulatedBoard).Idle := ⟨h.1, rfl⟩
  have hcommand := (yields_command hs (by decide) hidle (Nat.zero_lt_of_lt h.2)).trans (.refl s)
    b.settled.alike_carryOut_bulkErase
  exact (yields_enableWrites_settled hs h hopen).bind hcommand

theorem yields_startErase_protected (hprotected : b.faults.writeProtected = true) :
    startErase.Yields s b (.failed (.writeEnableFailed b.closedStatus)) s
      { b.settled with writeEnabled := false, busy := b.busy - 1 } :=
  (yields_enableWrites_settled_protected hs h hprotected).bind_failed

end Answers

theorem yields_startErase_timeout (h : ¬b.AnswersWithin s.budgets.commandReadyTries) :
    startErase.Yields s b (.failed (.readyTimeout s.budgets.commandReadyTries)) s
      (b.polled s.budgets.commandReadyTries) :=
  (yields_command_timeout hs h).bind_failed.bind_failed

/-! ## The latch while no write is in progress -/

theorem yields_enableWrites_protected (hready : 0 < s.budgets.commandReadyTries) (h : b.Idle)
    (hbusy : b.busy = 0) (hprotected : b.faults.writeProtected = true) :
    enableWrites.Yields s b (.failed (.writeEnableFailed 0)) s
      { b with writeEnabled := false } := by
  have hdone : b.busy - 1 = b.busy := by omega
  have hstatus := SimulatedBoard.closedStatus_of_not_busy hbusy
  have henable := yields_enableWrites_settled_protected hs (h.answersWithin hready) hprotected
  rwa [h.settled_eq, hdone, hstatus] at henable

end RomSession
end Reflash
