import Reflash.Proofs.Rom.Causes
import Reflash.Proofs.Update.Stages
/-!
# Updates in order

An update only ever keeps failures that have their cause in its work. A step that is refused because
of the order leaves the update as it was, so a job that starts from its phase is not refused.
-/

namespace Reflash.BoardUpdate

variable {α : Type} {start next : Phase} {step : Step} {job : UpdateJob Unit}

def IsInOrder (u : BoardUpdate) : Prop :=
  ∀ failure, u.phase = .failed failure → failure.cause.IsOfWork

theorem IsInOrder.of_phase {u : BoardUpdate} (hphase : u.phase = start)
    (hstart : start.failure? = none) : u.IsInOrder := by
  intro failure hfailed
  rw [← hphase, hfailed] at hstart
  cases hstart

/-- Wherever the job starts and however it ends, an update in order stays in order. -/
def StaysInOrder (job : UpdateJob α) : Prop := job.Confines IsInOrder fun _ => True

theorem staysInOrder_require (start : Phase) (step : Step) :
    StaysInOrder (require start step) := by
  refine .get_bind fun u => ?_
  cases u.failure? with
  | some failure => exact .fail trivial
  | none => exact .ite (.fail trivial) (.pure ())

theorem staysInOrder_moveTo {phase : Phase}
    (hphase : ∀ failure, phase = .failed failure → failure.cause.IsOfWork) :
    StaysInOrder (moveTo phase) :=
  .modify fun _ _ => hphase

theorem staysInOrder_conclude (hnext : next.failure? = none)
    {work : Job BoardUpdate RomError α} (hwork : work.Confines IsInOrder RomError.IsOfWork) :
    StaysInOrder (conclude step next work) := by
  refine .get_bind fun u => .attempt_bind hwork (fun value => ?_) fun cause hcause => ?_
  · refine .bind (Job.confines_remark _) fun _ => ?_
    refine .bind (staysInOrder_moveTo fun failure hfailed => ?_) fun _ => .pure value
    rw [hfailed] at hnext
    cases hnext
  · refine .bind (Job.confines_remark _) fun _ => ?_
    refine .bind (staysInOrder_moveTo fun failure hfailed => ?_) fun _ => .fail trivial
    cases hfailed
    exact hcause

theorem confines_onRom {work : RomJob α} (hwork : RomJob.IsWork work) :
    (onRom work).Confines IsInOrder RomError.IsOfWork :=
  .within hwork (fun _ _ => trivial) fun _ _ hu _ => hu

/-! ## The steps -/

section Steps

variable (onTick : Exchange Unit) (file : Image)

theorem staysInOrder_reset : StaysInOrder reset := by
  refine .bind (staysInOrder_require _ _) fun _ => .get_bind fun u => ?_
  refine .bind (Board.confines_write _ _) fun _ => .bind (Job.confines_pause _) fun _ => ?_
  exact staysInOrder_moveTo nofun

theorem staysInOrder_waitReady : StaysInOrder waitReady := by
  have hwork : RomJob.IsWork (do RomSession.awaitEngine; RomSession.readId) :=
    .bind (RomSession.confines_awaitEngine fun _ => trivial) fun _ =>
      RomSession.confines_query (fun _ => trivial) _
  refine .bind (staysInOrder_require _ _) fun _ => ?_
  refine .bind (staysInOrder_conclude rfl (confines_onRom hwork)) fun id => ?_
  exact .get_bind fun u => Job.confines_remark _

theorem staysInOrder_startErase : StaysInOrder startErase :=
  .bind (staysInOrder_require _ _) fun _ =>
    staysInOrder_conclude rfl (confines_onRom RomSession.isWork_startErase)

theorem staysInOrder_awaitErase : StaysInOrder (awaitErase onTick) := by
  refine .bind (staysInOrder_require _ _) fun _ => ?_
  have hwork := confines_onRom (RomSession.isWork_awaitErase onTick)
  exact .bind (staysInOrder_conclude rfl hwork) fun _ => .pure ()

theorem staysInOrder_program : StaysInOrder (program file onTick) :=
  .bind (staysInOrder_require _ _) fun _ =>
    staysInOrder_conclude rfl (confines_onRom (RomSession.isWork_program onTick file))

theorem staysInOrder_download (sizeBytes : Nat) : StaysInOrder (download sizeBytes onTick) :=
  .bind (staysInOrder_require _ _) fun _ => staysInOrder_conclude rfl <|
    .within (RomSession.confines_download onTick (fun _ => trivial) fun _ => trivial)
      (fun _ _ => trivial) fun _ _ hu _ => hu

theorem staysInOrder_verify : StaysInOrder (verify file onTick) :=
  .bind (staysInOrder_require _ _) fun _ => .get_bind fun u =>
    staysInOrder_conclude rfl (Image.confines_compare onTick file u.readback)

theorem staysInOrder_startReboot : StaysInOrder startReboot := by
  refine .bind (staysInOrder_require _ _) fun _ => .get_bind fun u => ?_
  refine .bind (Board.confines_write _ _) fun _ => .bind (Job.confines_pause _) fun _ => ?_
  exact staysInOrder_moveTo nofun

theorem confines_pollVersion (b : Board) (interval tries left : Nat) :
    (pollVersion onTick b interval tries left).Confines IsInOrder RomError.IsOfWork := by
  induction left with
  | zero => exact .fail trivial
  | succ left ih =>
      refine .bind (Board.confines_probe _) fun version? => .ite ?_ (Job.confines_remark _)
      exact .bind (.lift onTick) fun _ => .bind (Job.confines_pause _) fun _ => ih

theorem staysInOrder_awaitReboot : StaysInOrder (awaitReboot onTick) :=
  .bind (staysInOrder_require _ _) fun _ => .get_bind fun _ =>
    staysInOrder_conclude rfl (confines_pollVersion onTick _ _ _ _)

end Steps

theorem staysInOrder_announced {body : Exchange Unit → UpdateJob Unit}
    (hbody : ∀ onTick, StaysInOrder (body onTick)) : StaysInOrder (announced step body) :=
  .get_bind fun _ => .bind (.lift _) fun _ => .bind (hbody _) fun _ => .lift _

theorem staysInOrder_stages (file : Image) : ∀ job ∈ stages file, StaysInOrder job := by
  have hrefill : StaysInOrder (refill file) := by
    refine .bind (staysInOrder_announced fun e => staysInOrder_program e file) fun _ => ?_
    refine .bind (staysInOrder_announced fun e => staysInOrder_download e _) fun _ => ?_
    exact staysInOrder_announced fun e => staysInOrder_verify e file
  simp only [stages, List.forall_mem_cons]
  exact ⟨staysInOrder_reset, staysInOrder_announced fun _ => staysInOrder_waitReady,
    staysInOrder_startErase, staysInOrder_announced staysInOrder_awaitErase, hrefill,
    staysInOrder_startReboot, staysInOrder_announced staysInOrder_awaitReboot,
    List.forall_mem_nil _⟩

end Reflash.BoardUpdate
