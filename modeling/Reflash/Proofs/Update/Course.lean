import Reflash.Proofs.Update.Steps
/-!
# The course of a whole update

The steps of an update in a row. A job leads from one phase to another if, begun in the one, it
ends in the other or in the failure of one of its steps. Each step leads to the phase from which
the next one starts, so a whole update never stops in between.
-/

namespace Reflash

theorem Step.mem_all (step : Step) : step ∈ all := by
  cases step <;> decide

namespace BoardUpdate

variable {b : Board} {u u' : BoardUpdate} {cycles : List Access} {start mid next : Phase}
  {steps : List Step} {job job' : UpdateJob Unit} {onTick : Exchange Unit}

/-- Begun in phase `start`, the job succeeds and ends in phase `next`, or it fails at one of the
steps and leaves the update with that failure. -/
def Leads (b : Board) (start next : Phase) (steps : List Step) (job : UpdateJob Unit) : Prop :=
  ∀ ⦃u cycles out u'⦄, u.board = b → u.phase = start → job.Ends u cycles out u' →
    u'.board = b ∧
      (out = .ok () ∧ u'.phase = next ∨
        ∃ step ∈ steps, ∃ cause, out = .failed ⟨b.slot, step, cause⟩ ∧
          u'.phase = .failed ⟨b.slot, step, cause⟩)

theorem Leads.of_goes {allowed : Request → Prop} {step : Step} (hstep : step ∈ steps)
    {made : BoardUpdate → List Access → BoardUpdate → Prop}
    (hkeeps : job.Keeps allowed fun u => u.board = b)
    (hgoes : ∀ {u cycles out u'}, u.board = b → job.Ends u cycles out u' →
      Goes start next step (made u) u cycles out u') : Leads b start next steps job := by
  intro u cycles out u' hu hstart h
  refine ⟨(hkeeps.of_ends hu h).1, ?_⟩
  cases hgoes hu h with
  | refused hne => exact absurd hstart hne
  | failed _ cause hphase =>
      have hslot : u.slot = b.slot := congrArg Board.slot hu
      rw [hslot] at hphase ⊢
      exact .inr ⟨step, hstep, cause, rfl, hphase⟩
  | done _ hphase => exact .inl ⟨rfl, hphase⟩

theorem Leads.bind (h : Leads b start mid steps job) (h' : Leads b mid next steps job') :
    Leads b start next steps (job >>= fun _ => job') := by
  intro u cycles out u' hu hstart hends
  obtain ⟨before, _, u₁, after, rfl, hfirst, hsecond⟩ | ⟨e, rfl, hfirst⟩ | ⟨rfl, hfirst⟩ :=
    Routine.ends_bind.mp hends
  · obtain ⟨hu₁, ⟨-, hmid⟩ | ⟨_, -, _, habsurd, -⟩⟩ := h hu hstart hfirst
    · exact h' hu₁ hmid hsecond
    · cases habsurd
  · obtain ⟨hu', ⟨habsurd, -⟩ | ⟨step, hstep, cause, hout, hphase⟩⟩ := h hu hstart hfirst
    · cases habsurd
    · obtain rfl : e = ⟨b.slot, step, cause⟩ := by simpa using hout
      exact ⟨hu', .inr ⟨step, hstep, cause, rfl, hphase⟩⟩
  · obtain ⟨-, ⟨habsurd, -⟩ | ⟨_, -, _, habsurd, -⟩⟩ := h hu hstart hfirst <;> cases habsurd

/-! ## Events and reports -/

theorem ends_announced {step : Step} {body : Exchange Unit → UpdateJob Unit}
    {out : Outcome StepFailure Unit} (h : (announced step body).Ends u cycles out u') :
    (body (Exchange.report (.ticked u.slot step))).Ends u cycles out u' := by
  have hbody := Routine.ends_lift_bind (Exchange.isSilent_report _) (Routine.ends_get_bind.mp h)
  obtain ⟨before, _, u₁, after, rfl, hends, hdone⟩ | ⟨e, rfl, hends⟩ | ⟨rfl, hends⟩ :=
    Routine.ends_bind.mp hbody
  · obtain ⟨rfl, ⟨_, rfl⟩, rfl⟩ := Routine.ends_lift (Exchange.isSilent_report _) hdone
    rw [List.append_nil]
    exact hends
  · exact hends
  · exact hends

theorem Leads.announced {step : Step} {body : Exchange Unit → UpdateJob Unit}
    (h : ∀ e, Leads b start next steps (body (Exchange.report e))) :
    Leads b start next steps (announced step body) :=
  fun _ _ _ _ hu hstart hends => h _ hu hstart (ends_announced hends)

theorem ends_runSteps_of_run {file : Image} {out : Outcome StepFailure Unit}
    (h : (run file).Ends u cycles out u') : (runSteps file).Ends u cycles out u' := by
  obtain ⟨before, result, u₁, after, rfl, hattempt, hrest⟩ | ⟨e, -, hattempt⟩ |
    ⟨rfl, hattempt⟩ := Routine.ends_bind.mp h
  · obtain ⟨_, hresult, hsteps⟩ | ⟨failure, hresult, hsteps⟩ | ⟨habsurd, -⟩ :=
      Routine.ends_attempt.mp hattempt
    · obtain rfl : result = .ok _ := by simpa using hresult
      obtain ⟨rfl, rfl, rfl⟩ := Routine.ends_pure.mp hrest
      rw [List.append_nil]
      exact hsteps
    · obtain rfl : result = .error failure := by simpa using hresult
      have hfail := Routine.ends_lift_bind (Exchange.isSilent_reportAll failure.events) hrest
      obtain ⟨rfl, rfl, rfl⟩ := Routine.ends_fail.mp hfail
      rw [List.append_nil]
      exact hsteps
    · cases habsurd
  · obtain ⟨_, habsurd, -⟩ | ⟨_, habsurd, -⟩ | ⟨habsurd, -⟩ :=
      Routine.ends_attempt.mp hattempt <;> cases habsurd
  · obtain ⟨_, habsurd, -⟩ | ⟨_, habsurd, -⟩ | ⟨-, hsteps⟩ := Routine.ends_attempt.mp hattempt
    · cases habsurd
    · cases habsurd
    · exact hsteps

/-! ## The parts of an update -/

section Parts

variable (hb : b.Fits)
include hb

theorem leads_reset (hstep : .init ∈ steps) : Leads b .init .reset steps reset :=
  .of_goes hstep (keeps_reset hb) (goes_reset hb)

theorem leads_waitReady (hstep : .init ∈ steps) : Leads b .reset .ready steps waitReady :=
  .of_goes hstep (keeps_waitReady hb) (goes_waitReady hb)

theorem leads_startErase (hstep : .erase ∈ steps) : Leads b .ready .erasing steps startErase :=
  .of_goes hstep (keeps_startErase hb) (goes_startErase hb)

theorem leads_awaitErase (hticks : onTick.IsSilent) (hstep : .erase ∈ steps) :
    Leads b .erasing .erased steps (awaitErase onTick) :=
  .of_goes hstep (keeps_awaitErase hb hticks) (goes_awaitErase hb hticks)

theorem leads_startReboot (hstep : .reboot ∈ steps) :
    Leads b .verified .rebooting steps startReboot :=
  .of_goes hstep (keeps_startReboot hb) (goes_startReboot hb)

theorem leads_awaitReboot (hticks : onTick.IsSilent) (hstep : .reboot ∈ steps) :
    Leads b .rebooting .rebooted steps (awaitReboot onTick) :=
  .of_goes hstep (keeps_awaitReboot hb hticks) (goes_awaitReboot hb hticks)

theorem leads_wipe (hinit : .init ∈ steps) (herase : .erase ∈ steps) :
    Leads b .init .erased steps wipe := by
  have hinitialized : Leads b .init .ready steps (announced .init fun _ => do reset; waitReady) :=
    .announced fun _ => (leads_reset hb hinit).bind (leads_waitReady hb hinit)
  refine hinitialized.bind (.announced fun e => ?_)
  have hticks := Exchange.isSilent_report e
  exact (leads_startErase hb herase).bind (leads_awaitErase hb hticks herase)

theorem leads_refill (hprogram : .program ∈ steps) (hdownload : .download ∈ steps)
    (hverify : .verify ∈ steps) (file : Image) :
    Leads b .erased .verified steps (refill file) := by
  have hprogrammed : Leads b .erased .programmed steps (announced .program (program file)) :=
    .announced fun e => .of_goes hprogram (keeps_program hb (Exchange.isSilent_report e) file)
      (goes_program hb (Exchange.isSilent_report e))
  have hread : Leads b .programmed .downloaded steps
      (announced .download (download file.sizeBytes)) :=
    .announced fun e => .of_goes hdownload (keeps_download hb (Exchange.isSilent_report e) _)
      (goes_download hb (Exchange.isSilent_report e))
  have hverified : Leads b .downloaded .verified steps (announced .verify (verify file)) :=
    .announced fun e => .of_goes hverify (keeps_verify (Exchange.isSilent_report e) file)
      (goes_verify (Exchange.isSilent_report e))
  exact hprogrammed.bind (hread.bind hverified)

theorem leads_prepare (hsteps : ∀ step, step ≠ .reboot → step ∈ steps) (file : Image) :
    Leads b .init .verified steps (prepare file) :=
  .bind (leads_wipe hb (hsteps _ (by decide)) (hsteps _ (by decide)))
    (leads_refill hb (hsteps _ (by decide)) (hsteps _ (by decide)) (hsteps _ (by decide)) file)

theorem leads_restart (hreboot : .reboot ∈ steps) :
    Leads b .verified .rebooted steps restart := by
  refine .announced fun e => ?_
  have hticks := Exchange.isSilent_report e
  exact (leads_startReboot hb hreboot).bind (leads_awaitReboot hb hticks hreboot)

/-- A whole update of a board ends in a reboot, or in the failure of one of its steps. -/
theorem leads_run (file : Image) : Leads b .init .rebooted Step.all (run file) := by
  intro u cycles out u' hu hstart h
  have hsteps := ends_runSteps_of_run h
  rw [runSteps_eq] at hsteps
  exact (leads_prepare hb (fun step _ => step.mem_all) file).bind (leads_restart hb (by decide)) hu
    hstart hsteps

end Parts
end BoardUpdate
end Reflash
