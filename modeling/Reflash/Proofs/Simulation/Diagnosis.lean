import Reflash.Proofs.Simulation.Update
import Reflash.Proofs.Update.Course
/-!
# Failures of faulty boards

However the faults of a board and the budgets that are too small for it combine, a whole update
fails with one certain error at one certain step, which `diagnosis` tells from the board as it was
before. The board runs other firmware afterwards only if that step is the reboot.
-/

namespace Reflash

namespace SimulatedBoard

variable {b b' : SimulatedBoard} {slot : Slot}

theorem alike_firmware (h : Alike b b') : b.firmware = b'.firmware :=
  (congrArg firmware h.outline_eq :)

theorem firmware_handler {r : Request} (hr : (Board.geographic slot).Updates r)
    (b : SimulatedBoard) : (Bus.handler r b).2.firmware = b.firmware := by
  have hother : ∀ offset value : UInt32, offset ≤ Register.engineStatus →
      offset ≠ Register.command →
      (Bus.write b ((Board.geographic slot).base + offset) value).firmware = b.firmware := by
    intro offset value hle hne
    refine b.firmware_write fun hcommand => ?_
    exact absurd ((SimulatedCrate.offset_register slot hle).symm.trans hcommand) hne
  obtain hdrives | rfl | rfl | rfl := hr
  · cases r with
    | read address => exact b.firmware_read _
    | write address value =>
        obtain ⟨-, hword⟩ | ⟨rfl, -⟩ | rfl := hdrives
        · exact b.firmware_write fun _ => hword.hasBits_reboot
        · exact hother Register.address value (by decide) (by decide)
        · exact hother Register.data value (by decide) (by decide)
    | probe address => exact hdrives.elim
    | pause | tick | remark | report => rfl
  · exact hother Register.reset ResetRequest.both (by decide) (by decide)
  · exact b.firmware_probe
  · generalize (Board.geographic slot).base + Register.controlVersion = address
    exact b.firmware_read _

end SimulatedBoard

namespace BoardUpdate

variable {u : BoardUpdate} {slot : Slot} {b : SimulatedBoard} {budgets : Budgets} {file : Image}
  {words : List UInt32} {failure : StepFailure}

/-- An update that fails before the reboot leaves the board with the firmware it had. -/
theorem yields_prepare_failed (hu : u.board = .geographic slot) (hphase : u.phase = .init)
    (h : (prepare file).Fails u b failure) :
    failure.step ≠ .reboot ∧
      ∃ u' b', (prepare file).Yields u b (.failed failure) u' b' ∧ b'.firmware = b.firmware := by
  obtain ⟨u', b', hfails⟩ := h
  obtain ⟨u'', x, hrun, -, hx⟩ := hfails (.refl u) (.refl b)
  have hfits := slot.fits_geographic
  constructor
  · have hsteps : ∀ step, step ≠ .reboot → step ∈ Step.all.filter (· ≠ .reboot) :=
      fun step hne => List.mem_filter.mpr ⟨step.mem_all, decide_eq_true hne⟩
    have hends := Routine.ends_run (prepare file) u b
    rw [hrun] at hends
    obtain ⟨-, ⟨habsurd, -⟩ | ⟨step, hstep, cause, hout, -⟩⟩ :=
      leads_prepare hfits hsteps file hu hphase hends
    · cases habsurd
    · obtain rfl := Outcome.failed.inj hout
      exact of_decide_eq_true (List.mem_filter.mp hstep).2
  · have hkept := (keeps_prepare hfits file u hu).run_preserves
      (fun x : SimulatedBoard => x.firmware = b.firmware)
      (fun r x hr hx => (SimulatedBoard.firmware_handler hr x).trans hx) (s := b) rfl
    rw [hrun] at hkept
    exact ⟨u', b', hfails, (SimulatedBoard.alike_firmware hx).symm.trans hkept⟩

/-- A board that does not come back in time runs its new firmware all the same. -/
theorem yields_restart_failed (hu : u.board = .geographic slot) (hphase : u.phase = .verified)
    (hfailure : b.rebootFailure? u.slot u.rom.budgets = some failure) :
    failure.step = .reboot ∧
      ∃ u' b', restart.Yields u b (.failed failure) u' b' ∧ b'.firmware = b.reboot.firmware := by
  unfold SimulatedBoard.rebootFailure? at hfailure
  split at hfailure
  next hle =>
    obtain rfl := Option.some.inj hfailure
    have hreboot := fun e => yields_reboot_timeout hu (Exchange.isSilent_report e) hphase hle
    exact ⟨rfl, _, _, yields_announced_failed (hreboot _), rfl⟩
  next => cases hfailure

section Whole

variable (hbusy : b.busy = 0) (hhung : b.hung = false) (hfile : file.contents? = some words)
  (hsize : file.sizeBytes ≤ Rom.maxImageBytes)
  (herase : budgets.eraseTries ≤ SimulatedBoard.forever)
  (hreboot : budgets.rebootTries ≤ SimulatedBoard.forever)
include hbusy hhung hfile hsize herase hreboot

/-- A board that cannot be updated ends up with the firmware that it had, or is rebooted. -/
theorem yields_runSteps_failed (hu : u.board = .geographic slot)
    (hbudgets : u.rom.budgets = budgets) (hphase : u.phase = .init)
    (hfailure : b.diagnosis slot budgets words = some failure) :
    ∃ u' b', (runSteps file).Yields u b (.failed failure) u' b' ∧
      b'.firmware = if failure.step = .reboot then b.reboot.firmware else b.firmware := by
  have hprepare := meets_prepare hu hbudgets hbusy hfile hsize hphase
  rw [SimulatedBoard.diagnosis_eq hhung herase hreboot] at hfailure
  rw [runSteps_eq]
  obtain hearly | ⟨hnone, hlate⟩ := Option.or_eq_some_iff.mp hfailure
  · obtain ⟨hstep, u', b', hfails, hfirmware⟩ :=
      yields_prepare_failed hu hphase (hprepare.fails failure hearly)
    exact ⟨u', b', hfails.bind_failed, by rw [if_neg hstep, hfirmware]⟩
  · let readback := u.readback.fill ((List.range words.length).map (b.wiped.filled 0 words).shown)
    obtain rfl : u.slot = slot := congrArg Board.slot hu
    subst hbudgets
    obtain ⟨hstep, u', b', hfails, hfirmware⟩ :=
      yields_restart_failed (u := { u with phase := .verified, readback }) hu rfl hlate
    have hreboot : (b.wiped.filled 0 words).reboot.firmware = b.reboot.firmware := by
      rw [SimulatedBoard.filled_eq]
      rfl
    refine ⟨u', b', (hprepare.yields hnone).bind hfails, ?_⟩
    rw [if_pos hstep, hfirmware, hreboot]

/-- A whole update of a board on which no write is in progress and whose command engine has not
hung fails exactly with the board's diagnosis, and succeeds if there is none. A failed update stays
in that failure, and the board runs the firmware that it did unless it failed to come back from its
reboot. No budget exceeds `forever`, the largest count of 32 bits. -/
theorem run_eq_diagnosis (timing : Timing) {c : SimulatedCrate} (hb : c.board? slot = some b) :
    let update := BoardUpdate.new (.geographic slot) budgets timing
    let after := (run file update).run Bus.handler c
    after.1.1 = (b.diagnosis slot budgets words).elim (.ok ()) .failed ∧
      ∀ failure, b.diagnosis slot budgets words = some failure →
        after.1.2.phase = .failed failure ∧
          ∃ b', after.2 = c.insert slot b' ∧
            if failure.step = .reboot then
              b'.version = b.rebootVersion.getD b.version ∧
                b'.activity.reboots = b.activity.reboots + 1
            else b'.version = b.version ∧ b'.activity.reboots = b.activity.reboots := by
  intro update
  have hfits := slot.fits_geographic
  rw [SimulatedCrate.run_of_owns (keeps_run hfits file update rfl) hb]
  dsimp only
  cases hdiagnosis : b.diagnosis slot budgets words with
  | none =>
      have hsteps : (runSteps file).Meets (b.diagnosis slot budgets words) update b _ _ :=
        meets_runSteps hbusy hhung hfile hsize herase hreboot rfl rfl rfl
      obtain ⟨u', x, hrun, -, -⟩ := yields_run (hsteps.yields hdiagnosis) (.refl update) (.refl b)
      rw [hrun]
      exact ⟨rfl, nofun⟩
  | some failure =>
      obtain ⟨u', b', hsteps, hfirmware⟩ := yields_runSteps_failed hbusy hhung hfile hsize herase
        hreboot (u := update) rfl rfl rfl hdiagnosis
      obtain ⟨u'', x, hrun, -, hx⟩ := yields_run_failed hsteps (.refl update) (.refl b)
      have hends := Routine.ends_run (run file) update b
      rw [hrun] at hends ⊢
      refine ⟨rfl, fun failure' hfailure' => ?_⟩
      obtain rfl := Option.some.inj hfailure'
      obtain ⟨-, ⟨habsurd, -⟩ | ⟨step, -, cause, hout, hphase⟩⟩ :=
        leads_run hfits file rfl rfl hends
      · cases habsurd
      obtain rfl := Outcome.failed.inj hout
      refine ⟨hphase, x, rfl, ?_⟩
      rw [← SimulatedBoard.alike_firmware hx] at hfirmware
      have hversion := congrArg Prod.fst hfirmware
      have hreboots := congrArg (fun known => known.2.2) hfirmware
      split at hversion
      next hstep =>
        rw [if_pos hstep] at hreboots ⊢
        exact ⟨hversion, hreboots⟩
      next hstep =>
        rw [if_neg hstep] at hreboots ⊢
        exact ⟨hversion, hreboots⟩

end Whole

theorem run_eq_diagnosis_corrupt :
    (Image.ofWords [7, 8]).sizeBytes ≤ Rom.maxImageBytes ∧
      let board : SimulatedBoard :=
        { version := ⟨1, 2⟩
          rebootVersion := some ⟨3, 4⟩
          faults := { corruptWord := some 1, noReboot := true } }
      let after := (run (.ofWords [7, 8]) (.new (.geographic .first) {} {})).run Bus.handler
        (({} : SimulatedCrate).insert .first board)
      let failure : StepFailure := ⟨.first, .verify, .verifyMismatch 1 [⟨1, 8, 0x108⟩]⟩
      after.1.1 = .failed failure ∧ after.1.2.phase = .failed failure ∧
        ∃ b', after.2.board? .first = some b' ∧ b'.version = ⟨1, 2⟩ := by
  have hsize : (Image.ofWords [7, 8]).sizeBytes ≤ Rom.maxImageBytes := by decide
  have hfile : (Image.ofWords [7, 8]).contents? = some [7, 8] := rfl
  have herase : ({} : Budgets).eraseTries ≤ SimulatedBoard.forever := by decide
  have hreboot : ({} : Budgets).rebootTries ≤ SimulatedBoard.forever := by decide
  refine ⟨hsize, ?_⟩
  intro board
  have hdiagnosis : board.diagnosis .first {} [7, 8] =
      some ⟨.first, .verify, .verifyMismatch 1 [⟨1, 8, 0x108⟩]⟩ := by decide
  have hupdate := run_eq_diagnosis (b := board) rfl rfl hfile hsize herase hreboot {}
    (SimulatedCrate.board?_insert_self {} .first board)
  dsimp only at hupdate ⊢
  -- The run is not to be evaluated.
  generalize Dialogue.run _ _ _ = after at hupdate ⊢
  obtain ⟨hout, hresult⟩ := hupdate
  obtain ⟨hphase, b', hcrate, hfirmware⟩ := hresult _ hdiagnosis
  refine ⟨by rw [hout, hdiagnosis]; rfl, hphase, b', ?_, hfirmware.1⟩
  rw [hcrate]
  exact SimulatedCrate.board?_insert_self ..

end BoardUpdate
end Reflash
