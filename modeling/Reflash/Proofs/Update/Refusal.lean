import Reflash.Proofs.Update.Path
import Reflash.Simulation.Crate
/-!
# Updates to an image that is refused

A whole update looks at its image only when it comes to program it. An image that is not loaded, or
too large for the ROM, is refused there, but by then the board has been reset and its ROM erased. So
such an update leaves a board without firmware, unless it fails even before.
-/

namespace Reflash

def Image.refusal? (file : Image) : Option RomError :=
  if file.contents? = none then some .imageNotLoaded
  else if Rom.maxImageBytes < file.sizeBytes then some (.badTransferSize file.sizeBytes)
  else none

theorem RomSession.program_of_refused {file : Image} {refusal : RomError}
    (h : file.refusal? = some refusal) (onTick : Exchange Unit) :
    program file onTick = Routine.fail refusal := by
  unfold Image.refusal? at h
  unfold program
  cases hcontents : file.contents? with
  | none =>
      rw [if_pos hcontents] at h
      obtain rfl := Option.some.inj h
      rfl
  | some words =>
      rw [hcontents, if_neg nofun] at h
      split at h
      next hlarge =>
        obtain rfl := Option.some.inj h
        exact if_pos hlarge
      next => cases h

namespace BoardUpdate

variable {b : Board} {u u' : BoardUpdate} {cycles : List Access} {file : Image}
  {refusal : RomError} {out : Outcome StepFailure Unit}

/-- Programming refuses the image, and leaves the bus alone. -/
theorem ends_program_refused {onTick : Exchange Unit} (hfile : file.refusal? = some refusal)
    (hphase : u.phase = .erased) (h : (program file onTick).Ends u cycles out u') :
    cycles = [] ∧ out = .failed ⟨u.slot, .program, refusal⟩ := by
  have hwork : ∀ {out' u₁}, (onRom (RomSession.program file onTick)).Ends u cycles out' u₁ →
      cycles = [] ∧ out' = .failed refusal := by
    intro out' u₁ hends
    obtain ⟨rom, hrom, -⟩ := ends_onRom hends
    rw [RomSession.program_of_refused hfile] at hrom
    obtain ⟨hcycles, hout, -⟩ := Routine.ends_fail.mp hrom
    exact ⟨hcycles, hout⟩
  obtain ⟨hne, -⟩ | ⟨-, hconclude⟩ := ends_require_bind rfl h
  · exact absurd hphase hne
  · obtain ⟨_, u₁, hends, -⟩ | ⟨cause, u₁, hends, rfl, -⟩ | ⟨-, hends⟩ := ends_conclude hconclude
    · obtain ⟨-, habsurd⟩ := hwork hends
      cases habsurd
    · obtain ⟨hcycles, hout⟩ := hwork hends
      obtain rfl : cause = refusal := by simpa using hout
      exact ⟨hcycles, rfl⟩
    · obtain ⟨-, habsurd⟩ := hwork hends
      cases habsurd

theorem ends_refill_refused (hfile : file.refusal? = some refusal) (hphase : u.phase = .erased)
    (h : (refill file).Ends u cycles out u') :
    cycles = [] ∧ out = .failed ⟨u.slot, .program, refusal⟩ := by
  obtain ⟨_, _, _, _, -, hprogram, -⟩ | ⟨_, rfl, hprogram⟩ | ⟨rfl, hprogram⟩ :=
    Routine.ends_bind.mp h
  · obtain ⟨-, habsurd⟩ := ends_program_refused hfile hphase (ends_announced hprogram)
    cases habsurd
  · obtain ⟨hcycles, hout⟩ := ends_program_refused hfile hphase (ends_announced hprogram)
    exact ⟨hcycles, by simpa using hout⟩
  · obtain ⟨-, habsurd⟩ := ends_program_refused hfile hphase (ends_announced hprogram)
    cases habsurd

theorem ends_wipe (hb : b.Fits) (hu : u.board = b) (hphase : u.phase = .init)
    (h : wipe.Ends u cycles out u') :
    ∃ after, cycles = .write (b.base + Register.reset) ResetRequest.both :: after := by
  have hinitialize : ∀ {t out' u₁},
      (announced .init fun _ => do reset; waitReady).Ends u t out' u₁ →
      ∃ after, t = .write (b.base + Register.reset) ResetRequest.both :: after := by
    intro t out' u₁ hends
    obtain ⟨_, _, _, after, rfl, hreset, -⟩ | ⟨_, -, hreset⟩ | ⟨-, hreset⟩ :=
      Routine.ends_bind.mp (ends_announced hends)
    all_goals obtain ⟨hne, -⟩ | ⟨-, rfl, -, -⟩ := ends_reset hb hu hreset
    all_goals first | exact absurd hphase hne | exact ⟨_, rfl⟩
  obtain ⟨_, _, _, rest, rfl, hinit, -⟩ | ⟨_, -, hinit⟩ | ⟨-, hinit⟩ := Routine.ends_bind.mp h
  · obtain ⟨after, rfl⟩ := hinitialize hinit
    exact ⟨after ++ rest, rfl⟩
  · exact hinitialize hinit
  · exact hinitialize hinit

theorem ends_run_refused (hb : b.Fits) (hfile : file.refusal? = some refusal)
    {budgets : Budgets} {timing : Timing}
    (h : (run file).Ends (.new b budgets timing) cycles out u') :
    (∃ after, cycles = .write (b.base + Register.reset) ResetRequest.both :: after) ∧
      (out = .failed ⟨b.slot, .program, refusal⟩ ∧ cycles ∈ b.erased ∨
        ∃ step ∈ [Step.init, Step.erase], ∃ cause, out = .failed ⟨b.slot, step, cause⟩) := by
  have hnew : Tracks b (fun _ => False) (.new b budgets timing) [] := tracks_new budgets timing
  have hlead : Leads b .init .erased [.init, .erase] wipe :=
    leads_wipe hb (by decide) (by decide)
  have hsteps := ends_runSteps_of_run h
  rw [runSteps_eq, prepare, bind_assoc] at hsteps
  obtain ⟨t₁, _, u₁, t₂, rfl, hwipe, hrest⟩ | ⟨e, rfl, hwipe⟩ | ⟨rfl, hwipe⟩ :=
    Routine.ends_bind.mp hsteps
  all_goals
    obtain ⟨after, hreset⟩ := ends_wipe hb hnew.board_eq rfl hwipe
    obtain ⟨hboard, ⟨hok, hphase⟩ | ⟨step, hstep, cause, hout, -⟩⟩ :=
      hlead hnew.board_eq rfl hwipe
  · have hpath := (tracked_wipe hb hnew hwipe).mem_path
    rw [path, hphase] at hpath
    have hslot : u₁.slot = b.slot := congrArg Board.slot hboard
    rw [hreset]
    refine ⟨⟨after ++ t₂, rfl⟩, .inl ?_⟩
    obtain ⟨_, _, _, _, -, hrefill, -⟩ | ⟨_, rfl, hrefill⟩ | ⟨rfl, hrefill⟩ :=
      Routine.ends_bind.mp hrest
    all_goals obtain ⟨rfl, hout⟩ := ends_refill_refused hfile hphase hrefill
    · cases hout
    · rw [hslot] at hout
      rw [List.append_nil, ← hreset]
      exact ⟨by simpa using hout, hpath⟩
    · cases hout
  · cases hout
  · cases hok
  · obtain rfl : e = ⟨b.slot, step, cause⟩ := by simpa using hout
    exact ⟨⟨after, hreset⟩, .inr ⟨step, hstep, cause, rfl⟩⟩
  · cases hok
  · cases hout

/-- On no bus does an update to a refused image succeed. -/
theorem run_refused_failed {σ : Type} [Bus σ] (hb : b.Fits) (hfile : file.refusal? = some refusal)
    (budgets : Budgets) (timing : Timing) (s : σ) :
    ((run file (.new b budgets timing)).run Bus.handler s).1.1 =
        .failed ⟨b.slot, .program, refusal⟩ ∨
      ∃ step ∈ [Step.init, Step.erase], ∃ cause,
        ((run file (.new b budgets timing)).run Bus.handler s).1.1 =
          .failed ⟨b.slot, step, cause⟩ := by
  obtain ⟨-, ⟨hprogram, -⟩ | hearly⟩ :=
    ends_run_refused hb hfile (Routine.ends_run (run file) (.new b budgets timing) s)
  · exact .inl hprogram
  · exact .inr hearly

theorem ends_run_unloaded (hb : b.Fits) (hfile : file.contents? = none)
    {budgets : Budgets} {timing : Timing}
    (h : (run file).Ends (.new b budgets timing) cycles out u') :
    (∃ after, cycles = .write (b.base + Register.reset) ResetRequest.both :: after) ∧
      (out = .failed ⟨b.slot, .program, .imageNotLoaded⟩ ∧ cycles ∈ b.erased ∨
        ∃ step ∈ [Step.init, Step.erase], ∃ cause, out = .failed ⟨b.slot, step, cause⟩) :=
  ends_run_refused hb (if_pos hfile) h

/-- A whole update to an image that is not loaded always fails, and always resets the board first.
The failure is that the image is not loaded if no step before programming failed, and then the ROM
has been erased; otherwise it is that step's failure. -/
theorem run_unloaded {σ : Type} [Bus σ] (hb : b.Fits) (budgets : Budgets) (timing : Timing)
    (file : Image) (hfile : file.isLoaded = false) (s : σ) :
    let job := run file (.new b budgets timing)
    let cycles := Exchange.cycles job s
    let out := (job.run Bus.handler s).1.1
    (∃ after, cycles = .write (b.base + Register.reset) ResetRequest.both :: after) ∧
      (out = .failed ⟨b.slot, .program, .imageNotLoaded⟩ ∧ cycles ∈ b.erased ∨
        ∃ step ∈ [Step.init, Step.erase], ∃ cause, out = .failed ⟨b.slot, step, cause⟩) := by
  have hcontents : file.contents? = none := by simpa [Image.isLoaded] using hfile
  exact ends_run_unloaded hb hcontents (Routine.ends_run (run file) _ s)

def blankRun : Exchange (Outcome StepFailure Unit × BoardUpdate) :=
  run {} (.new (.geographic ⟨3, by decide, by decide⟩) {} .immediate)

def thirdSlotCrate : SimulatedCrate :=
  ({} : SimulatedCrate).insert ⟨3, by decide, by decide⟩
    { version := ⟨1, 2⟩, rom := .ofWords [1, 2] }

theorem run_unloaded_third :
    (Board.geographic ⟨3, by decide, by decide⟩).Fits ∧ ({} : Image).isLoaded = false ∧
      ∃ after, Exchange.cycles blankRun thirdSlotCrate =
        .write (0x180000 + Register.reset) ResetRequest.both :: after :=
  ⟨by decide, rfl, (run_unloaded (by decide) {} .immediate {} rfl thirdSlotCrate).1⟩

/-- There the update fails because its image is not loaded, after many bus cycles and with the ROM
erased. -/
theorem run_unloaded_erases :
    (blankRun.run Bus.handler thirdSlotCrate).1.1 =
        .failed ⟨⟨3, by decide, by decide⟩, .program, .imageNotLoaded⟩ ∧
      Exchange.cycles blankRun thirdSlotCrate ≠ [] ∧
      ((blankRun.run Bus.handler thirdSlotCrate).2.board? ⟨3, by decide, by decide⟩).map
        (·.activity.erases) = some 1 := by
  decide +kernel

end BoardUpdate
end Reflash
