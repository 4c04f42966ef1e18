import Reflash.Proofs.Image.Mismatches
import Reflash.Proofs.Rom.Cycles
import Reflash.Proofs.Update.Conduct
/-!
# Steps of a board's update

Each step starts from one phase. Asked for in another one it is refused: nothing happens, on the
bus or to the update. Otherwise it leads to its next phase, after bus cycles that show its work
done, or to the failure of its step. All of this holds whatever the bus answers.
-/

namespace Reflash

theorem Phase.failure?_eq_some_iff {phase : Phase} {failure : StepFailure} :
    phase.failure? = some failure ↔ phase = .failed failure := by
  cases phase <;> simp [failure?]

namespace BoardUpdate

variable {α : Type} {b : Board} {u u' : BoardUpdate} {cycles : List Access}
  {onTick : Exchange Unit}

/-- The failure that refuses a step: the one that ended the update, or else a wrong order. -/
def refusal (u : BoardUpdate) (step : Step) : StepFailure :=
  u.failure?.getD ⟨u.slot, step, .outOfSequence⟩

/-- How a step goes that leads from `start` to `next`: with `made` of its cycles and of what it
leaves, unless it is refused or fails. -/
inductive Goes (start next : Phase) (step : Step) (made : List Access → BoardUpdate → Prop)
    (u : BoardUpdate) (cycles : List Access) : Outcome StepFailure Unit → BoardUpdate → Prop where
  | refused (hstart : u.phase ≠ start) (hcycles : cycles = []) :
      Goes start next step made u cycles (.failed (u.refusal step)) u
  | failed (hstart : u.phase = start) {u' : BoardUpdate} (cause : RomError)
      (hphase : u'.phase = .failed ⟨u.slot, step, cause⟩) :
      Goes start next step made u cycles (.failed ⟨u.slot, step, cause⟩) u'
  | done (hstart : u.phase = start) {u' : BoardUpdate} (hphase : u'.phase = next)
      (hmade : made cycles u') : Goes start next step made u cycles (.ok ()) u'

/-- A step is refused, or it starts from its phase. -/
theorem ends_require_bind {start : Phase} (hstart : start.failure? = none) {step : Step}
    {f : Unit → UpdateJob α} {out : Outcome StepFailure α}
    (h : (require start step >>= f).Ends u cycles out u') :
    (u.phase ≠ start ∧ cycles = [] ∧ out = .failed (u.refusal step) ∧ u' = u) ∨
      (u.phase = start ∧ (f ()).Ends u cycles out u') := by
  have hends : ∀ {out' : Outcome StepFailure Unit} {cycles' : List Access} {u₁ : BoardUpdate},
      (require start step).Ends u cycles' out' u₁ →
        (u.phase ≠ start ∧ cycles' = [] ∧ out' = .failed (u.refusal step) ∧ u₁ = u) ∨
          (u.phase = start ∧ cycles' = [] ∧ out' = .ok () ∧ u₁ = u) := by
    intro out' cycles' u₁ hrequire
    have hrequire' := Routine.ends_get_bind.mp hrequire
    cases hfailure : u.failure? with
    | some failure =>
        rw [hfailure] at hrequire'
        obtain ⟨rfl, rfl, rfl⟩ := Routine.ends_fail.mp hrequire'
        have hne : u₁.phase ≠ start := by
          rintro rfl
          rw [failure?, hstart] at hfailure
          cases hfailure
        exact .inl ⟨hne, rfl, by rw [refusal, hfailure, Option.getD_some], rfl⟩
    | none =>
        rw [hfailure] at hrequire'
        dsimp only at hrequire'
        split at hrequire'
        next hne =>
          obtain ⟨rfl, rfl, rfl⟩ := Routine.ends_fail.mp hrequire'
          exact .inl ⟨hne, rfl, by rw [refusal, hfailure, Option.getD_none], rfl⟩
        next heq =>
          obtain ⟨rfl, rfl, rfl⟩ := Routine.ends_pure.mp hrequire'
          exact .inr ⟨not_not.mp heq, rfl, rfl, rfl⟩
  obtain ⟨before, a, u₁, after, rfl, hrequire, hf⟩ | ⟨e, rfl, hrequire⟩ | ⟨rfl, hrequire⟩ :=
    Routine.ends_bind.mp h
  · obtain ⟨-, -, habsurd, -⟩ | ⟨heq, rfl, -, rfl⟩ := hends hrequire
    · cases habsurd
    · exact .inr ⟨heq, hf⟩
  · obtain ⟨hne, rfl, hout, rfl⟩ | ⟨-, -, habsurd, -⟩ := hends hrequire
    · obtain rfl : e = u'.refusal step := by simpa using hout
      exact .inl ⟨hne, rfl, rfl, rfl⟩
    · cases habsurd
  · obtain ⟨-, -, habsurd, -⟩ | ⟨-, -, habsurd, -⟩ := hends hrequire <;> cases habsurd

theorem ends_conclude {step : Step} {next : Phase} {work : Job BoardUpdate RomError α}
    {out : Outcome StepFailure α} (h : (conclude step next work).Ends u cycles out u') :
    (∃ value u₁, work.Ends u cycles (.ok value) u₁ ∧ out = .ok value ∧
        u' = { u₁ with phase := next }) ∨
      (∃ cause u₁, work.Ends u cycles (.failed cause) u₁ ∧
        out = .failed ⟨u.slot, step, cause⟩ ∧
        u' = { u₁ with phase := .failed ⟨u.slot, step, cause⟩ }) ∨
      (out = .offBus ∧ work.Ends u cycles .offBus u') := by
  obtain ⟨before, result, u₁, after, rfl, hwork, hrest⟩ | ⟨e, -, hwork⟩ | ⟨rfl, hwork⟩ :=
    Routine.ends_bind.mp (Routine.ends_get_bind.mp h)
  · obtain ⟨value, hresult, hwork'⟩ | ⟨cause, hresult, hwork'⟩ | ⟨habsurd, -⟩ :=
      Routine.ends_attempt.mp hwork
    · obtain rfl : result = .ok value := by simpa using hresult
      dsimp only at hrest
      have hmove := Job.ends_remark_bind hrest
      have hpure := Routine.ends_modify_bind.mp hmove
      obtain ⟨rfl, rfl, rfl⟩ := Routine.ends_pure.mp hpure
      rw [List.append_nil]
      exact .inl ⟨value, u₁, hwork', rfl, rfl⟩
    · obtain rfl : result = .error cause := by simpa using hresult
      dsimp only at hrest
      have hmove := Job.ends_remark_bind hrest
      have hfail := Routine.ends_modify_bind.mp hmove
      obtain ⟨rfl, rfl, rfl⟩ := Routine.ends_fail.mp hfail
      rw [List.append_nil]
      exact .inr (.inl ⟨cause, u₁, hwork', rfl, rfl⟩)
    · cases habsurd
  · obtain ⟨_, habsurd, -⟩ | ⟨_, habsurd, -⟩ | ⟨habsurd, -⟩ := Routine.ends_attempt.mp hwork <;>
      cases habsurd
  · obtain ⟨_, habsurd, -⟩ | ⟨_, habsurd, -⟩ | ⟨-, hwork'⟩ := Routine.ends_attempt.mp hwork
    · cases habsurd
    · cases habsurd
    · exact .inr (.inr ⟨rfl, hwork'⟩)

theorem goes_require_bind {start next : Phase} (hstart : start.failure? = none) {step : Step}
    {made : List Access → BoardUpdate → Prop} {f : Unit → UpdateJob Unit}
    {out : Outcome StepFailure Unit} (h : (require start step >>= f).Ends u cycles out u')
    (hf : u.phase = start → (f ()).Ends u cycles out u' →
      Goes start next step made u cycles out u') :
    Goes start next step made u cycles out u' := by
  obtain ⟨hne, rfl, rfl, rfl⟩ | ⟨heq, hrest⟩ := ends_require_bind hstart h
  · exact .refused hne rfl
  · exact hf heq hrest

theorem goes_conclude_bind {start next : Phase} {step : Step}
    {made : List Access → BoardUpdate → Prop} {work : Job BoardUpdate RomError α}
    {last : α → UpdateJob Unit} (hwork : work.Keeps b.Updates fun u => u.board = b)
    (hlast : ∀ {a u₁ later out u₂}, (last a).Ends u₁ later out u₂ →
      later = [] ∧ out = .ok () ∧ u₂ = u₁)
    (hu : u.board = b) (heq : u.phase = start)
    (hmade : ∀ value u₁, work.Ends u cycles (.ok value) u₁ → made cycles { u₁ with phase := next })
    {out : Outcome StepFailure Unit}
    (h : (conclude step next work >>= last).Ends u cycles out u') :
    Goes start next step made u cycles out u' := by
  obtain ⟨before, value, u₂, after, rfl, hconclude, hnote⟩ | ⟨e, rfl, hconclude⟩ |
    ⟨rfl, hconclude⟩ := Routine.ends_bind.mp h
  · obtain ⟨rfl, rfl, rfl⟩ := hlast hnote
    rw [List.append_nil] at hmade ⊢
    obtain ⟨value', u₁, hends, -, rfl⟩ | ⟨_, _, -, habsurd, -⟩ | ⟨habsurd, -⟩ :=
      ends_conclude hconclude
    · exact .done heq rfl (hmade value' u₁ hends)
    · cases habsurd
    · cases habsurd
  · obtain ⟨_, _, -, habsurd, -⟩ | ⟨cause, u₁, -, hout, rfl⟩ | ⟨habsurd, -⟩ :=
      ends_conclude hconclude
    · cases habsurd
    · obtain rfl : e = ⟨u.slot, step, cause⟩ := by simpa using hout
      exact .failed heq cause rfl
    · cases habsurd
  · obtain ⟨_, _, -, habsurd, -⟩ | ⟨_, _, -, habsurd, -⟩ | ⟨-, hends⟩ := ends_conclude hconclude
    · cases habsurd
    · cases habsurd
    · exact absurd rfl (hwork.of_ends hu hends).2

theorem goes_conclude {start next : Phase} {step : Step}
    {made : List Access → BoardUpdate → Prop} {work : Job BoardUpdate RomError Unit}
    (hwork : work.Keeps b.Updates fun u => u.board = b) (hu : u.board = b)
    (heq : u.phase = start)
    (hmade : ∀ u₁, work.Ends u cycles (.ok ()) u₁ → made cycles { u₁ with phase := next })
    {out : Outcome StepFailure Unit} (h : (conclude step next work).Ends u cycles out u') :
    Goes start next step made u cycles out u' := by
  rw [← bind_pure (conclude step next work)] at h
  exact goes_conclude_bind hwork Routine.ends_pure.mp hu heq (fun _ u₁ => hmade u₁) h

theorem ends_onRom {work : RomJob α} {out : Outcome RomError α}
    (h : (onRom work).Ends u cycles out u') :
    ∃ rom, work.Ends u.rom cycles out rom ∧ u' = { u with rom } :=
  Routine.ends_within.mp h

/-! ## The steps -/

variable {out : Outcome StepFailure Unit}

theorem ends_reset (hb : b.Fits) (hu : u.board = b) (h : reset.Ends u cycles out u') :
    (u.phase ≠ .init ∧ cycles = [] ∧ out = .failed (u.refusal .init) ∧ u' = u) ∨
      (u.phase = .init ∧ cycles = [.write (b.base + Register.reset) ResetRequest.both] ∧
        out = .ok () ∧ u' = { u with phase := .reset }) := by
  obtain hrefused | ⟨heq, hrest⟩ := ends_require_bind rfl h
  · exact .inl hrefused
  · rw [Routine.ends_get_bind, hu, hb.write_eq (by decide)] at hrest
    obtain ⟨_, after, rfl, hpause⟩ := Job.ends_ask_bind hrest
    have hmove := Job.ends_pause_bind hpause
    obtain ⟨rfl, rfl, rfl⟩ := Routine.ends_modify.mp hmove
    exact .inr ⟨heq, rfl, rfl, rfl⟩

theorem goes_reset (hb : b.Fits) (hu : u.board = b) (h : reset.Ends u cycles out u') :
    Goes .init .reset .init (fun t _ => t ∈ b.resetPulse) u cycles out u' := by
  obtain ⟨hne, rfl, rfl, rfl⟩ | ⟨heq, rfl, rfl, rfl⟩ := ends_reset hb hu h
  · exact .refused hne rfl
  · exact .done heq rfl rfl

theorem goes_waitReady (hb : b.Fits) (hu : u.board = b)
    (h : waitReady.Ends u cycles out u') :
    Goes .reset .ready .init (fun t _ => t ∈ b.readyPolls * b.identified) u cycles out u' := by
  refine goes_require_bind rfl h fun heq hrest => ?_
  refine goes_conclude_bind (keeps_onRom hb isProper_identify) ?_ hu heq ?_ hrest
  · intro id u₁ later out' u₂ hnote
    exact Job.ends_remark (Routine.ends_get_bind.mp hnote)
  · intro id u₁ hends
    obtain ⟨rom, hrom, rfl⟩ := ends_onRom hends
    obtain ⟨polls, _, _, _, rfl, hready, hid⟩ := Routine.ends_bind_ok.mp hrom
    obtain ⟨hpolls, rfl⟩ := RomSession.ends_awaitEngine hb hu hready
    exact Language.append_mem_mul hpolls (RomSession.ends_readId hb hu hid)

theorem goes_startErase (hb : b.Fits) (hu : u.board = b)
    (h : startErase.Ends u cycles out u') :
    Goes .ready .erasing .erase (fun t _ => t ∈ b.eraseStarted) u cycles out u' := by
  refine goes_require_bind rfl h fun heq hrest => ?_
  refine goes_conclude (keeps_onRom hb RomSession.isProper_startErase) hu heq ?_ hrest
  intro u₁ hends
  obtain ⟨rom, hrom, -⟩ := ends_onRom hends
  exact RomSession.ends_startErase hb hu hrom

theorem goes_awaitErase (hb : b.Fits) (hticks : onTick.IsSilent) (hu : u.board = b)
    (h : (awaitErase onTick).Ends u cycles out u') :
    Goes .erasing .erased .erase (fun t _ => t ∈ b.writeOver) u cycles out u' := by
  refine goes_require_bind rfl h fun heq hrest => ?_
  refine goes_conclude_bind (keeps_onRom hb (RomSession.isProper_awaitErase hticks))
    Routine.ends_pure.mp hu heq ?_ hrest
  intro polls u₁ hends
  obtain ⟨rom, hrom, -⟩ := ends_onRom hends
  exact RomSession.ends_awaitErase hb hu hticks hrom

theorem goes_program (hb : b.Fits) (hticks : onTick.IsSilent) {file : Image} (hu : u.board = b)
    (h : (program file onTick).Ends u cycles out u') :
    Goes .erased .programmed .program
      (fun t _ => ∃ words, file.contents? = some words ∧ t ∈ b.programmed words)
      u cycles out u' := by
  refine goes_require_bind rfl h fun heq hrest => ?_
  refine goes_conclude (keeps_onRom hb (RomSession.isProper_program hticks file)) hu heq ?_ hrest
  intro u₁ hends
  obtain ⟨rom, hrom, -⟩ := ends_onRom hends
  exact RomSession.ends_program hb hu hticks hrom

theorem goes_download (hb : b.Fits) (hticks : onTick.IsSilent) {sizeBytes : Nat}
    (hu : u.board = b) (h : (download sizeBytes onTick).Ends u cycles out u') :
    Goes .programmed .downloaded .download
      (fun t u₁ => ∃ words, u₁.readback.contents? = some words ∧
        words.length = sizeBytes / Rom.wordBytes ∧ t ∈ b.wordsRead 0 words)
      u cycles out u' := by
  refine goes_require_bind rfl h fun heq hrest => ?_
  refine goes_conclude (keeps_downloadWork hb hticks sizeBytes) hu heq ?_ hrest
  intro u₁ hends
  obtain ⟨⟨rom, readback⟩, hrom, rfl⟩ := Routine.ends_within.mp hends
  exact RomSession.ends_download hb hticks hu hrom

theorem goes_verify (hticks : onTick.IsSilent) {file : Image} (hu : u.board = b)
    (h : (verify file onTick).Ends u cycles out u') :
    Goes .downloaded .verified .verify
      (fun t u₁ => t = [] ∧ u₁.readback = u.readback ∧
        ∃ words, file.contents? = some words ∧ u.readback.contents? = some words)
      u cycles out u' := by
  refine goes_require_bind rfl h fun heq hrest => ?_
  rw [Routine.ends_get_bind] at hrest
  refine goes_conclude (keeps_compare hticks file u.readback) hu heq ?_ hrest
  intro u₁ hends
  obtain ⟨rfl, rfl, hwords⟩ := Image.ends_compare hticks hends
  exact ⟨rfl, rfl, hwords rfl⟩

theorem ends_startReboot (hb : b.Fits) (hu : u.board = b) (h : startReboot.Ends u cycles out u') :
    (u.phase ≠ .verified ∧ cycles = [] ∧ out = .failed (u.refusal .reboot) ∧ u' = u) ∨
      (u.phase = .verified ∧
        cycles = [.write (b.base + Register.command) Control.reboot] ∧ out = .ok () ∧
        u' = { u with phase := .rebooting }) := by
  obtain hrefused | ⟨heq, hrest⟩ := ends_require_bind rfl h
  · exact .inl hrefused
  · rw [Routine.ends_get_bind, hu, Board.requestReboot, hb.write_eq (by decide)] at hrest
    obtain ⟨_, after, rfl, hpause⟩ := Job.ends_ask_bind hrest
    have hmove := Job.ends_pause_bind hpause
    obtain ⟨rfl, rfl, rfl⟩ := Routine.ends_modify.mp hmove
    exact .inr ⟨heq, rfl, rfl, rfl⟩

theorem goes_startReboot (hb : b.Fits) (hu : u.board = b) (h : startReboot.Ends u cycles out u') :
    Goes .verified .rebooting .reboot
      (fun t _ => t = [.write (b.base + Register.command) Control.reboot]) u cycles out u' := by
  obtain ⟨hne, rfl, rfl, rfl⟩ | ⟨heq, rfl, rfl, rfl⟩ := ends_startReboot hb hu h
  · exact .refused hne rfl
  · exact .done heq rfl rfl

theorem goes_awaitReboot (hb : b.Fits) (hticks : onTick.IsSilent) (hu : u.board = b)
    (h : (awaitReboot onTick).Ends u cycles out u') :
    Goes .rebooting .rebooted .reboot (fun _ _ => True) u cycles out u' := by
  refine goes_require_bind rfl h fun heq hrest => ?_
  have hboard : u.rom.board = b := hu
  rw [Routine.ends_get_bind] at hrest
  dsimp only at hrest
  rw [hboard] at hrest
  exact goes_conclude (keeps_pollVersion hb hticks _ _ _) hu heq (fun _ _ => trivial) hrest

end BoardUpdate
end Reflash
