import Reflash.Proofs.Update.Stages
/-!
# Ticks

The loops of an update tell their turns to whoever asked for them. That does not matter to what
they do: on any bus, a step comes to the same with one way of telling turns as with another.
-/

namespace Reflash

variable {ω : Type} [Bus ω] {σ τ ε ε' α β : Type}

def Job.SameRuns (ω : Type) [Bus ω] (job job' : Job σ ε α) : Prop :=
  ∀ (s : σ) (w : ω), (job s).run Bus.handler w = (job' s).run Bus.handler w

namespace Job.SameRuns

theorem refl (job : Job σ ε α) : SameRuns ω job job := fun _ _ => rfl

theorem bind {job job' : Job σ ε α} {f f' : α → Job σ ε β} (h : SameRuns ω job job')
    (hf : ∀ a, SameRuns ω (f a) (f' a)) : SameRuns ω (job >>= f) (job' >>= f') := by
  intro s w
  rw [Routine.run_bind, Routine.run_bind, h s w]
  obtain ⟨⟨out, s'⟩, w'⟩ := (job' s).run Bus.handler w
  cases out with
  | ok a => exact hf a s' w'
  | failed => rfl
  | offBus => rfl

theorem get_bind {f f' : σ → Job σ ε β} (hf : ∀ s, SameRuns ω (f s) (f' s)) :
    SameRuns ω (Routine.get >>= f) (Routine.get >>= f') :=
  bind (refl _) hf

theorem ite {p : Prop} [Decidable p] {job job' other other' : Job σ ε α}
    (h : SameRuns ω job job') (h' : SameRuns ω other other') :
    SameRuns ω (if p then job else other) (if p then job' else other') := by
  split
  · exact h
  · exact h'

theorem within {part : τ → σ} {update : τ → σ → τ} {job job' : Job σ ε α}
    (h : SameRuns ω job job') :
    SameRuns ω (job.within part update) (job'.within part update) := by
  intro t w
  rw [Routine.within, Routine.within, Dialogue.run_bind, Dialogue.run_bind, h]

theorem attempt {job job' : Job σ ε α} (h : SameRuns ω job job') :
    SameRuns ω (job.attempt : Job σ ε' _) job'.attempt := by
  intro s w
  rw [Routine.attempt, Routine.attempt, Dialogue.run_bind, Dialogue.run_bind, h]

end Job.SameRuns

open Job.SameRuns

variable {onTick onTick' : Exchange Unit} (h : onTick.IsSilent) (h' : onTick'.IsSilent)
include h h'

theorem sameRuns_lift_bind {f f' : Unit → Job σ ε α} (hf : ∀ a, Job.SameRuns ω (f a) (f' a)) :
    Job.SameRuns ω (Routine.lift onTick >>= f) (Routine.lift onTick' >>= f') := by
  intro s w
  rw [Routine.run_lift_bind h, Routine.run_lift_bind h']
  exact hf () s w

/-! ## The loops -/

theorem Board.sameRuns_awaitWrite (b : Board) (readyTries interval tries left : Nat) :
    Job.SameRuns ω (b.awaitWrite (σ := σ) readyTries interval onTick tries left)
      (b.awaitWrite readyTries interval onTick' tries left) := by
  induction left with
  | zero => exact .refl _
  | succ left ih =>
      refine .bind (.refl _) fun status => .ite ?_ (.refl _)
      exact sameRuns_lift_bind h h' fun _ => .bind (.refl _) fun _ => ih

theorem RomSession.sameRuns_awaitErase :
    Job.SameRuns ω (RomSession.awaitErase onTick) (RomSession.awaitErase onTick') :=
  .get_bind fun _ => .bind
    (.get_bind fun s' => Board.sameRuns_awaitWrite h h' s'.board _ _ _ _) fun _ => .refl _

theorem RomSession.sameRuns_writeWordsFrom (index : Nat) (words : List UInt32) :
    Job.SameRuns ω (RomSession.writeWordsFrom onTick index words)
      (RomSession.writeWordsFrom onTick' index words) := by
  induction words generalizing index with
  | nil => exact .refl _
  | cons word rest ih =>
      exact .bind (.refl _) fun _ => sameRuns_lift_bind h h' fun _ => ih (index + 1)

theorem RomSession.sameRuns_program (image : Image) :
    Job.SameRuns ω (RomSession.program image onTick) (RomSession.program image onTick') := by
  rw [RomSession.program, RomSession.program]
  cases image.contents? with
  | none => exact .refl _
  | some words =>
      refine .ite (.refl _) (.bind ?_ fun _ => .refl _)
      exact RomSession.sameRuns_writeWordsFrom h h' 0 words

theorem RomSession.sameRuns_readWordsFrom (index : Nat) (sofar : List UInt32) (count : Nat) :
    Job.SameRuns ω (RomSession.readWordsFrom onTick index sofar count)
      (RomSession.readWordsFrom onTick' index sofar count) := by
  induction count generalizing index sofar with
  | zero => exact .refl _
  | succ count ih =>
      exact .bind (.refl _) fun word => sameRuns_lift_bind h h' fun _ => ih (index + 1) _

theorem RomSession.sameRuns_download (sizeBytes : Nat) :
    Job.SameRuns ω (RomSession.download sizeBytes onTick)
      (RomSession.download sizeBytes onTick') := by
  refine .ite (.refl _) (.bind (.refl _) fun _ => .bind (.within ?_) fun _ => .refl _)
  exact RomSession.sameRuns_readWordsFrom h h' 0 [] _

theorem Image.sameRuns_compare (file rom : Image) :
    Job.SameRuns ω (file.compare rom onTick : Job σ RomError Unit)
      (file.compare rom onTick') := by
  have hfrom : ∀ (pairs : List (UInt32 × UInt32)) (index : Nat) (tally : Tally),
      Job.SameRuns ω (Image.compareFrom onTick index tally pairs : Job σ RomError Tally)
        (Image.compareFrom onTick' index tally pairs) := by
    intro pairs
    induction pairs with
    | nil => exact fun _ _ => .refl _
    | cons pair rest ih =>
        intro index tally
        rw [Image.compareFrom, Image.compareFrom]
        refine .ite ?_ ?_
        · exact sameRuns_lift_bind h h' fun _ => ih _ _
        · have hrest := sameRuns_lift_bind (ω := ω) h h' fun _ =>
            ih (index + 1) (tally.add ⟨index, pair.1, pair.2⟩)
          dsimp only
          split
          · exact .bind (.refl _) fun _ => hrest
          · exact hrest
  exact .ite (.refl _) (.ite (.refl _) (.bind (hfrom _ 0 {}) fun _ => .refl _))

/-! ## The steps -/

namespace BoardUpdate

theorem sameRuns_pollVersion (b : Board) (interval tries left : Nat) :
    Job.SameRuns ω (pollVersion onTick b interval tries left)
      (pollVersion onTick' b interval tries left) := by
  induction left with
  | zero => exact .refl _
  | succ left ih =>
      refine .bind (.refl _) fun version? => .ite ?_ (.refl _)
      exact sameRuns_lift_bind h h' fun _ => .bind (.refl _) fun _ => ih

omit h h' in
theorem sameRuns_conclude {step : Step} {next : Phase} {work work' : Job BoardUpdate RomError α}
    (hwork : Job.SameRuns ω work work') :
    Job.SameRuns ω (conclude step next work) (conclude step next work') :=
  .get_bind fun _ => .bind hwork.attempt fun _ => .refl _

theorem sameRuns_awaitErase :
    Job.SameRuns ω (awaitErase onTick) (awaitErase onTick') :=
  .bind (.refl _) fun _ => .bind
    (sameRuns_conclude (.within (RomSession.sameRuns_awaitErase h h'))) fun _ => .refl _

theorem sameRuns_program (file : Image) :
    Job.SameRuns ω (program file onTick) (program file onTick') :=
  .bind (.refl _) fun _ => sameRuns_conclude (.within (RomSession.sameRuns_program h h' file))

theorem sameRuns_download (sizeBytes : Nat) :
    Job.SameRuns ω (download sizeBytes onTick) (download sizeBytes onTick') :=
  .bind (.refl _) fun _ =>
    sameRuns_conclude (.within (RomSession.sameRuns_download h h' sizeBytes))

theorem sameRuns_verify (file : Image) :
    Job.SameRuns ω (verify file onTick) (verify file onTick') :=
  .bind (.refl _) fun _ => .get_bind fun u =>
    sameRuns_conclude (Image.sameRuns_compare h h' file u.readback)

theorem sameRuns_awaitReboot :
    Job.SameRuns ω (awaitReboot onTick) (awaitReboot onTick') :=
  .bind (.refl _) fun _ => .get_bind fun _ => sameRuns_conclude (sameRuns_pollVersion h h' _ _ _ _)

omit h h' in
/-- The announcement of a step does not matter, nor how its turns are told. -/
theorem sameRuns_announced (step : Step) {body : Exchange Unit → UpdateJob Unit}
    {job : UpdateJob Unit} (hbody : ∀ e, Job.SameRuns ω (body (Exchange.report e)) job) :
    Job.SameRuns ω (announced step body) job := by
  intro u w
  rw [run_announced]
  exact hbody _ u w

end BoardUpdate
end Reflash
