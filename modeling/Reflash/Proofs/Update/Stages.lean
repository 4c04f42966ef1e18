import Reflash.Proofs.Bus.Handling
import Reflash.Proofs.Update.Course
/-!
# Stages of an update

A crate takes its boards through an update in stages, where erase and reboot are begun and ended
apart. On a bus, a board that goes through the stages one after the other ends up exactly where a
whole update of its own would have taken it: progress events and where they stand do not matter.
-/

namespace Reflash

namespace BoardUpdate

variable {σ : Type} [Bus σ] {b : Board}

theorem run_announced (step : Step) (body : Exchange Unit → UpdateJob Unit) (u : BoardUpdate)
    (s : σ) :
    (announced step body u).run Bus.handler s =
      (body (Exchange.report (.ticked u.slot step)) u).run Bus.handler s := by
  have hbody : (announced step body u).run Bus.handler s =
      ((body (Exchange.report (.ticked u.slot step)) >>= fun _ =>
        Routine.lift (Exchange.report (.done u.slot step))) u).run Bus.handler s :=
    Routine.run_lift_bind (Exchange.isSilent_report _) _ u s
  rw [hbody, Routine.run_bind]
  obtain ⟨⟨out, u'⟩, s'⟩ := (body (Exchange.report (.ticked u.slot step)) u).run Bus.handler s
  cases out <;> rfl

theorem run_run (file : Image) (u : BoardUpdate) (s : σ) :
    (run file u).run Bus.handler s = (runSteps file u).run Bus.handler s := by
  rw [run, Routine.run_bind, Routine.attempt, Dialogue.run_bind]
  obtain ⟨⟨out, u'⟩, s'⟩ := (runSteps file u).run Bus.handler s
  cases out with
  | ok => rfl
  | failed failure =>
      exact Routine.run_lift_bind (Exchange.isSilent_reportAll failure.events) _ u' s'
  | offBus => rfl

/-! ## Jobs that come to the same -/

def Agree (σ : Type) [Bus σ] (b : Board) (job job' : UpdateJob Unit) : Prop :=
  ∀ (u : BoardUpdate) (s : σ), u.board = b →
    (job u).run Bus.handler s = (job' u).run Bus.handler s

theorem Agree.refl (job : UpdateJob Unit) : Agree σ b job job := fun _ _ _ => rfl

theorem Agree.bind {first first' second second' : UpdateJob Unit}
    (hkeeps : first.Keeps b.Owns fun u => u.board = b) (hfirst : Agree σ b first first')
    (hsecond : Agree σ b second second') :
    Agree σ b (first >>= fun _ => second) (first' >>= fun _ => second') := by
  intro u s hu
  have hboard := (Dialogue.Keeps.run (hkeeps u hu) Bus.handler s).1
  rw [Routine.run_bind, Routine.run_bind, ← hfirst u s hu]
  generalize (first u).run Bus.handler s = result at hboard ⊢
  obtain ⟨⟨out, u'⟩, s'⟩ := result
  cases out with
  | ok => exact hsecond u' s' hboard
  | failed => rfl
  | offBus => rfl

/-- A step may be announced only when its first half is over. -/
theorem agree_announced_bind {first : UpdateJob Unit}
    (hkeeps : first.Keeps b.Owns fun u => u.board = b) (step : Step)
    (second : Exchange Unit → UpdateJob Unit) :
    Agree σ b (announced step fun onTick => first >>= fun _ => second onTick)
      (first >>= fun _ => announced step second) := by
  intro u s hu
  have hboard := (Dialogue.Keeps.run (hkeeps u hu) Bus.handler s).1
  rw [run_announced, Routine.run_bind, Routine.run_bind]
  generalize (first u).run Bus.handler s = result at hboard ⊢
  obtain ⟨⟨out, u'⟩, s'⟩ := result
  cases out with
  | ok =>
      have hslot : u'.slot = u.slot := congrArg Board.slot (hboard.trans hu.symm)
      show _ = (announced step second u').run Bus.handler s'
      rw [run_announced, hslot]
  | failed => rfl
  | offBus => rfl

/-! ## The stages -/

/-- The stages in which a crate takes its boards through an update. -/
def stages (file : Image) : List (UpdateJob Unit) :=
  [reset, announced .init fun _ => waitReady, startErase, announced .erase awaitErase, refill file,
    startReboot, announced .reboot awaitReboot]

def inTurn : List (UpdateJob Unit) → UpdateJob Unit
  | [] => pure ()
  | job :: rest => job >>= fun _ => inTurn rest

structure Moves (start next : Phase) (job : UpdateJob Unit) : Prop where
  start_eq : start.failure? = none
  leads : ∀ b : Board, b.Fits → Leads b start next Step.all job
  keeps : ∀ b : Board, b.Fits → job.Keeps b.Owns fun u => u.board = b

inductive Course : Phase → List (UpdateJob Unit) → Phase → Prop where
  | nil (phase : Phase) : Course phase [] phase
  | cons {start mid next : Phase} {job : UpdateJob Unit} {rest : List (UpdateJob Unit)}
      (hjob : Moves start mid job) (hrest : Course mid rest next) : Course start (job :: rest) next

theorem Course.start_eq {start next : Phase} {jobs : List (UpdateJob Unit)}
    (h : Course start jobs next) (hnext : next.failure? = none) : start.failure? = none := by
  cases h with
  | nil => exact hnext
  | cons hjob hrest => exact hjob.start_eq

theorem Moves.announced {start next : Phase} {step : Step}
    {body : Exchange Unit → UpdateJob Unit}
    (hbody : ∀ e, Moves start next (body (Exchange.report e))) :
    Moves start next (announced step body) where
  start_eq := (hbody (.began .first step)).start_eq
  leads b hb := .announced fun e => (hbody e).leads b hb
  keeps b hb := keeps_announced (fun _ => .inl (.inl trivial)) step fun e => (hbody e).keeps b hb

theorem Moves.of_updates {start next : Phase} {job : UpdateJob Unit}
    (hstart : start.failure? = none)
    (hleads : ∀ b : Board, b.Fits → Leads b start next Step.all job)
    (hkeeps : ∀ b : Board, b.Fits → job.Keeps b.Updates fun u => u.board = b) :
    Moves start next job :=
  ⟨hstart, hleads, fun b hb => (hkeeps b hb).mono fun _ => .inl⟩

theorem moves_reset : Moves .init .reset reset :=
  .of_updates rfl (fun _ hb => leads_reset hb (by decide)) fun _ hb => keeps_reset hb

theorem moves_waitReady : Moves .reset .ready (announced .init fun _ => waitReady) :=
  .announced fun _ =>
    .of_updates rfl (fun _ hb => leads_waitReady hb (by decide)) fun _ hb => keeps_waitReady hb

theorem moves_startErase : Moves .ready .erasing startErase :=
  .of_updates rfl (fun _ hb => leads_startErase hb (by decide)) fun _ hb => keeps_startErase hb

theorem moves_awaitErase : Moves .erasing .erased (announced .erase awaitErase) :=
  .announced fun e => .of_updates rfl
    (fun _ hb => leads_awaitErase hb (Exchange.isSilent_report e) (by decide))
    fun _ hb => keeps_awaitErase hb (Exchange.isSilent_report e)

theorem moves_refill (file : Image) : Moves .erased .verified (refill file) :=
  .of_updates rfl (fun _ hb => leads_refill hb (by decide) (by decide) (by decide) file)
    fun _ hb => keeps_refill hb file

theorem moves_startReboot : Moves .verified .rebooting startReboot :=
  ⟨rfl, fun _ hb => leads_startReboot hb (by decide), fun _ hb => keeps_startReboot hb⟩

theorem moves_awaitReboot : Moves .rebooting .rebooted (announced .reboot awaitReboot) :=
  .announced fun e => .of_updates rfl
    (fun _ hb => leads_awaitReboot hb (Exchange.isSilent_report e) (by decide))
    fun _ hb => keeps_awaitReboot hb (Exchange.isSilent_report e)

theorem course_stages (file : Image) : Course .init (stages file) .rebooted :=
  .cons moves_reset <| .cons moves_waitReady <| .cons moves_startErase <|
    .cons moves_awaitErase <| .cons (moves_refill file) <| .cons moves_startReboot <|
      .cons moves_awaitReboot <| .nil .rebooted

/-- The stages in turn come to the same as a whole update. -/
theorem agree_stages (hb : b.Fits) (file : Image) :
    Agree σ b (run file) (inTurn (stages file)) := by
  have hown : ∀ {job : UpdateJob Unit}, job.Keeps b.Updates (fun u => u.board = b) →
      job.Keeps b.Owns fun u => u.board = b := fun h => h.mono fun _ => .inl
  have hreport : ∀ e, b.Owns (.report e) := fun e => .inl (.inl trivial)
  have hticks := fun e => Exchange.isSilent_report e
  have hwipe : Agree σ b wipe ((reset >>= fun _ => announced .init fun _ => waitReady) >>=
      fun _ => startErase >>= fun _ => announced .erase awaitErase) := by
    refine .bind (keeps_announced hreport _ fun e => hown ?_) ?_ ?_
    · exact .bind (keeps_reset hb) fun _ => keeps_waitReady hb
    · exact agree_announced_bind (hown (keeps_reset hb)) _ _
    · exact agree_announced_bind (hown (keeps_startErase hb)) _ _
  have hrestart : Agree σ b restart (startReboot >>= fun _ => announced .reboot awaitReboot) :=
    agree_announced_bind (keeps_startReboot hb) _ _
  have hall := Agree.bind (hown (keeps_wipe hb)) hwipe
    (.bind (hown (keeps_refill hb file)) (.refl (refill file)) hrestart)
  intro u s hu
  have hsteps := hall u s hu
  rw [run_run, runSteps_eq, prepare]
  simp only [bind_assoc] at hsteps ⊢
  rw [hsteps]
  simp only [inTurn, stages, bind_pure_unit]

end BoardUpdate
end Reflash
