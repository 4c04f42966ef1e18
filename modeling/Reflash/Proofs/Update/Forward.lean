import Reflash.Proofs.Update.History
import Reflash.Proofs.Update.Ticks
/-!
# Strictly forward

An update only ever moves forward. A call that takes place goes on to the phase behind its own, or
into a failure; one that comes in the wrong phase is refused and changes nothing. A failure is
therefore for good: every call behind it gives it back, without a bus cycle.
-/

namespace Reflash

namespace Phase

def next : Phase → Phase
  | init => reset
  | reset => ready
  | ready => erasing
  | erasing => erased
  | erased => programmed
  | programmed => downloaded
  | downloaded => verified
  | verified => rebooting
  | rebooting => rebooted
  | rebooted => rebooted
  | failed failure => failed failure

end Phase

namespace BoardUpdate

namespace Call

def start : Call → Phase
  | reset | run _ => .init
  | waitReady => .reset
  | startErase => .ready
  | awaitErase => .erasing
  | program _ => .erased
  | download _ => .programmed
  | verify _ => .downloaded
  | startReboot => .verified
  | awaitReboot => .rebooting

/-- Where the call leads if nothing fails: one phase further, or for a whole update to its end. -/
def goal : Call → Phase
  | run _ => .rebooted
  | call => call.start.next

def step : Call → Step
  | reset | waitReady | run _ => .init
  | startErase | awaitErase => .erase
  | program _ => .program
  | download _ => .download
  | verify _ => .verify
  | startReboot | awaitReboot => .reboot

def steps : Call → List Step
  | run _ => Step.all
  | call => [call.step]

def parts (file : Image) : List Call :=
  [reset, waitReady, startErase, awaitErase, program file, download file.sizeBytes, verify file,
    startReboot, awaitReboot]

theorem start_ne_failed (call : Call) (failure : StepFailure) : call.start ≠ .failed failure := by
  cases call <;> simp [start]

end Call

variable {α β : Type} {b : Board} {u u' : BoardUpdate} {cycles : List Access} {step : Step}

/-! ## A call in the wrong phase -/

/-- From this state the job does nothing but refuse the step. -/
def Refuses (u : BoardUpdate) (step : Step) (job : UpdateJob α) : Prop :=
  ∀ ⦃cycles out u'⦄, job.Ends u cycles out u' →
    cycles = [] ∧ out = .failed (u.refusal step) ∧ u' = u

theorem refuses_require_bind {start : Phase} (hstart : start.failure? = none)
    (hne : u.phase ≠ start) (f : Unit → UpdateJob α) :
    Refuses u step (require start step >>= f) := by
  intro cycles out u' h
  rcases ends_require_bind hstart h with ⟨-, hrefused⟩ | ⟨heq, -⟩
  · exact hrefused
  · exact absurd heq hne

theorem Refuses.bind {job : UpdateJob α} (h : Refuses u step job) (f : α → UpdateJob β) :
    Refuses u step (job >>= f) := by
  intro cycles out u' hends
  rcases Routine.ends_bind.mp hends with ⟨_, _, _, _, -, hjob, -⟩ | ⟨e, rfl, hjob⟩ | ⟨-, hjob⟩
  · cases (h hjob).2.1
  · obtain ⟨hcycles, hout, hu'⟩ := h hjob
    refine ⟨hcycles, ?_, hu'⟩
    simpa using hout
  · cases (h hjob).2.1

theorem Refuses.announced {body : Exchange Unit → UpdateJob Unit}
    (h : ∀ onTick, Refuses u step (body onTick)) : Refuses u step (announced step body) :=
  fun _ _ _ hends => h _ (ends_announced hends)

theorem refuses_run (hne : u.phase ≠ .init) (file : Image) : Refuses u .init (run file) := by
  intro cycles out u' h
  have hreset : Refuses u .init reset := refuses_require_bind rfl hne _
  have hsteps : Refuses u .init (runSteps file) :=
    .bind (.announced fun _ => hreset.bind fun _ => waitReady) _
  exact hsteps (ends_runSteps_of_run h)

theorem refuses_job (call : Call) (hne : u.phase ≠ call.start) :
    Refuses u call.step call.job := by
  cases call with
  | run file => exact refuses_run hne file
  | reset | waitReady | startErase | awaitErase | program | download | verify | startReboot
  | awaitReboot => exact refuses_require_bind rfl hne _

/-! ## A call in its phase -/

theorem leads_job (hb : b.Fits) (call : Call) :
    Leads b call.start call.goal call.steps call.job := by
  have hticks := Exchange.isSilent_tick
  have hstep : call.step ∈ call.steps := by
    cases call <;> simp [Call.step, Call.steps, Step.all]
  cases call with
  | reset => exact leads_reset hb hstep
  | waitReady => exact leads_waitReady hb hstep
  | startErase => exact leads_startErase hb hstep
  | awaitErase => exact leads_awaitErase hb hticks hstep
  | program file => exact .of_goes hstep (keeps_program hb hticks file) (goes_program hb hticks)
  | download sizeBytes =>
      exact .of_goes hstep (keeps_download hb hticks sizeBytes) (goes_download hb hticks)
  | verify file => exact .of_goes hstep (keeps_verify hticks file) (goes_verify hticks)
  | startReboot => exact leads_startReboot hb hstep
  | awaitReboot => exact leads_awaitReboot hb hticks hstep
  | run file => exact leads_run hb file

theorem board_after_call (hb : b.Fits) (call : Call) (hu : u.board = b)
    {out : Outcome StepFailure Unit} (h : call.job.Ends u cycles out u') : u'.board = b := by
  by_cases hstart : u.phase = call.start
  · exact (leads_job hb call hu hstart h).1
  · rw [(refuses_job call hstart h).2.2]
    exact hu

/-- How a call to an update goes: the cycles that it makes, its result, and what becomes of the
update. -/
inductive Call.Goes (call : Call) (u : BoardUpdate) (cycles : List Access) :
    Outcome StepFailure Unit → BoardUpdate → Prop where
  | refused (hstart : u.phase ≠ call.start) (hcycles : cycles = []) :
      Goes call u cycles (.failed (u.refusal call.step)) u
  | failed (hstart : u.phase = call.start) {failure : StepFailure} {u' : BoardUpdate}
      (hslot : failure.slot = u.slot) (hstep : failure.step ∈ call.steps)
      (hphase : u'.phase = .failed failure) : Goes call u cycles (.failed failure) u'
  | done (hstart : u.phase = call.start) {u' : BoardUpdate} (hphase : u'.phase = call.goal) :
      Goes call u cycles (.ok ()) u'

theorem goes_job (hb : b.Fits) (call : Call) (hu : u.board = b)
    {out : Outcome StepFailure Unit} (h : call.job.Ends u cycles out u') :
    call.Goes u cycles out u' := by
  by_cases hstart : u.phase = call.start
  · rcases (leads_job hb call hu hstart h).2 with ⟨rfl, hphase⟩ | ⟨step, hstep, cause, rfl, hphase⟩
    · exact .done hstart hphase
    · have hslot : b.slot = u.slot := congrArg Board.slot hu.symm
      exact .failed hstart hslot hstep hphase
  · obtain ⟨hcycles, rfl, rfl⟩ := refuses_job call hstart h
    exact .refused hstart hcycles

/-! ## Calls in a row -/

section Bus

variable {σ : Type} [Bus σ]

def afterCalls : List Call → BoardUpdate → σ → BoardUpdate × σ
  | [], u, s => (u, s)
  | call :: rest, u, s =>
    let ((_, u'), s') := (call.job u).run Bus.handler s
    afterCalls rest u' s'

theorem board_afterCalls (hb : b.Fits) (calls : List Call) (hu : u.board = b) (s : σ) :
    (afterCalls calls u s).1.board = b := by
  induction calls generalizing u s with
  | nil => exact hu
  | cons call rest ih =>
      apply ih
      exact board_after_call hb call hu (Routine.ends_run call.job u s)

theorem run_job_refused (call : Call) (hne : u.phase ≠ call.start) (s : σ) :
    Exchange.cycles (call.job u) s = [] ∧
      (call.job u).run Bus.handler s = ((.failed (u.refusal call.step), u), s) := by
  obtain ⟨hcycles, hout, hu'⟩ := refuses_job call hne (Routine.ends_run call.job u s)
  have hbus := Exchange.run_eq_of_cycles_eq_nil hcycles
  exact ⟨hcycles, Prod.ext (Prod.ext hout hu') hbus⟩

theorem run_job_failed {failure : StepFailure} (hfailed : u.phase = .failed failure) (call : Call)
    (s : σ) :
    Exchange.cycles (call.job u) s = [] ∧
      (call.job u).run Bus.handler s = ((.failed failure, u), s) := by
  have hne : u.phase ≠ call.start := by
    rw [hfailed]
    exact (call.start_ne_failed failure).symm
  have hrefusal : u.refusal call.step = failure := by
    rw [refusal, failure?, hfailed]
    rfl
  rw [← hrefusal]
  exact run_job_refused call hne s

theorem afterCalls_failed {failure : StepFailure} (hfailed : u.phase = .failed failure)
    (calls : List Call) (s : σ) : afterCalls calls u s = (u, s) := by
  induction calls with
  | nil => rfl
  | cons call rest ih =>
      rw [afterCalls, (run_job_failed hfailed call s).2]
      exact ih

theorem history_failed {failure : StepFailure} (hfailed : u.phase = .failed failure)
    (calls : List Call) (s : σ) :
    history calls u s = calls.map fun call => ⟨call, [], .failed failure⟩ := by
  induction calls with
  | nil => rfl
  | cons call rest ih =>
      obtain ⟨hcycles, hrun⟩ := run_job_failed hfailed call s
      rw [history, hcycles, hrun, List.map_cons]
      exact congrArg _ ih

/-- A whole update comes to the same as its calls one after the other, up to the first failure. -/
theorem agree_run_parts (hb : b.Fits) (file : Image) :
    Agree σ b (run file) (inTurn ((Call.parts file).map Call.job)) := by
  intro u s hu
  rw [agree_stages hb file u s hu]
  have htick := Exchange.isSilent_tick
  have hreport := Exchange.isSilent_report
  have hsame : Job.SameRuns σ (inTurn (stages file))
      (inTurn ((Call.parts file).map Call.job)) := by
    simp only [stages, refill, Call.parts, List.map_cons, List.map_nil, inTurn, bind_assoc]
    refine .bind (.refl _) fun _ => .bind (sameRuns_announced _ fun _ => .refl _) fun _ => ?_
    refine .bind (.refl _) fun _ => ?_
    refine .bind (sameRuns_announced _ fun e => sameRuns_awaitErase (hreport e) htick) fun _ => ?_
    refine .bind (sameRuns_announced _ fun e => sameRuns_program (hreport e) htick _) fun _ => ?_
    refine .bind (sameRuns_announced _ fun e => sameRuns_download (hreport e) htick _) fun _ => ?_
    refine .bind (sameRuns_announced _ fun e => sameRuns_verify (hreport e) htick _) fun _ => ?_
    refine .bind (.refl _) fun _ => ?_
    exact .bind (sameRuns_announced _ fun e => sameRuns_awaitReboot (hreport e) htick) fun _ =>
      .refl _
  exact hsame u s

/-- Whatever calls were made before and whatever the bus answered: a call takes place in its own
phase only, from where it leads on or fails at one of its own steps, and it is refused without a
bus cycle in any other. A whole update is its single calls in turn. Behind a failure, all calls
there may be give back that one failure. -/
theorem calls_go_forward (hb : b.Fits) (budgets : Budgets) (timing : Timing)
    (earlier : List Call) (s : σ) :
    let u := (afterCalls earlier (.new b budgets timing) s).1
    let s₁ := (afterCalls earlier (.new b budgets timing) s).2
    (∀ call : Call, ∃ out u' s',
      (call.job u).run Bus.handler s₁ = ((out, u'), s') ∧
        call.Goes u (Exchange.cycles (call.job u) s₁) out u' ∧
        (u.phase ≠ call.start → s' = s₁)) ∧
      (∀ file, (run file u).run Bus.handler s₁ =
        (inTurn ((Call.parts file).map Call.job) u).run Bus.handler s₁) ∧
      (∀ failure, u.failure? = some failure ↔ u.phase = .failed failure) ∧
      ∀ failure, u.failure? = some failure → ∀ later,
        afterCalls later u s₁ = (u, s₁) ∧
          history later u s₁ = later.map fun call => ⟨call, [], .failed failure⟩ := by
  intro u s₁
  have hu : u.board = b := board_afterCalls hb earlier rfl s
  refine ⟨fun call => ?_, fun file => agree_run_parts hb file u s₁ hu, ?_, ?_⟩
  · refine ⟨_, _, _, rfl, goes_job hb call hu (Routine.ends_run call.job u s₁), fun hne => ?_⟩
    rw [(run_job_refused call hne s₁).2]
  · exact fun failure => Phase.failure?_eq_some_iff
  · intro failure hfailed later
    have hphase := Phase.failure?_eq_some_iff.mp hfailed
    exact ⟨afterCalls_failed hphase later s₁, history_failed hphase later s₁⟩

/-- On a bus where every register reads as zero the engine is never ready: the wait for it fails,
and everything asked for behind that fails in the same way. -/
theorem calls_go_forward_never_ready :
    let b := Board.geographic .first
    let failure : StepFailure := ⟨.first, .init, .readyTimeout 3⟩
    let u := (afterCalls [.startErase, .reset, .waitReady]
      (.new b { readyTries := 3 } .immediate) (SteadyBus.mk 0)).1
    b.Fits ∧ u.failure? = some failure ∧
      history [.reset, .verify {}, .run {}] u (SteadyBus.mk 0) =
        [⟨.reset, [], .failed failure⟩, ⟨.verify {}, [], .failed failure⟩,
          ⟨.run {}, [], .failed failure⟩] :=
  ⟨by decide, by decide +kernel,
    ((calls_go_forward (by decide) _ .immediate _ (SteadyBus.mk 0)).2.2.2 _
      (by decide +kernel) [.reset, .verify {}, .run {}]).2⟩

end Bus
end BoardUpdate
end Reflash
