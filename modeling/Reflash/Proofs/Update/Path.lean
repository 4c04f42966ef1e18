import Reflash.Proofs.Update.Course
/-!
# The path of an update

What must have happened on the bus before an update can be in its phase, no matter in which order
its steps were asked for. Up to the reboot the phase determines the whole sequence of cycles but
for the values that were read and how long each wait took.
-/

namespace Reflash

namespace Board

def readied (b : Board) : Language Access := b.resetPulse * (b.readyPolls * b.identified)

def erased (b : Board) : Language Access := b.readied * b.eraseStarted * b.writeOver

def imageProgrammed (b : Board) : Language Access := {t | ∃ words, t ∈ b.programmed words}

def readBack (b : Board) (words : List UInt32) : Language Access :=
  b.erased * b.imageProgrammed * b.wordsRead 0 words

end Board

/-- The most requests to reboot that an update has made in a phase. -/
def Phase.reboots : Phase → Nat
  | .rebooting | .rebooted | .failed _ => 1
  | _ => 0

namespace BoardUpdate

variable {b : Board} {checked : Image → Prop} {u u' : BoardUpdate} {before cycles : List Access}
  {onTick : Exchange Unit}

/-- The cycles that can have led to where the update is, if `checked` holds of the images that have
been compared with what was read back and found equal. -/
def path (b : Board) (checked : Image → Prop) (u : BoardUpdate) : Language Access :=
  match u.phase with
  | .init => 1
  | .reset => b.resetPulse
  | .ready => b.readied
  | .erasing => b.readied * b.eraseStarted
  | .erased => b.erased
  | .programmed => b.erased * b.imageProgrammed
  | .downloaded => {t | ∃ words, u.readback.contents? = some words ∧ t ∈ b.readBack words}
  | .verified =>
    {t | ∃ file words, checked file ∧ file.contents? = some words ∧ t ∈ b.readBack words}
  | .rebooting | .rebooted | .failed _ => {_t | True}

/-- The update has come along its path, and asked for at most one reboot. -/
structure Tracks (b : Board) (checked : Image → Prop) (u : BoardUpdate)
    (cycles : List Access) : Prop where
  board_eq : u.board = b
  mem_path : cycles ∈ u.path b checked
  countP_reboots : cycles.countP b.reboots ≤ u.phase.reboots

theorem tracks_new (budgets : Budgets) (timing : Timing) :
    Tracks b checked (.new b budgets timing) [] :=
  ⟨rfl, rfl, Nat.le_refl 0⟩

theorem Tracks.countP_le_one (h : Tracks b checked u cycles) : cycles.countP b.reboots ≤ 1 := by
  have hphase : u.phase.reboots ≤ 1 := by
    cases u.phase <;> simp [Phase.reboots]
  exact Nat.le_trans h.countP_reboots hphase

theorem Tracks.of_reboots (hu : u.board = b) (hphase : u.phase.reboots = 1)
    (hcount : cycles.countP b.reboots ≤ 1) : Tracks b checked u cycles := by
  refine ⟨hu, ?_, by rwa [hphase]⟩
  unfold path
  split
  case h_9 | h_10 | h_11 => trivial
  all_goals
    next hearly =>
      rw [hearly] at hphase
      cases hphase

theorem Tracks.mono {checked' : Image → Prop} (h : Tracks b checked u cycles)
    (hchecked : ∀ file, checked file → checked' file) : Tracks b checked' u cycles := by
  refine ⟨h.board_eq, ?_, h.countP_reboots⟩
  have hpath := h.mem_path
  unfold path at hpath ⊢
  split at hpath
  next => exact hpath
  next => exact hpath
  next => exact hpath
  next => exact hpath
  next => exact hpath
  next => exact hpath
  next => exact hpath
  next =>
    obtain ⟨file, words, hfile, hread⟩ := hpath
    exact ⟨file, words, hchecked file hfile, hread⟩
  all_goals trivial

theorem countP_reboots_eq_zero {σ ε α : Type} {holds : σ → Prop} {job : Job σ ε α} {s s' : σ}
    {out : Outcome ε α} (hjob : job.Keeps b.Updates holds) (hs : holds s)
    (h : job.Ends s cycles out s') : cycles.countP b.reboots = 0 := by
  apply List.countP_eq_zero.mpr
  intro cycle hcycle
  obtain ⟨request, answer, hrequest, hof⟩ := hjob.mem_cycles hs h hcycle
  rw [hrequest.reboots_eq_false hof]
  exact Bool.false_ne_true

/-- Whatever the job does and however it ends, the update stays on its path. -/
def Tracked (b : Board) (checked : Image → Prop) (job : UpdateJob Unit) : Prop :=
  ∀ ⦃u before cycles out u'⦄, Tracks b checked u before → job.Ends u cycles out u' →
    Tracks b checked u' (before ++ cycles)

theorem Tracked.bind {job job' : UpdateJob Unit} (h : Tracked b checked job)
    (h' : Tracked b checked job') : Tracked b checked (job >>= fun _ => job') := by
  intro u before cycles out u' hu hends
  obtain ⟨first, _, u₁, second, rfl, hfirst, hsecond⟩ | ⟨e, -, hfirst⟩ | ⟨-, hfirst⟩ :=
    Routine.ends_bind.mp hends
  · rw [← List.append_assoc]
    exact h' (h hu hfirst) hsecond
  · exact h hu hfirst
  · exact h hu hfirst

theorem Tracked.announced {step : Step} {body : Exchange Unit → UpdateJob Unit}
    (h : ∀ e, Tracked b checked (body (Exchange.report e))) :
    Tracked b checked (announced step body) :=
  fun _ _ _ _ _ hu hends => h _ hu (ends_announced hends)

/-- A step that does not reboot stays on the path if its own work leads along it. -/
theorem Tracks.of_goes {checked' : Image → Prop} {job : UpdateJob Unit} {start next : Phase}
    {step : Step} {made : List Access → BoardUpdate → Prop} {out : Outcome StepFailure Unit}
    (hu : Tracks b checked u before) (hchecked : ∀ file, checked file → checked' file)
    (hkeeps : job.Keeps b.Updates fun u => u.board = b) (hends : job.Ends u cycles out u')
    (hgoes : Goes start next step made u cycles out u') (hreboots : start.reboots ≤ next.reboots)
    (hpath : out = .ok () → u.phase = start → u'.phase = next → before ∈ u.path b checked →
      made cycles u' → before ++ cycles ∈ u'.path b checked') :
    Tracks b checked' u' (before ++ cycles) := by
  have hboard : u'.board = b := (hkeeps.of_ends hu.board_eq hends).1
  have hquiet := countP_reboots_eq_zero hkeeps hu.board_eq hends
  cases hgoes with
  | refused _ hcycles =>
      rw [hcycles, List.append_nil]
      exact hu.mono hchecked
  | failed _ cause hphase =>
      refine ⟨hboard, ?_, ?_⟩
      · rw [path, hphase]
        trivial
      · rw [List.countP_append, hquiet, hphase]
        exact hu.countP_le_one
  | done hstart hphase hmade =>
      refine ⟨hboard, hpath rfl hstart hphase hu.mem_path hmade, ?_⟩
      rw [List.countP_append, hquiet, hphase]
      exact Nat.le_trans hu.countP_reboots (hstart ▸ hreboots)

theorem Tracked.of_goes {job : UpdateJob Unit} {start next : Phase} {step : Step}
    {made : List Access → BoardUpdate → Prop}
    (hkeeps : job.Keeps b.Updates fun u => u.board = b)
    (hgoes : ∀ {u cycles out u'}, u.board = b → job.Ends u cycles out u' →
      Goes start next step made u cycles out u')
    (hreboots : start.reboots ≤ next.reboots)
    (hpath : ∀ {u u' : BoardUpdate} {before cycles : List Access}, u.phase = start →
      u'.phase = next → before ∈ u.path b checked → made cycles u' →
      before ++ cycles ∈ u'.path b checked) :
    Tracked b checked job :=
  fun _ _ _ _ _ hu hends =>
    hu.of_goes (fun _ => id) hkeeps hends (hgoes hu.board_eq hends) hreboots fun _ => hpath

/-! ## The steps -/

section Steps

variable (hb : b.Fits)
include hb

theorem tracked_reset : Tracked b checked reset := by
  refine .of_goes (keeps_reset hb) (goes_reset hb) (Nat.le_refl 0) ?_
  intro u u' before cycles hstart hnext hbefore hmade
  rw [path, hstart] at hbefore
  rw [path, hnext]
  obtain rfl : before = [] := hbefore
  exact hmade

theorem tracked_waitReady : Tracked b checked waitReady := by
  refine .of_goes (keeps_waitReady hb) (goes_waitReady hb) (Nat.le_refl 0) ?_
  intro u u' before cycles hstart hnext hbefore hmade
  rw [path, hstart] at hbefore
  rw [path, hnext]
  exact Language.append_mem_mul hbefore hmade

theorem tracked_startErase : Tracked b checked startErase := by
  refine .of_goes (keeps_startErase hb) (goes_startErase hb) (Nat.le_refl 0) ?_
  intro u u' before cycles hstart hnext hbefore hmade
  rw [path, hstart] at hbefore
  rw [path, hnext]
  exact Language.append_mem_mul hbefore hmade

theorem tracked_awaitErase (hticks : onTick.IsSilent) : Tracked b checked (awaitErase onTick) := by
  refine .of_goes (keeps_awaitErase hb hticks) (goes_awaitErase hb hticks) (Nat.le_refl 0) ?_
  intro u u' before cycles hstart hnext hbefore hmade
  rw [path, hstart] at hbefore
  rw [path, hnext]
  exact Language.append_mem_mul hbefore hmade

theorem tracked_program (hticks : onTick.IsSilent) (file : Image) :
    Tracked b checked (program file onTick) := by
  refine .of_goes (keeps_program hb hticks file) (goes_program hb hticks) (Nat.le_refl 0) ?_
  intro u u' before cycles hstart hnext hbefore hmade
  obtain ⟨words, -, hwords⟩ := hmade
  rw [path, hstart] at hbefore
  rw [path, hnext]
  exact Language.append_mem_mul hbefore ⟨words, hwords⟩

theorem tracked_download (hticks : onTick.IsSilent) (sizeBytes : Nat) :
    Tracked b checked (download sizeBytes onTick) := by
  refine .of_goes (keeps_download hb hticks sizeBytes) (goes_download hb hticks) (Nat.le_refl 0) ?_
  intro u u' before cycles hstart hnext hbefore hmade
  obtain ⟨words, hreadback, -, hwords⟩ := hmade
  rw [path, hstart] at hbefore
  rw [path, hnext]
  exact ⟨words, hreadback, Language.append_mem_mul hbefore hwords⟩

theorem tracked_startReboot : Tracked b checked startReboot := by
  intro u before cycles out u' hu h
  obtain ⟨-, rfl, -, rfl⟩ | ⟨hverified, rfl, -, rfl⟩ := ends_startReboot hb hu.board_eq h
  · rw [List.append_nil]
    exact hu
  · refine .of_reboots hu.board_eq rfl ?_
    have hnone : before.countP b.reboots ≤ Phase.verified.reboots := hverified ▸ hu.countP_reboots
    have hzero : Phase.verified.reboots = 0 := rfl
    rw [List.countP_append, List.countP_cons, List.countP_nil]
    split <;> omega

theorem tracked_awaitReboot (hticks : onTick.IsSilent) :
    Tracked b checked (awaitReboot onTick) := by
  refine .of_goes (keeps_awaitReboot hb hticks) (goes_awaitReboot hb hticks) (Nat.le_refl 1) ?_
  intro u u' before cycles _ hnext _ _
  rw [path, hnext]
  trivial

end Steps

theorem tracks_verify (hticks : onTick.IsSilent) {file : Image} {out : Outcome StepFailure Unit}
    (hu : Tracks b checked u before) (h : (verify file onTick).Ends u cycles out u') :
    Tracks b (fun image => checked image ∨ image = file ∧ out = .ok ()) u' (before ++ cycles) := by
  refine hu.of_goes (fun _ => .inl) (keeps_verify hticks file) h
    (goes_verify hticks hu.board_eq h) (Nat.le_refl 0) ?_
  intro hok hstart hnext hbefore hmade
  obtain ⟨rfl, -, words, hwords, hreadback⟩ := hmade
  rw [path, hstart] at hbefore
  obtain ⟨words', hreadback', hread⟩ := hbefore
  obtain rfl : words = words' := Option.some.inj (hreadback.symm.trans hreadback')
  rw [path, hnext, List.append_nil]
  exact ⟨file, words, .inr ⟨rfl, hok⟩, hwords, hread⟩

/-! ## Whole updates -/

section Run

variable (hb : b.Fits)
include hb

theorem tracked_wipe : Tracked b checked wipe := by
  refine .bind (.announced fun e => ?_) (.announced fun e => ?_)
  · exact .bind (tracked_reset hb) (tracked_waitReady hb)
  · exact .bind (tracked_startErase hb) (tracked_awaitErase hb (Exchange.isSilent_report e))

theorem tracked_refill {file : Image} (hfile : checked file) :
    Tracked b checked (refill file) := by
  refine .bind (.announced fun e => ?_) (.bind (.announced fun e => ?_) (.announced fun e => ?_))
  all_goals have hticks := Exchange.isSilent_report e
  · exact tracked_program hb hticks file
  · exact tracked_download hb hticks file.sizeBytes
  · intro u before cycles out u' hu h
    refine (tracks_verify hticks hu h).mono ?_
    rintro image (himage | ⟨rfl, -⟩)
    · exact himage
    · exact hfile

theorem tracked_prepare {file : Image} (hfile : checked file) :
    Tracked b checked (prepare file) :=
  .bind (tracked_wipe hb) (tracked_refill hb hfile)

/-- A whole update that got past the erase had not begun before. -/
theorem phase_of_ends_wipe (hu : u.board = b) (h : wipe.Ends u cycles (.ok ()) u') :
    u.phase = .init := by
  obtain ⟨_, _, _, _, -, hinit, -⟩ := Routine.ends_bind_ok.mp h
  obtain ⟨_, _, _, _, -, hreset, -⟩ := Routine.ends_bind_ok.mp (ends_announced hinit)
  cases goes_reset hb hu hreset with
  | done hstart => exact hstart

/-- From a verified update on, the first cycle is the request to reboot, and the only one. -/
theorem ends_restart (hu : u.board = b) (hphase : u.phase = .verified)
    {out : Outcome StepFailure Unit} (h : restart.Ends u cycles out u') :
    ∃ after, cycles = .write (b.base + Register.command) Control.reboot :: after ∧
      after.countP b.reboots = 0 := by
  obtain ⟨first, _, u₁, second, rfl, hstart, hawait⟩ | ⟨_, -, hstart⟩ | ⟨-, hstart⟩ :=
    Routine.ends_bind.mp (ends_announced h)
  · obtain ⟨hne, -⟩ | ⟨-, rfl, -, rfl⟩ := ends_startReboot hb hu hstart
    · exact absurd hphase hne
    · have hticks := Exchange.isSilent_report (.ticked u.slot .reboot)
      have hboard : ({ u with phase := .rebooting } : BoardUpdate).board = b := hu
      exact ⟨second, rfl, countP_reboots_eq_zero (keeps_awaitReboot hb hticks) hboard hawait⟩
  all_goals
    obtain ⟨hne, -⟩ | ⟨-, -, habsurd, -⟩ := ends_startReboot hb hu hstart
    · exact absurd hphase hne
    · cases habsurd

theorem tracks_prepare_ok {file : Image} (hu : Tracks b checked u before)
    (h : (prepare file).Ends u cycles (.ok ()) u') :
    before = [] ∧ u'.phase = .verified ∧ Tracks b (· = file) u' cycles := by
  obtain ⟨_, _, _, _, -, hwipe, -⟩ := Routine.ends_bind_ok.mp h
  have hinit := phase_of_ends_wipe hb hu.board_eq hwipe
  have hpath := hu.mem_path
  rw [path, hinit] at hpath
  have hfresh : Tracks b (· = file) u [] := by
    refine ⟨hu.board_eq, ?_, Nat.zero_le _⟩
    rw [path, hinit]
    rfl
  obtain ⟨-, ⟨-, hverified⟩ | ⟨_, -, _, habsurd, -⟩⟩ :=
    leads_prepare hb (fun step _ => step.mem_all) file hu.board_eq hinit h
  · have htracked : Tracked b (· = file) (prepare file) := tracked_prepare hb rfl
    exact ⟨hpath, hverified, htracked hfresh h⟩
  · cases habsurd

theorem tracks_prepare_of_ne_ok {file : Image} {out : Outcome StepFailure Unit}
    (hu : Tracks b checked u before) (h : (prepare file).Ends u cycles out u')
    (hout : out ≠ .ok ()) : Tracks b checked u' (before ++ cycles) := by
  have hquiet := countP_reboots_eq_zero (keeps_prepare hb file) hu.board_eq h
  obtain ⟨_, _, _, _, -, hwipe, -⟩ | ⟨_, -, hwipe⟩ | ⟨-, hwipe⟩ := Routine.ends_bind.mp h
  · -- only a comparison that passes adds to what is checked, and nothing comes after it
    have hinit := phase_of_ends_wipe hb hu.board_eq hwipe
    obtain ⟨hboard, ⟨hok, -⟩ | ⟨_, -, _, -, hfailed⟩⟩ :=
      leads_prepare hb (fun step _ => step.mem_all) file hu.board_eq hinit h
    · exact absurd hok hout
    · refine .of_reboots hboard (by rw [hfailed]; rfl) ?_
      rw [List.countP_append, hquiet]
      exact hu.countP_le_one
  · exact tracked_wipe hb hu hwipe
  · exact tracked_wipe hb hu hwipe

/-- A whole update either asks for no reboot, or it began from scratch, read back the words of its
own image and asked for the reboot with the next cycle. -/
theorem ends_run {file : Image} {out : Outcome StepFailure Unit}
    (hu : Tracks b checked u before) (h : (run file).Ends u cycles out u') :
    Tracks b checked u' (before ++ cycles) ∧
      (cycles.countP b.reboots = 0 ∨
        before = [] ∧ (out = .ok () ∨ ∃ cause, out = .failed ⟨b.slot, .reboot, cause⟩) ∧
          ∃ words made after, file.contents? = some words ∧ made ∈ b.readBack words ∧
            cycles = made ++ .write (b.base + Register.command) Control.reboot :: after ∧
            made.countP b.reboots = 0 ∧ after.countP b.reboots = 0) := by
  have hsteps := ends_runSteps_of_run h
  rw [runSteps_eq] at hsteps
  obtain ⟨made, _, u₁, _, rfl, hprepare, hrestart⟩ | ⟨_, rfl, hprepare⟩ | ⟨rfl, hprepare⟩ :=
    Routine.ends_bind.mp hsteps
  · have hquiet := countP_reboots_eq_zero (keeps_prepare hb file) hu.board_eq hprepare
    obtain ⟨rfl, hverified, htracks⟩ := tracks_prepare_ok hb hu hprepare
    obtain ⟨after, rfl, hafter⟩ := ends_restart hb htracks.board_eq hverified hrestart
    have hlead : Leads b .verified .rebooted [.reboot] restart :=
      leads_restart hb (List.mem_singleton_self _)
    obtain ⟨hboard, hend⟩ := hlead htracks.board_eq hverified hrestart
    have hread := htracks.mem_path
    rw [path, hverified] at hread
    obtain ⟨image, words, rfl, hwords, hmade⟩ := hread
    have hone : (made ++ .write (b.base + Register.command) Control.reboot :: after).countP
        b.reboots ≤ 1 := by
      rw [List.countP_append, hquiet, List.countP_cons, hafter]
      split <;> omega
    obtain ⟨rfl, hphase⟩ | ⟨step, hstep, cause, rfl, hphase⟩ := hend
    · refine ⟨.of_reboots hboard (by rw [hphase]; rfl) hone, .inr ⟨rfl, .inl rfl, ?_⟩⟩
      exact ⟨words, made, after, hwords, hmade, rfl, hquiet, hafter⟩
    · obtain rfl := List.mem_singleton.mp hstep
      refine ⟨.of_reboots hboard (by rw [hphase]; rfl) hone, .inr ⟨rfl, .inr ⟨cause, rfl⟩, ?_⟩⟩
      exact ⟨words, made, after, hwords, hmade, rfl, hquiet, hafter⟩
  -- Otherwise the update does not get to the reboot.
  all_goals
    have hquiet := countP_reboots_eq_zero (keeps_prepare hb file) hu.board_eq hprepare
    exact ⟨tracks_prepare_of_ne_ok hb hu hprepare nofun, .inl hquiet⟩

end Run
end BoardUpdate
end Reflash
