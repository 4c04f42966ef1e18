import Reflash.Proofs.Progress.Groups
import Reflash.Proofs.Rom.Reports
import Reflash.Proofs.Update.Conduct
/-!
# Brackets of a board's update

Each step of an update that is announced is told as one group, and its failure closes the group. A
job that is not announced tells nothing before it fails. So whatever the board does, what is told of
its update is one group behind the other, apart from the lines of a failure that is in no group.
-/

namespace Reflash.BoardUpdate

variable {α β : Type} {b : Board} {budgets : Budgets} {step : Step} {often often' : Nat → Prop}
  {words : Nat} {u : BoardUpdate}

structure IsLive (b : Board) (budgets : Budgets) (u : BoardUpdate) : Prop where
  rom : u.rom.IsOf b budgets
  live : u.failure? = none

theorem IsLive.board_eq (h : IsLive b budgets u) : u.board = b := h.rom.board_eq

theorem IsLive.slot_eq (h : IsLive b budgets u) : u.slot = b.slot := congrArg Board.slot h.board_eq

theorem IsLive.moved (h : IsLive b budgets u) {next : Phase} (hnext : next.failure? = none) :
    IsLive b budgets { u with phase := next } := ⟨h.rom, hnext⟩

/-! ## The work of a step -/

/-- On an update that has not failed, the job tells ticks of the step, as often as `often` says if
it succeeds and as often as `often'` says if it fails, and reports nothing else. Its failure is one
of the step. -/
def Ticks (b : Board) (budgets : Budgets) (step : Step) (often often' : Nat → Prop)
    (job : UpdateJob α) : Prop :=
  ∀ u, IsLive b budgets u → job.Reports u
    (fun events _ u' => Told (.ticked b.slot step) often events ∧ IsLive b budgets u')
    fun events f u' => Told (.ticked b.slot step) often' events ∧
      (f.slot = b.slot ∧ f.step = step) ∧ u'.rom.IsOf b budgets

theorem Ticks.mono {more more' : Nat → Prop} {job : UpdateJob α}
    (h : Ticks b budgets step often often' job) (hmore : ∀ n, often n → more n)
    (hmore' : ∀ n, often' n → more' n) : Ticks b budgets step more more' job :=
  fun u hu => (h u hu).mono (fun _ _ _ h => ⟨h.1.mono hmore, h.2⟩) fun _ _ _ h =>
    ⟨h.1.mono hmore', h.2⟩

theorem ticks_require_bind {start : Phase} {job : Unit → UpdateJob α}
    (h : Ticks b budgets step often often' (job ())) (hnone : often' 0) :
    Ticks b budgets step often often' (require start step >>= job) := by
  intro u hu
  have hrequire : (require start step).Reports u (fun events _ u' => events = [] ∧ u' = u)
      fun events f u' => Told (.ticked b.slot step) often' events ∧
        (f.slot = b.slot ∧ f.step = step) ∧ u'.rom.IsOf b budgets := by
    refine .get_bind ?_
    rw [hu.live]
    dsimp only
    split
    · exact .fail ⟨told_nil hnone, ⟨hu.slot_eq, rfl⟩, hu.rom⟩
    · exact .pure ⟨rfl, rfl⟩
  refine hrequire.bind ?_
  rintro _ _ _ ⟨rfl, rfl⟩
  exact h _ hu

theorem ticks_conclude {next : Phase} (hnext : next.failure? = none)
    {work : Job BoardUpdate RomError α}
    (hwork : work.Counts (.ticked b.slot step) (IsLive b budgets) often often') :
    Ticks b budgets step often often' (conclude step next work) := by
  intro u hu
  refine .get_bind (.attempt_bind (hwork u hu) ?_ ?_)
  · rintro events value u' ⟨htold, hu'⟩
    rw [← List.append_nil events] at htold
    exact .remark_bind (.modify_bind (.pure ⟨htold, hu'.moved hnext⟩))
  · rintro events cause u' ⟨htold, hu'⟩
    rw [← List.append_nil events] at htold
    exact .remark_bind (.modify_bind (.fail ⟨htold, ⟨hu.slot_eq, rfl⟩, hu'.rom⟩))

theorem Ticks.bind_done {job : UpdateJob α} {f : α → UpdateJob β}
    (h : Ticks b budgets step often often' job)
    (hf : ∀ a u, (f a).Reports u (fun events _ u' => events = [] ∧ u' = u) fun _ _ _ => False) :
    Ticks b budgets step often often' (job >>= f) := by
  refine fun u hu => (h u hu).bind ?_
  rintro events a u' ⟨htold, hu'⟩
  rw [← List.append_nil events] at htold
  refine (hf a u').mono ?_ fun _ _ _ => False.elim
  rintro _ _ _ ⟨rfl, rfl⟩
  exact ⟨htold, hu'⟩

theorem Ticks.zero_bind {job : UpdateJob α} {f : α → UpdateJob β}
    (h : Ticks b budgets step (· = 0) (· = 0) job)
    (hf : ∀ a, Ticks b budgets step often often' (f a)) (hnone : often' 0) :
    Ticks b budgets step often often' (job >>= f) := by
  intro u hu
  refine Routine.Reports.bind ((h u hu).mono_failed ?_) ?_
  · exact fun _ _ _ h => ⟨h.1.mono fun n hn => hn ▸ hnone, h.2⟩
  · rintro _ a u' ⟨⟨_, rfl, rfl⟩, hu'⟩
    exact hf a u' hu'

/-! ## The steps -/

theorem counts_onRom {e : Event} {work : RomJob α}
    (hwork : work.Counts e (RomSession.IsOf b budgets) often often') :
    (onRom work).Counts e (IsLive b budgets) often often' :=
  hwork.within (fun _ hu => hu.rom) fun _ _ hu hs => ⟨hs, hu.live⟩

section Steps

variable (hb : b.Fits)
include hb

theorem ticks_pulse {start next : Phase} {offset : UInt32}
    (hoffset : offset ≤ Register.engineStatus) (value : UInt32) (settle : Timing → Nat)
    (hnext : next.failure? = none) :
    Ticks b budgets step (· = 0) (· = 0) (do
      require start step
      let u ← Routine.get
      u.board.write offset value
      Job.pause (settle u.rom.timing)
      moveTo next) := by
  refine ticks_require_bind (fun u hu => .get_bind ?_) rfl
  rw [hu.board_eq]
  refine Board.reports_write_bind hb hoffset (.pause_bind (.modify ?_))
  exact ⟨told_nil rfl, hu.moved hnext⟩

theorem ticks_reset : Ticks b budgets .init (· = 0) (· = 0) reset :=
  ticks_pulse hb (by decide) _ Timing.resetSettle rfl

theorem ticks_waitReady : Ticks b budgets .init (· = 0) (· = 0) waitReady := by
  refine ticks_require_bind (.bind_done (ticks_conclude rfl (counts_onRom ?_)) ?_) rfl
  · exact .mute (RomSession.mute_identify hb) rfl rfl
  · exact fun id u => .get_bind (.remark_bind (.pure ⟨rfl, rfl⟩))

theorem ticks_startErase : Ticks b budgets .erase (· = 0) (· = 0) startErase :=
  ticks_require_bind
    (ticks_conclude rfl (counts_onRom (.mute (RomSession.mute_startErase hb) rfl rfl))) rfl

theorem ticks_awaitErase :
    Ticks b budgets .erase (· ≤ budgets.eraseTries) (· ≤ budgets.eraseTries)
      (awaitErase (Exchange.report (.ticked b.slot .erase))) := by
  refine ticks_require_bind (.bind_done (ticks_conclude rfl (counts_onRom ?_)) ?_) (Nat.zero_le _)
  · exact RomSession.counts_awaitErase hb _
  · exact fun polls u => .pure ⟨rfl, rfl⟩

theorem ticks_program (file : Image) :
    Ticks b budgets .program (fun n => n = file.wordCount ∧ n < UInt32.size) (· < UInt32.size)
      (program file (Exchange.report (.ticked b.slot .program))) :=
  ticks_require_bind
    (ticks_conclude rfl (counts_onRom (RomSession.counts_program hb _ file))) (by decide)

theorem ticks_download (sizeBytes : Nat) :
    Ticks b budgets .download (fun n => n = sizeBytes / Rom.wordBytes ∧ n < UInt32.size)
      (· < UInt32.size) (download sizeBytes (Exchange.report (.ticked b.slot .download))) := by
  refine ticks_require_bind (ticks_conclude rfl ?_) (by decide)
  exact (RomSession.counts_download hb _ sizeBytes).within (fun _ hu => hu.rom) fun _ _ hu hp =>
    ⟨hp, hu.live⟩

omit hb in
theorem ticks_verify (file : Image) :
    Ticks b budgets .verify (· = file.wordCount) (· ≤ file.wordCount)
      (verify file (Exchange.report (.ticked b.slot .verify))) :=
  ticks_require_bind
    (fun u hu => .get_bind (ticks_conclude rfl (Image.counts_compare _ file u.readback) u hu))
    (Nat.zero_le _)

theorem ticks_startReboot : Ticks b budgets .reboot (· = 0) (· = 0) startReboot :=
  ticks_pulse hb (by decide) _ Timing.rebootSettle rfl

theorem counts_pollVersion {holds : BoardUpdate → Prop} (e : Event) (interval tries left : Nat) :
    (pollVersion (Exchange.report e) b interval tries left).Counts e holds (· ≤ left)
      (· ≤ left) := by
  induction left with
  | zero => exact .fail (Nat.le_refl 0)
  | succ left ih =>
      refine .mute_bind (Board.keeps_probe hb (by decide) trivial trivial)
        (fun version? => .ite (fun _ => ?_) fun _ => ?_) (Nat.zero_le _)
      · exact .report_bind (.mute_bind (Job.keeps_pause trivial) (fun _ => ih) (Nat.zero_le left))
          (fun _ => Nat.succ_le_succ) fun _ => Nat.succ_le_succ
      · exact .mute (Job.keeps_remark trivial) (Nat.zero_le _) (Nat.zero_le _)

theorem ticks_awaitReboot :
    Ticks b budgets .reboot (· ≤ budgets.rebootTries) (· ≤ budgets.rebootTries)
      (awaitReboot (Exchange.report (.ticked b.slot .reboot))) := by
  refine ticks_require_bind (fun u hu => .get_bind (ticks_conclude rfl ?_ u hu)) (Nat.zero_le _)
  rw [hu.rom.board_eq, hu.rom.budgets_eq]
  exact counts_pollVersion hb _ _ _ _

end Steps

/-! ## Groups -/

/-- What the job tells of an update that has not failed is in brackets. If it fails, it is once the
failure has been told, too. Only a job of which the fact is known succeeds. -/
def Brackets (b : Board) (budgets : Budgets) (words : Nat) (fact : Prop) (job : UpdateJob Unit) :
    Prop :=
  ∀ u, IsLive b budgets u → job.Reports u
    (fun events _ u' => IsBracketed words events ∧ IsLive b budgets u' ∧ fact)
    fun events f u' => IsBracketed words (events ++ f.events) ∧ u'.rom.IsOf b budgets

theorem Brackets.bind {fact fact' : Prop} {job : UpdateJob Unit} {f : Unit → UpdateJob Unit}
    (h : Brackets b budgets words fact job)
    (hf : fact → Brackets b budgets words fact' (f ())) :
    Brackets b budgets words fact' (job >>= f) := by
  refine fun u hu => (h u hu).bind ?_
  rintro events ⟨⟩ u' ⟨hevents, hu', hfact⟩
  refine (hf hfact u' hu').mono ?_ ?_
  · exact fun more _ u'' h => ⟨hevents.append h.1, h.2⟩
  · intro more f u'' h
    rw [List.append_assoc]
    exact ⟨hevents.append h.1, h.2⟩

theorem Ticks.brackets {job : UpdateJob Unit} (h : Ticks b budgets step (· = 0) (· = 0) job) :
    Brackets b budgets words True job := by
  refine fun u hu => (h u hu).mono ?_ ?_
  · rintro _ _ u' ⟨⟨_, rfl, rfl⟩, hu'⟩
    exact ⟨isBracketed_nil, hu', trivial⟩
  · rintro _ f u' ⟨⟨_, rfl, rfl⟩, -, hu'⟩
    exact ⟨isBracketed_map (isBracketed_line f.slot f.step) f.lines, hu'⟩

/-- A step that is announced is told as a group. -/
theorem brackets_announced {fact : Prop} {body : Exchange Unit → UpdateJob Unit}
    (h : Ticks b budgets step often often' (body (Exchange.report (.ticked b.slot step))))
    (hproper : ∀ n, often n →
      n < UInt32.size ∧ (step ∈ [.program, .download, .verify] → n = words) ∧ fact)
    (hproper' : ∀ n, often' n → n < UInt32.size) :
    Brackets b budgets words fact (announced step body) := by
  intro u hu
  refine .get_bind ?_
  rw [hu.slot_eq]
  refine .report_bind (Routine.Reports.bind ((h u hu).mono_failed ?_) ?_)
  · rintro _ ⟨slot, step, cause⟩ u' ⟨⟨n, hn, rfl⟩, ⟨rfl, rfl⟩, hu'⟩
    exact ⟨isBracketed_group (g := ⟨b.slot, step, n, some cause⟩) ⟨hproper' n hn, nofun⟩, hu'⟩
  · rintro _ _ u' ⟨⟨n, hn, rfl⟩, hu'⟩
    obtain ⟨hlt, heq, hfact⟩ := hproper n hn
    refine .report ⟨?_, hu', hfact⟩
    exact isBracketed_group (g := ⟨b.slot, step, n, none⟩) ⟨hlt, fun _ => heq⟩

theorem brackets_announced_of_le {tries : Nat} {body : Exchange Unit → UpdateJob Unit}
    (h : Ticks b budgets step (· ≤ tries) (· ≤ tries)
      (body (Exchange.report (.ticked b.slot step))))
    (htries : tries < UInt32.size) (hstep : step ∉ [.program, .download, .verify]) :
    Brackets b budgets words True (announced step body) := by
  refine brackets_announced h (fun n hn => ⟨?_, fun hmem => absurd hmem hstep, trivial⟩) ?_
  · exact Nat.lt_of_le_of_lt hn htries
  · exact fun n hn => Nat.lt_of_le_of_lt hn htries

theorem brackets_announced_of_zero {body : Exchange Unit → UpdateJob Unit}
    (h : Ticks b budgets step (· = 0) (· = 0) (body (Exchange.report (.ticked b.slot step))))
    (hstep : step ∉ [.program, .download, .verify]) :
    Brackets b budgets words True (announced step body) :=
  have hle : Ticks b budgets step (· ≤ 0) (· ≤ 0)
      (body (Exchange.report (.ticked b.slot step))) :=
    h.mono (fun _ => Nat.le_of_eq) fun _ => Nat.le_of_eq
  brackets_announced_of_le hle (by decide) hstep

section Announced

variable (hb : b.Fits)
include hb

theorem brackets_waitReady :
    Brackets b budgets words True (announced .init fun _ => waitReady) :=
  brackets_announced_of_zero (ticks_waitReady hb) (by decide)

theorem brackets_awaitErase (herase : budgets.eraseTries < UInt32.size) :
    Brackets b budgets words True (announced .erase awaitErase) :=
  brackets_announced_of_le (ticks_awaitErase hb) herase (by decide)

theorem brackets_awaitReboot (hreboot : budgets.rebootTries < UInt32.size) :
    Brackets b budgets words True (announced .reboot awaitReboot) :=
  brackets_announced_of_le (ticks_awaitReboot hb) hreboot (by decide)

/-- The steps that go through the words of the image. The first of them makes sure that there are
not too many. -/
theorem brackets_refill (file : Image) :
    Brackets b budgets file.wordCount True (refill file) := by
  have hprogram : Brackets b budgets file.wordCount (file.wordCount < UInt32.size)
      (announced .program (program file)) :=
    brackets_announced (ticks_program hb file) (fun n hn => ⟨hn.2, fun _ => hn.1, hn.1 ▸ hn.2⟩)
      fun _ => id
  have hdownload : Brackets b budgets file.wordCount True
      (announced .download (download file.sizeBytes)) := by
    refine brackets_announced (ticks_download hb _) (fun n hn => ⟨hn.2, fun _ => ?_, trivial⟩)
      fun _ => id
    exact hn.1.trans (Nat.mul_div_cancel _ (by decide))
  refine hprogram.bind fun hcount => hdownload.bind fun _ => ?_
  refine brackets_announced (ticks_verify file) (fun n hn => ⟨?_, fun _ => hn, trivial⟩) ?_
  · exact hn ▸ hcount
  · exact fun n hn => Nat.lt_of_le_of_lt hn hcount

theorem brackets_wipe (herase : budgets.eraseTries < UInt32.size) :
    Brackets b budgets words True wipe := by
  have hinit : Brackets b budgets words True
      (announced .init fun _ => reset >>= fun _ => waitReady) :=
    brackets_announced_of_zero ((ticks_reset hb).zero_bind (fun _ => ticks_waitReady hb) rfl)
      (by decide)
  refine hinit.bind fun _ => brackets_announced_of_le ?_ herase (by decide)
  exact (ticks_startErase hb).zero_bind (fun _ => ticks_awaitErase hb) (Nat.zero_le _)

theorem brackets_restart (hreboot : budgets.rebootTries < UInt32.size) :
    Brackets b budgets words True restart := by
  refine brackets_announced_of_le ?_ hreboot (by decide)
  exact (ticks_startReboot hb).zero_bind (fun _ => ticks_awaitReboot hb) (Nat.zero_le _)

/-- The whole update is told in groups, one for each step that it comes to. -/
theorem brackets_runSteps (herase : budgets.eraseTries < UInt32.size)
    (hreboot : budgets.rebootTries < UInt32.size) (file : Image) :
    Brackets b budgets file.wordCount True (runSteps file) := by
  have hprepare : Brackets b budgets file.wordCount True (prepare file) :=
    (brackets_wipe hb herase).bind fun _ => brackets_refill hb file
  rw [runSteps_eq]
  exact hprepare.bind fun _ => brackets_restart hb hreboot

theorem reports_run (herase : budgets.eraseTries < UInt32.size)
    (hreboot : budgets.rebootTries < UInt32.size) (file : Image) (hu : IsLive b budgets u) :
    (run file).Reports u (fun events _ _ => IsBracketed file.wordCount events)
      fun events _ _ => IsBracketed file.wordCount events := by
  refine .attempt_bind (brackets_runSteps hb herase hreboot file u hu) ?_ ?_
  · rintro events ⟨⟩ u' ⟨hevents, -⟩
    rw [← List.append_nil events] at hevents
    exact .pure hevents
  · rintro events failure u' ⟨hevents, -⟩
    rw [← List.append_nil (events ++ failure.events), List.append_assoc] at hevents
    exact .reportAll_bind failure.events (.fail hevents)

end Announced

end Reflash.BoardUpdate
