import Reflash.Proofs.Simulation.Handling
import Reflash.Proofs.Simulation.Reading
/-!
# Steps of an update on a simulated board

What each step of an update comes to on a board: the phase that it leads to and the board that it
leaves, or the failure that ends the update there. A step's failure is that of its work, with the
slot and the step.
-/

namespace Reflash

namespace SimulatedBoard

variable {b b' : SimulatedBoard}

theorem alike_reset (h : Alike b b') : Alike b.reset b'.reset := h.map reset fun _ => rfl

theorem alike_reboot (h : Alike b b') : Alike b.reboot b'.reboot := h.map reboot fun _ => rfl

theorem alike_write_reset (b : SimulatedBoard) (value : UInt32) :
    Alike (b.write Register.reset value) b.reset := rfl

theorem alike_write_reboot (b : SimulatedBoard) :
    Alike (b.write Register.command Control.reboot) b.reboot := rfl

theorem read_controlVersion (b : SimulatedBoard) :
    b.read Register.controlVersion =
      (if b.rebooting = 0 then b.version.control.toUInt32 else notDriven,
        { b with
          rebooting := b.rebooting - 1
          activity.reads := b.activity.reads + 1 }) := by
  unfold read
  rw [if_neg (by decide), if_pos rfl]
  cases b.rebooting <;> simp [isAway]

theorem read_processingVersion (b : SimulatedBoard) :
    b.read Register.processingVersion =
      (if b.rebooting = 0 then b.version.processing.toUInt32 else notDriven,
        { b with
          rebooting := b.rebooting - 1
          activity.reads := b.activity.reads + 1 }) := by
  unfold read
  rw [if_neg (by decide), if_neg (by decide), if_pos rfl]
  cases b.rebooting <;> simp [isAway]

theorem alike_rebooting (h : Alike b b') (count : Nat) :
    Alike ({ b with rebooting := count } : SimulatedBoard) { b' with rebooting := count } :=
  h.map (fun b => ({ b with rebooting := count } : SimulatedBoard)) fun _ => rfl

end SimulatedBoard

/-- No version reads like a board that is away. -/
theorem Version.control_ne_notDriven (v : Version) : v.control.toUInt32 ≠ notDriven := by
  intro heq
  have hnat : v.control.toNat = notDriven.toNat := congrArg UInt32.toNat heq
  have hlt := v.control.toNat_lt
  have hall : notDriven.toNat = 4294967295 := rfl
  omega

namespace Board

variable {σ : Type} [Outlined σ] {s : σ} {slot : Slot} {b : SimulatedBoard}

theorem yields_reset {ε : Type} (value : UInt32) :
    ((geographic slot).write Register.reset value : Job σ ε Unit).Yields s b (.ok ()) s b.reset :=
  fun t x ht hx =>
    ⟨t, _, run_write (by decide) value t x, ht,
      (x.alike_write_reset value).trans (SimulatedBoard.alike_reset hx)⟩

theorem yields_requestReboot {ε : Type} :
    ((geographic slot).requestReboot : Job σ ε Unit).Yields s b (.ok ()) s b.reboot :=
  fun t x ht hx =>
    ⟨t, _, run_write (by decide) Control.reboot t x, ht,
      x.alike_write_reboot.trans (SimulatedBoard.alike_reboot hx)⟩

/-- A board that is away does not answer a probe, which counts as one of those that it misses. -/
theorem yields_probe_away {ε : Type} (haway : b.rebooting ≠ 0) :
    ((geographic slot).probe Register.controlVersion : Job σ ε (Option UInt32)).Yields s b
      (.ok none) s { b with rebooting := b.rebooting - 1 } := by
  intro t x ht hx
  have hrebooting : x.rebooting = b.rebooting :=
    (congrArg SimulatedBoard.rebooting hx.outline_eq :)
  rw [← hrebooting] at haway
  rw [run_probe (by decide), SimulatedBoard.probed, if_neg haway, ← hrebooting]
  exact ⟨t, _, rfl, ht, SimulatedBoard.alike_rebooting hx _⟩

theorem yields_probe_back {ε : Type} (hback : b.rebooting = 0) :
    ((geographic slot).probe Register.controlVersion : Job σ ε (Option UInt32)).Yields s b
      (.ok (some b.version.control.toUInt32)) s b := by
  intro t x ht hx
  have hrebooting : x.rebooting = 0 :=
    (congrArg SimulatedBoard.rebooting hx.outline_eq :).trans hback
  have hversion : x.version = b.version := (congrArg SimulatedBoard.version hx.outline_eq :)
  rw [← hversion, run_probe (by decide), SimulatedBoard.probed, if_pos hrebooting,
    SimulatedBoard.read_controlVersion, if_pos hrebooting]
  refine ⟨t, _, rfl, ht, ?_⟩
  have hcount : x.rebooting - 1 = b.rebooting := by omega
  have hsame : ({ b with rebooting := x.rebooting - 1 } : SimulatedBoard) = b := by rw [hcount]
  have hrebooted := SimulatedBoard.alike_rebooting hx (x.rebooting - 1)
  rw [hsame] at hrebooted
  exact hrebooted

end Board

namespace BoardUpdate

variable {u u' : BoardUpdate} {b b' : SimulatedBoard} {start next : Phase} {step : Step}
  {onTick : Exchange Unit}

/-! ## Rules for steps -/

private theorem slot_eq {v : BoardUpdate} (h : Alike v u) : v.slot = u.slot :=
  congrArg Board.slot (RomSession.alike_iff.mp (alike_iff.mp h).1).1

theorem yields_moveTo (next : Phase) :
    (moveTo next).Yields u b (.ok ()) { u with phase := next } b := by
  refine Routine.yields_modify fun v hv => ?_
  obtain ⟨hrom, -, hreadback⟩ := alike_iff.mp hv
  exact alike_iff.mpr ⟨hrom, rfl, hreadback⟩

theorem yields_require (hphase : u.phase = start) (hlive : start.failure? = none) :
    (require start step).Yields u b (.ok ()) u b := by
  refine Routine.yields_get_bind fun v hv => ?_
  have hstart : v.phase = start := (alike_iff.mp hv).2.1.trans hphase
  rw [failure?, hstart, hlive]
  dsimp only
  rw [if_neg (not_not_intro rfl)]
  exact Routine.yields_pure ()

theorem fails_require (hphase : u.phase ≠ start) : ∃ e, (require start step).Fails u b e := by
  cases hfailure : u.phase.failure? with
  | some failure =>
      refine ⟨failure, u, b, Routine.yields_get_bind fun v hv => ?_⟩
      rw [failure?, (alike_iff.mp hv).2.1, hfailure]
      exact Routine.yields_fail failure
  | none =>
      refine ⟨⟨u.slot, step, .outOfSequence⟩, u, b, Routine.yields_get_bind fun v hv => ?_⟩
      rw [failure?, (alike_iff.mp hv).2.1, hfailure]
      dsimp only
      rw [if_pos hphase, slot_eq hv]
      exact Routine.yields_fail _

theorem yields_conclude {α : Type} {work : Job BoardUpdate RomError α} {a : α}
    (h : work.Yields u b (.ok a) u' b') :
    (conclude step next work).Yields u b (.ok a) { u' with phase := next } b' := by
  refine Routine.yields_get_bind fun v _ => h.attempt.bind ?_
  exact (Routine.yields_remark _).bind ((yields_moveTo next).bind (Routine.yields_pure a))

theorem yields_conclude_failed {α : Type} {work : Job BoardUpdate RomError α} {e : RomError}
    (h : work.Yields u b (.failed e) u' b') :
    (conclude step next work).Yields u b (.failed ⟨u.slot, step, e⟩)
      { u' with phase := .failed ⟨u.slot, step, e⟩ } b' := by
  refine Routine.yields_get_bind fun v hv => h.attempt_failed.bind ?_
  rw [slot_eq hv]
  exact (Routine.yields_remark _).bind ((yields_moveTo _).bind (Routine.yields_fail _))

theorem fails_conclude {α : Type} {work : Job BoardUpdate RomError α} {e : RomError}
    (h : work.Fails u b e) : (conclude step next work).Fails u b ⟨u.slot, step, e⟩ := by
  rcases h with ⟨u', b', hwork⟩
  exact ⟨_, b', yields_conclude_failed hwork⟩

theorem yields_onRom {α : Type} {work : RomJob α} {out : Outcome RomError α} {s' : RomSession}
    (h : work.Yields u.rom b out s' b') : (onRom work).Yields u b out { u with rom := s' } b' := by
  refine h.within (fun v hv => (alike_iff.mp hv).1) fun v t hv ht => ?_
  exact alike_iff.mpr ⟨ht, (alike_iff.mp hv).2⟩

theorem fails_onRom {α : Type} {work : RomJob α} {e : RomError} (h : work.Fails u.rom b e) :
    (onRom work).Fails u b e := by
  rcases h with ⟨s', b', hwork⟩
  exact ⟨_, b', yields_onRom hwork⟩

theorem yields_withReadback {α : Type} {work : Job (RomSession × Image) RomError α}
    {out : Outcome RomError α} {s' : RomSession} {readback' : Image}
    (h : work.Yields (u.rom, u.readback) b out (s', readback') b') :
    (work.within (fun u => (u.rom, u.readback)) (fun u (rom, readback) =>
      { u with rom, readback }) : Job BoardUpdate RomError α).Yields u b out
        { u with rom := s', readback := readback' } b' := by
  refine h.within (fun v hv => ?_) fun v t hv ht => ?_
  · exact alike_prod_iff.mpr ⟨(alike_iff.mp hv).1, (alike_iff.mp hv).2.2⟩
  · obtain ⟨hrom, hreadback⟩ := alike_prod_iff.mp ht
    exact alike_iff.mpr ⟨hrom, (alike_iff.mp hv).2.1, hreadback⟩

theorem yields_announced {body : Exchange Unit → UpdateJob Unit}
    (h : ∀ e, (body (Exchange.report e)).Yields u b (.ok ()) u' b') :
    (announced step body).Yields u b (.ok ()) u' b' := by
  refine Routine.yields_get_bind fun v _ => ?_
  refine (Routine.yields_lift (Exchange.isSilent_report _)).bind ((h _).bind ?_)
  exact Routine.yields_lift (Exchange.isSilent_report _)

theorem yields_announced_failed {body : Exchange Unit → UpdateJob Unit} {e : StepFailure}
    (h : (body (Exchange.report (.ticked u.slot step))).Yields u b (.failed e) u' b') :
    (announced step body).Yields u b (.failed e) u' b' := by
  refine Routine.yields_get_bind fun v hv => ?_
  rw [slot_eq hv]
  exact (Routine.yields_lift (Exchange.isSilent_report _)).bind h.bind_failed

theorem fails_program {e : RomError} {file : Image} (hphase : u.phase = .erased)
    (h : (RomSession.program file onTick).Fails u.rom b e) :
    (program file onTick).Fails u b ⟨u.slot, .program, e⟩ :=
  (yields_require hphase rfl).bind_fails (fails_conclude (fails_onRom h))

/-! ## The steps -/

section Steps

variable {slot : Slot} (hu : u.board = .geographic slot)
include hu

theorem yields_reset (hphase : u.phase = .init) :
    reset.Yields u b (.ok ()) { u with phase := .reset } b.reset := by
  refine (yields_require hphase rfl).bind (Routine.yields_get_bind fun v hv => ?_)
  have hboard : v.board = .geographic slot :=
    (RomSession.alike_iff.mp (alike_iff.mp hv).1).1.trans hu
  rw [hboard]
  refine (Board.yields_reset _).bind ((Routine.yields_pause _).bind ?_)
  exact yields_moveTo _

theorem yields_waitReady (hphase : u.phase = .reset)
    (hanswers : b.AnswersWithin u.rom.budgets.readyTries)
    (hready : 0 < u.rom.budgets.commandReadyTries) :
    waitReady.Yields u b (.ok ()) { u with phase := .ready } b.settled := by
  have hidle : b.settled.Idle := ⟨hanswers.1, rfl⟩
  have hwork : (do RomSession.awaitEngine; RomSession.readId : RomJob UInt32).Yields u.rom b
      (.ok SimulatedBoard.romId) u.rom b.settled :=
    (RomSession.yields_awaitEngine hu hanswers).bind (RomSession.yields_readId hu hidle hready)
  refine (yields_require hphase rfl).bind ((yields_conclude (yields_onRom hwork)).bind ?_)
  exact Routine.yields_get_bind fun v _ => Routine.yields_remark _

theorem yields_waitReady_timeout (hphase : u.phase = .reset)
    (hanswers : ¬b.AnswersWithin u.rom.budgets.readyTries) :
    let failure : StepFailure := ⟨u.slot, .init, .readyTimeout u.rom.budgets.readyTries⟩
    waitReady.Yields u b (.failed failure) { u with phase := .failed failure }
      (b.polled u.rom.budgets.readyTries) := by
  have hwork : (do RomSession.awaitEngine; RomSession.readId : RomJob UInt32).Yields u.rom b
      (.failed (.readyTimeout u.rom.budgets.readyTries)) u.rom
      (b.polled u.rom.budgets.readyTries) :=
    (RomSession.yields_awaitEngine_timeout hu hanswers).bind_failed
  exact (yields_require hphase rfl).bind
    (yields_conclude_failed (yields_onRom hwork)).bind_failed

theorem yields_waitReady_unready (hphase : u.phase = .reset)
    (hanswers : b.AnswersWithin u.rom.budgets.readyTries)
    (hready : u.rom.budgets.commandReadyTries = 0) :
    let failure : StepFailure := ⟨u.slot, .init, .readyTimeout 0⟩
    waitReady.Yields u b (.failed failure) { u with phase := .failed failure }
      (b.settled.polled 0) := by
  have hid := RomSession.yields_readId_unready (b := b.settled) hu hready
  rw [hready] at hid
  have hwork : (do RomSession.awaitEngine; RomSession.readId : RomJob UInt32).Yields u.rom b
      (.failed (.readyTimeout 0)) u.rom (b.settled.polled 0) :=
    (RomSession.yields_awaitEngine hu hanswers).bind hid
  exact (yields_require hphase rfl).bind
    (yields_conclude_failed (yields_onRom hwork)).bind_failed

section Answers

variable (hanswers : b.AnswersWithin u.rom.budgets.commandReadyTries)
include hanswers

theorem yields_startErase (hphase : u.phase = .ready) (hopen : b.faults.writeProtected = false) :
    startErase.Yields u b (.ok ()) { u with phase := .erasing } b.settled.askedToErase := by
  have hwork := RomSession.yields_startErase hu hanswers hopen
  exact (yields_require hphase rfl).bind (yields_conclude (yields_onRom hwork))

theorem yields_startErase_protected (hphase : u.phase = .ready)
    (hprotected : b.faults.writeProtected = true) :
    let failure : StepFailure := ⟨u.slot, .erase, .writeEnableFailed b.closedStatus⟩
    startErase.Yields u b (.failed failure) { u with phase := .failed failure }
      { b.settled with writeEnabled := false, busy := b.busy - 1 } := by
  have hwork := RomSession.yields_startErase_protected hu hanswers hprotected
  exact (yields_require hphase rfl).bind (yields_conclude_failed (yields_onRom hwork))

end Answers

theorem yields_startErase_timeout (hphase : u.phase = .ready)
    (hanswers : ¬b.AnswersWithin u.rom.budgets.commandReadyTries) :
    let failure : StepFailure := ⟨u.slot, .erase, .readyTimeout u.rom.budgets.commandReadyTries⟩
    startErase.Yields u b (.failed failure) { u with phase := .failed failure }
      (b.polled u.rom.budgets.commandReadyTries) := by
  have hwork := RomSession.yields_startErase_timeout hu hanswers
  exact (yields_require hphase rfl).bind (yields_conclude_failed (yields_onRom hwork))

section Ready

variable (hready : 0 < u.rom.budgets.commandReadyTries) (hidle : b.Idle)
include hready hidle

theorem yields_awaitErase (hticks : onTick.IsSilent) (hphase : u.phase = .erasing)
    (hlt : b.busy < u.rom.budgets.eraseTries) :
    (awaitErase onTick).Yields u b (.ok ()) { u with phase := .erased } { b with busy := 0 } := by
  have hwork := RomSession.yields_awaitErase hu hready hidle hticks hlt
  exact (yields_require hphase rfl).bind
    ((yields_conclude (yields_onRom hwork)).bind (Routine.yields_pure ()))

theorem yields_awaitErase_timeout (hticks : onTick.IsSilent) (hphase : u.phase = .erasing)
    (hle : u.rom.budgets.eraseTries ≤ b.busy) :
    let failure : StepFailure := ⟨u.slot, .erase, .writeTimeout u.rom.budgets.eraseTries⟩
    (awaitErase onTick).Yields u b (.failed failure) { u with phase := .failed failure }
      { b with busy := b.busy - u.rom.budgets.eraseTries } := by
  have hwork := RomSession.yields_awaitErase_timeout hu hready hidle hticks hle
  exact (yields_require hphase rfl).bind
    (yields_conclude_failed (yields_onRom hwork)).bind_failed

theorem yields_program (hticks : onTick.IsSilent) (hphase : u.phase = .erased) {file : Image}
    {words : List UInt32} (hfile : file.contents? = some words)
    (hsize : file.sizeBytes ≤ Rom.maxImageBytes) (hbusy : b.busy = 0)
    (hopen : b.faults.writeProtected = false)
    (hpage : b.latency.page < u.rom.budgets.pageTries) :
    (program file onTick).Yields u b (.ok ()) { u with phase := .programmed }
      (b.filled 0 words) := by
  have hwork := RomSession.yields_program hu hready hfile hsize hidle hbusy hticks hopen hpage
  exact (yields_require hphase rfl).bind (yields_conclude (yields_onRom hwork))

theorem yields_download (hticks : onTick.IsSilent) (hphase : u.phase = .programmed)
    {count : Nat} (hhangs : b.faults.readHangs = false ∨ count = 0)
    (hsize : count ≤ Rom.capacity / Rom.wordBytes) :
    (download (count * Rom.wordBytes) onTick).Yields u b (.ok ())
      { u with
        phase := .downloaded
        readback := u.readback.fill ((List.range count).map b.shown) } b := by
  have hwork := RomSession.yields_download hu hready hidle hticks hhangs hsize u.readback
  exact (yields_require hphase rfl).bind (yields_conclude (yields_withReadback hwork))

theorem fails_download (hphase : u.phase = .programmed) (hhangs : b.faults.readHangs = true)
    {count : Nat} (hcount : 0 < count) (hsize : count ≤ Rom.capacity / Rom.wordBytes) :
    (download (count * Rom.wordBytes) onTick).Fails u b
      ⟨u.slot, .download, .readyTimeout u.rom.budgets.commandReadyTries⟩ := by
  have hwork : (RomSession.download (count * Rom.wordBytes) onTick).Fails (u.rom, u.readback) b
      (.readyTimeout u.rom.budgets.commandReadyTries) :=
    RomSession.fails_download (RomSession.fails_readWord hu hready hidle hhangs (by decide)) hcount
      hsize u.readback
  rcases hwork with ⟨⟨s', readback'⟩, b', hdownload⟩
  exact (yields_require hphase rfl).bind_fails
    (fails_conclude ⟨_, b', yields_withReadback hdownload⟩)

end Ready

theorem yields_startReboot (hphase : u.phase = .verified) :
    startReboot.Yields u b (.ok ()) { u with phase := .rebooting } b.reboot := by
  refine (yields_require hphase rfl).bind (Routine.yields_get_bind fun v hv => ?_)
  have hboard : v.board = .geographic slot :=
    (RomSession.alike_iff.mp (alike_iff.mp hv).1).1.trans hu
  rw [hboard]
  refine Board.yields_requestReboot.bind ((Routine.yields_pause _).bind ?_)
  exact yields_moveTo _

end Steps

theorem yields_verify (hticks : onTick.IsSilent) (hphase : u.phase = .downloaded) {file : Image}
    {words words' : List UInt32} (hfile : file.contents? = some words)
    (hreadback : u.readback.contents? = some words') (hlength : words.length = words'.length)
    (hsame : mismatches 0 (words.zip words') = []) :
    (verify file onTick).Yields u b (.ok ()) { u with phase := .verified } b := by
  refine (yields_require hphase rfl).bind (Routine.yields_get_bind fun v hv => ?_)
  rw [(alike_iff.mp hv).2.2]
  exact yields_conclude (Image.yields_compare hticks hfile hreadback hlength hsame)

theorem fails_verify (hticks : onTick.IsSilent) (hphase : u.phase = .downloaded) {file : Image}
    {words words' : List UInt32} (hfile : file.contents? = some words)
    (hreadback : u.readback.contents? = some words') (hlength : words.length = words'.length)
    {found : List Mismatch} (hfound : mismatches 0 (words.zip words') = found)
    (hdiffer : found ≠ []) :
    (verify file onTick).Fails u b
      ⟨u.slot, .verify, .verifyMismatch found.length (found.take maxSamples)⟩ := by
  have hwork := Image.yields_compare (s := u) (b := b) hticks hfile hreadback hlength hfound
  rw [if_neg hdiffer] at hwork
  refine (yields_require hphase rfl).bind_fails (Routine.fails_get_bind (fun v hv => ?_) ?_)
  · rw [(alike_iff.mp hv).2.2]
  · exact fails_conclude ⟨u, b, hwork⟩

/-! ## The return from a reboot -/

section Return

variable {slot : Slot} {interval tries left : Nat} (hticks : onTick.IsSilent)
include hticks

theorem yields_pollVersion (hlt : b.rebooting < left) :
    (pollVersion onTick (.geographic slot) interval tries left).Yields u b (.ok ()) u
      { b with rebooting := 0 } := by
  induction left generalizing b with
  | zero => exact absurd hlt (Nat.not_lt_zero _)
  | succ left ih =>
      rw [pollVersion]
      by_cases hback : b.rebooting = 0
      · have hsame : ({ b with rebooting := 0 } : SimulatedBoard) = b := by rw [← hback]
        have hversion := mt beq_iff_eq.mp b.version.control_ne_notDriven
        refine (Board.yields_probe_back hback).bind ?_
        rw [hsame, Option.all_some, if_neg hversion]
        exact Routine.yields_remark _
      · refine (Board.yields_probe_away hback).bind ?_
        rw [Option.all_none, if_pos rfl]
        have hrest : b.rebooting - 1 < left := by omega
        exact (Routine.yields_lift hticks).bind ((Routine.yields_pause _).bind (ih hrest))

theorem yields_pollVersion_timeout (hle : left ≤ b.rebooting) :
    (pollVersion onTick (.geographic slot) interval tries left).Yields u b
      (.failed (.rebootTimeout tries)) u { b with rebooting := b.rebooting - left } := by
  induction left generalizing b with
  | zero => exact Routine.yields_fail _
  | succ left ih =>
      have haway : b.rebooting ≠ 0 := by omega
      have hcount : b.rebooting - (left + 1) = b.rebooting - 1 - left := by omega
      have hrest : left ≤ b.rebooting - 1 := by omega
      rw [pollVersion, hcount]
      refine (Board.yields_probe_away haway).bind ?_
      rw [Option.all_none, if_pos rfl]
      exact (Routine.yields_lift hticks).bind ((Routine.yields_pause _).bind (ih hrest))

theorem yields_awaitReboot (hu : u.board = .geographic slot) (hphase : u.phase = .rebooting)
    (hlt : b.rebooting < u.rom.budgets.rebootTries) :
    (awaitReboot onTick).Yields u b (.ok ()) { u with phase := .rebooted }
      { b with rebooting := 0 } := by
  refine (yields_require hphase rfl).bind (Routine.yields_get_bind fun v hv => ?_)
  obtain ⟨hboard, hbudgets, htiming⟩ := RomSession.alike_iff.mp (alike_iff.mp hv).1
  dsimp only
  rw [hboard, hbudgets, htiming, show u.rom.board = .geographic slot from hu]
  exact yields_conclude (yields_pollVersion hticks hlt)

theorem yields_awaitReboot_timeout (hu : u.board = .geographic slot) (hphase : u.phase = .rebooting)
    (hle : u.rom.budgets.rebootTries ≤ b.rebooting) :
    let failure : StepFailure := ⟨u.slot, .reboot, .rebootTimeout u.rom.budgets.rebootTries⟩
    (awaitReboot onTick).Yields u b (.failed failure) { u with phase := .failed failure }
      { b with rebooting := b.rebooting - u.rom.budgets.rebootTries } := by
  refine (yields_require hphase rfl).bind (Routine.yields_get_bind fun v hv => ?_)
  obtain ⟨hboard, hbudgets, htiming⟩ := RomSession.alike_iff.mp (alike_iff.mp hv).1
  dsimp only
  rw [hboard, hbudgets, htiming, show u.rom.board = .geographic slot from hu]
  exact yields_conclude_failed (yields_pollVersion_timeout hticks hle)

end Return
end BoardUpdate
end Reflash
