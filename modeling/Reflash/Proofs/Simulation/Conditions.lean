import Reflash.Proofs.Simulation.Steps
/-!
# What goes wrong in an update

Each step of an update on a simulated board fails with one certain error if something is wrong with
the board that the step before has left, or if a budget is too small for it; otherwise the step
succeeds. The failures of the steps make up those of the three parts of an update, which wipe the
ROM, refill it and restart the board.
-/

namespace Reflash

namespace SimulatedBoard

variable {b b' : SimulatedBoard} {words : List UInt32} {m : Mismatch}

def rebootTime (b : SimulatedBoard) : Nat :=
  if b.faults.noReboot then forever else b.latency.reboot

section Failures

variable (b : SimulatedBoard) (slot : Slot) (budgets : Budgets) (words : List UInt32)

def initFailure? : Option StepFailure :=
  if ¬b.AnswersWithin budgets.readyTries then
    some ⟨slot, .init, .readyTimeout budgets.readyTries⟩
  else if budgets.commandReadyTries = 0 then some ⟨slot, .init, .readyTimeout 0⟩
  else none

def eraseFailure? : Option StepFailure :=
  if b.faults.writeProtected = true then some ⟨slot, .erase, .writeEnableFailed 0⟩
  else if budgets.eraseTries ≤ b.eraseTime then
    some ⟨slot, .erase, .writeTimeout budgets.eraseTries⟩
  else none

def programFailure? : Option StepFailure :=
  if b.faults.writeProtected = true then some ⟨slot, .program, .writeEnableFailed 0⟩
  else if budgets.pageTries ≤ b.latency.page then
    some ⟨slot, .program, .writeTimeout budgets.pageTries⟩
  else none

def downloadFailure? : Option StepFailure :=
  if b.faults.readHangs = true ∧ words ≠ [] then
    some ⟨slot, .download, .readyTimeout budgets.commandReadyTries⟩
  else none

/-- The one word of an image in the ROM that reads back wrong, if there is one. -/
def misread? : Option Mismatch := do
  let index ← b.faults.corruptWord
  let word ← words[index]?
  return ⟨index, word, word ^^^ 0x100⟩

def verifyFailure? : Option StepFailure :=
  (b.misread? words).map fun m => ⟨slot, .verify, .verifyMismatch 1 [m]⟩

def rebootFailure? : Option StepFailure :=
  if budgets.rebootTries ≤ b.rebootTime then
    some ⟨slot, .reboot, .rebootTimeout budgets.rebootTries⟩
  else none

end Failures

def wiped (b : SimulatedBoard) : SimulatedBoard := { b.reset.settled.erasing with busy := 0 }

def rebooted (b : SimulatedBoard) : SimulatedBoard := { b.reboot with rebooting := 0 }

theorem initFailure?_eq_none_iff {slot : Slot} {budgets : Budgets} :
    b.initFailure? slot budgets = none ↔
      b.AnswersWithin budgets.readyTries ∧ 0 < budgets.commandReadyTries := by
  unfold initFailure?
  by_cases hanswers : b.AnswersWithin budgets.readyTries <;>
    simp [hanswers, Nat.pos_iff_ne_zero]

theorem not_hangs_iff :
    ¬(b.faults.readHangs = true ∧ words ≠ []) ↔ b.faults.readHangs = false ∨ words.length = 0 := by
  rw [Decidable.not_and_iff_or_not, Bool.not_eq_true, Decidable.not_not, List.length_eq_zero_iff]

theorem misread?_congr (h : b.faults = b'.faults) (words : List UInt32) :
    b.misread? words = b'.misread? words := by
  rw [misread?, misread?, h]

theorem misread?_eq_some_iff :
    b.misread? words = some m ↔
      ∃ i, ∃ hi : i < words.length,
        b.faults.corruptWord = some i ∧ ⟨i, words[i], words[i] ^^^ 0x100⟩ = m := by
  constructor
  · intro h
    obtain ⟨i, hcorrupt, hword⟩ := Option.bind_eq_some_iff.mp h
    obtain ⟨word, hget, hm⟩ := Option.bind_eq_some_iff.mp hword
    obtain ⟨hi, rfl⟩ := List.getElem?_eq_some_iff.mp hget
    exact ⟨i, hi, hcorrupt, Option.some.inj hm⟩
  · rintro ⟨i, hi, hcorrupt, rfl⟩
    rw [misread?, hcorrupt, Option.bind_eq_bind, Option.bind_some, List.getElem?_eq_getElem hi]
    rfl

theorem misread?_eq_none_iff :
    b.misread? words = none ↔ ∀ i, b.faults.corruptWord = some i → ¬i < words.length := by
  constructor
  · intro hnone i hcorrupt hi
    have hsome := misread?_eq_some_iff.mpr ⟨i, hi, hcorrupt, rfl⟩
    rw [hnone] at hsome
    cases hsome
  · intro hintact
    refine Option.eq_none_iff_forall_ne_some.mpr fun m hm => ?_
    obtain ⟨i, hi, hcorrupt, -⟩ := misread?_eq_some_iff.mp hm
    exact hintact i hcorrupt hi

theorem wordAt_filled_of_blank (hpage : b.page = none) (hblank : b.rom = .blank)
    (words : List UInt32) (j : Nat) :
    (b.filled 0 words).rom.wordAt j = words.getD j Rom.erasedWord := by
  rw [wordAt_filled hpage, hblank, RomContents.wordAt_blank, Rom.erasedWord_and]
  rfl

theorem eq_words_filled (hpage : b.page = none) (hblank : b.rom = .blank)
    (words : List UInt32) :
    words = (List.range words.length).map (b.filled 0 words).rom.wordAt := by
  apply List.ext_getElem
  · rw [List.length_map, List.length_range]
  · intro i hi _
    rw [List.getElem_map, List.getElem_range, wordAt_filled_of_blank hpage hblank,
      List.getD_eq_getElem?_getD, List.getElem?_eq_getElem hi, Option.getD_some]

end SimulatedBoard

namespace BoardUpdate

variable {u u' : BoardUpdate} {b b' : SimulatedBoard} {p : Prop} {step : Step}
  {failure? : Option StepFailure}

theorem meets_announced {body : Exchange Unit → UpdateJob Unit}
    (h : ∀ e, (body (Exchange.report e)).Meets failure? u b u' b') :
    (announced step body).Meets failure? u b u' b' := by
  constructor
  · exact fun hnone => yields_announced fun e => (h e).yields hnone
  · intro failure hfailure
    obtain ⟨u'', b'', hbody⟩ := (h _).fails failure hfailure
    exact ⟨u'', b'', yields_announced_failed hbody⟩

section Run

variable {file : Image}

theorem yields_run (h : (runSteps file).Yields u b (.ok ()) u' b') :
    (run file).Yields u b (.ok ()) u' b' :=
  h.attempt.bind (Routine.yields_pure ())

theorem yields_run_failed {failure : StepFailure}
    (h : (runSteps file).Yields u b (.failed failure) u' b') :
    (run file).Yields u b (.failed failure) u' b' := by
  refine h.attempt_failed.bind ?_
  exact (Routine.yields_lift (Exchange.isSilent_reportAll _)).bind (Routine.yields_fail failure)

theorem hingesOn_run (h : (runSteps file).HingesOn p u b u' b') :
    (run file).HingesOn p u b u' b' := by
  refine ⟨fun hp => yields_run (h.yields hp), fun hnot => ?_⟩
  obtain ⟨failure, u'', b'', hfails⟩ := h.fails hnot
  exact ⟨failure, u'', b'', yields_run_failed hfails⟩

end Run

/-! ## The failure of each step -/

section Steps

variable {slot : Slot} {onTick : Exchange Unit} (hu : u.board = .geographic slot)
include hu

theorem meets_init (hphase : u.phase = .init) :
    (do reset; waitReady : UpdateJob Unit).Meets (b.reset.initFailure? u.slot u.rom.budgets) u b
      { u with phase := .ready } b.reset.settled := by
  let v : BoardUpdate := { u with phase := .reset }
  refine .of_bind (yields_reset hu hphase) ?_
  refine .ite (fun hnot => ⟨_, _, yields_waitReady_timeout (u := v) hu rfl hnot⟩) fun hanswers => ?_
  rw [Decidable.not_not] at hanswers
  refine .ite (fun hnone => ⟨_, _, yields_waitReady_unready (u := v) hu rfl hanswers hnone⟩) ?_
  exact fun hsome => .of_yields
    (yields_waitReady (u := v) hu rfl hanswers (Nat.pos_of_ne_zero hsome))

theorem yields_reboot_timeout (hticks : onTick.IsSilent) (hphase : u.phase = .verified)
    (hle : u.rom.budgets.rebootTries ≤ b.rebootTime) :
    let failure : StepFailure := ⟨u.slot, .reboot, .rebootTimeout u.rom.budgets.rebootTries⟩
    (do startReboot; awaitReboot onTick : UpdateJob Unit).Yields u b (.failed failure)
      { u with phase := .failed failure }
      { b.reboot with rebooting := b.rebootTime - u.rom.budgets.rebootTries } := by
  let v : BoardUpdate := { u with phase := .rebooting }
  refine (yields_startReboot hu hphase).bind ?_
  exact yields_awaitReboot_timeout (u := v) (b := b.reboot) hticks hu rfl hle

theorem meets_reboot (hticks : onTick.IsSilent) (hphase : u.phase = .verified) :
    (do startReboot; awaitReboot onTick : UpdateJob Unit).Meets
      (b.rebootFailure? u.slot u.rom.budgets) u b { u with phase := .rebooted } b.rebooted := by
  let v : BoardUpdate := { u with phase := .rebooting }
  refine .ite (fun hle => ⟨_, _, yields_reboot_timeout hu hticks hphase hle⟩) fun hlt => ?_
  exact .of_yields ((yields_startReboot hu hphase).bind
    (yields_awaitReboot (u := v) (b := b.reboot) hticks hu rfl (Nat.not_le.mp hlt)))

section Ready

variable (hready : 0 < u.rom.budgets.commandReadyTries) (hidle : b.Idle)
include hready hidle

theorem meets_erase (hticks : onTick.IsSilent) (hphase : u.phase = .ready) (hbusy : b.busy = 0) :
    (do startErase; awaitErase onTick : UpdateJob Unit).Meets
      (b.eraseFailure? u.slot u.rom.budgets) u b { u with phase := .erased }
      { b.erasing with busy := 0 } := by
  let v : BoardUpdate := { u with phase := .erasing }
  have hanswers := hidle.answersWithin hready
  refine .ite (fun hprotected => ?_) fun hopen => ?_
  · have hfails := yields_startErase_protected hu hanswers hphase hprotected
    rw [SimulatedBoard.closedStatus_of_not_busy hbusy] at hfails
    exact Routine.Fails.bind ⟨_, _, hfails⟩
  have hasked : b.askedToErase = b.erasing := SimulatedBoard.askedToErase_of_le (by omega)
  have hstarts := yields_startErase hu hanswers hphase (Bool.eq_false_iff.mpr hopen)
  rw [hidle.settled_eq, hasked] at hstarts
  have hidle' : b.erasing.Idle := hidle
  refine .of_bind hstarts (.ite (fun hle => ?_) fun hlt => ?_)
  · exact ⟨_, _, yields_awaitErase_timeout (u := v) hu hready hidle' hticks rfl hle⟩
  · exact .of_yields
      (yields_awaitErase (u := v) hu hready hidle' hticks rfl (Nat.not_le.mp hlt))

variable {file : Image} {words : List UInt32} (hfile : file.contents? = some words)
  (hsize : file.sizeBytes ≤ Rom.maxImageBytes)
include hfile hsize

theorem meets_program (hticks : onTick.IsSilent) (hphase : u.phase = .erased)
    (hbusy : b.busy = 0) :
    (program file onTick).Meets (b.programFailure? u.slot u.rom.budgets) u b
      { u with phase := .programmed } (b.filled 0 words) := by
  refine .ite (fun hprotected => ?_) fun hnot => ?_
  · exact fails_program hphase
      (RomSession.fails_program_protected hu hready hfile hsize hidle hbusy hprotected)
  have hopen := Bool.eq_false_iff.mpr hnot
  refine .ite (fun hle => ?_) fun hlt => .of_yields ?_
  · exact fails_program hphase
      (RomSession.fails_program_timeout hu hready hfile hsize hidle hbusy hticks hopen hle)
  · exact yields_program hu hready hidle hticks hphase hfile hsize hbusy hopen (Nat.not_le.mp hlt)

/-- What an update reads back from the ROM fills its image, as long as reading does not hang. -/
theorem meets_download (hticks : onTick.IsSilent) (hphase : u.phase = .programmed) :
    (download file.sizeBytes onTick).Meets (b.downloadFailure? u.slot u.rom.budgets words) u b
      { u with
        phase := .downloaded
        readback := u.readback.fill ((List.range words.length).map b.shown) } b := by
  have hlength := Nat.le_of_lt (file.length_lt hfile hsize)
  rw [file.sizeBytes_eq hfile]
  refine .ite (fun ⟨hhangs, hwords⟩ => ?_) fun hnot => .of_yields ?_
  · have hcount : 0 < words.length := List.length_pos_iff.mpr hwords
    exact fails_download hu hready hidle hphase hhangs hcount hlength
  · have hreads := SimulatedBoard.not_hangs_iff.mp hnot
    exact yields_download hu hready hidle hticks hphase hreads hlength

end Ready
end Steps

/-- What was read back is the image that is in the ROM, apart from a word that reads wrong. -/
theorem meets_verify {file : Image} {words : List UInt32} {onTick : Exchange Unit}
    (hticks : onTick.IsSilent) (hphase : u.phase = .downloaded)
    (hfile : file.contents? = some words)
    (hwords : words = (List.range words.length).map b.rom.wordAt)
    (hreadback : u.readback.contents? = some ((List.range words.length).map b.shown)) :
    (verify file onTick).Meets (b.verifyFailure? u.slot words) u b { u with phase := .verified }
      b := by
  have hlength : words.length = ((List.range words.length).map b.shown).length := by
    rw [List.length_map, List.length_range]
  have hpairs := SimulatedBoard.zip_map_shown hwords
  constructor
  · intro hnone
    have hintact := SimulatedBoard.misread?_eq_none_iff.mp (Option.map_eq_none_iff.mp hnone)
    refine yields_verify hticks hphase hfile hreadback hlength ?_
    rw [hpairs]
    refine SimulatedBoard.mismatches_comparison_of_intact fun i hi hmem => hintact i hi ?_
    omega
  · intro failure hfailure
    obtain ⟨m, hmisread, rfl⟩ := Option.map_eq_some_iff.mp hfailure
    obtain ⟨i, hi, hcorrupt, rfl⟩ := SimulatedBoard.misread?_eq_some_iff.mp hmisread
    have hword : b.rom.wordAt i = words[i] := by
      have hget : words[i]? = some (b.rom.wordAt i) := by
        rw [hwords, List.getElem?_map, List.getElem?_range hi, Option.map_some]
      rw [List.getElem?_eq_getElem hi] at hget
      exact (Option.some.inj hget).symm
    have hlt : i < 0 + words.length := by omega
    have hfound := SimulatedBoard.mismatches_comparison_of_corrupt hcorrupt (Nat.zero_le i) hlt
    rw [← hpairs, hword] at hfound
    exact fails_verify hticks hphase hfile hreadback hlength hfound (List.cons_ne_nil _ _)

/-! ## The failure of each part -/

section Parts

variable {slot : Slot} (hu : u.board = .geographic slot)
include hu

theorem meets_wipe (hphase : u.phase = .init) (hbusy : b.busy = 0) :
    wipe.Meets
      ((b.reset.initFailure? u.slot u.rom.budgets).or (b.eraseFailure? u.slot u.rom.budgets)) u b
      { u with phase := .erased } b.wiped := by
  refine (meets_announced fun _ => meets_init hu hphase).bind fun hnone => ?_
  obtain ⟨hanswers, hready⟩ := SimulatedBoard.initFailure?_eq_none_iff.mp hnone
  have hidle : b.reset.settled.Idle := ⟨hanswers.1, rfl⟩
  exact meets_announced fun e => meets_erase (u := { u with phase := .ready })
    (b := b.reset.settled) hu hready hidle (Exchange.isSilent_report e) rfl hbusy

theorem meets_refill (hready : 0 < u.rom.budgets.commandReadyTries) (hidle : b.Idle)
    (hphase : u.phase = .erased) (hbusy : b.busy = 0) (hpage : b.page = none)
    (hblank : b.rom = .blank) {file : Image} {words : List UInt32}
    (hfile : file.contents? = some words) (hsize : file.sizeBytes ≤ Rom.maxImageBytes) :
    (refill file).Meets
      ((b.programFailure? u.slot u.rom.budgets).or
        ((b.downloadFailure? u.slot u.rom.budgets words).or (b.verifyFailure? u.slot words))) u b
      { u with
        phase := .verified
        readback := u.readback.fill ((List.range words.length).map (b.filled 0 words).shown) }
      (b.filled 0 words) := by
  have hticks := fun e => Exchange.isSilent_report e
  have hidle' : (b.filled 0 words).Idle := by rwa [SimulatedBoard.filled_eq]
  have hwords := SimulatedBoard.eq_words_filled hpage hblank words
  let readback := u.readback.fill ((List.range words.length).map (b.filled 0 words).shown)
  have hdownload := fun e =>
    meets_download (u := { u with phase := .programmed }) hu hready hidle' hfile hsize
      (hticks e) rfl
  have hverify := fun e =>
    meets_verify (u := { u with phase := .downloaded, readback }) (hticks e) rfl hfile hwords rfl
  -- What is wrong with the board is not changed by programming it.
  have hfaults : (b.filled 0 words).faults = b.faults := by rw [SimulatedBoard.filled_eq]
  rw [SimulatedBoard.downloadFailure?, hfaults] at hdownload
  rw [SimulatedBoard.verifyFailure?, SimulatedBoard.misread?_congr hfaults] at hverify
  exact (meets_announced fun e =>
    meets_program hu hready hidle hfile hsize (hticks e) hphase hbusy).bind fun _ =>
      (meets_announced hdownload).bind fun _ => meets_announced hverify

theorem meets_restart (hphase : u.phase = .verified) :
    restart.Meets (b.rebootFailure? u.slot u.rom.budgets) u b { u with phase := .rebooted }
      b.rebooted :=
  meets_announced fun e => meets_reboot hu (Exchange.isSilent_report e) hphase

end Parts
end BoardUpdate
end Reflash
