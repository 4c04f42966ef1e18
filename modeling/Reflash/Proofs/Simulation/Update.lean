import Reflash.Proofs.Simulation.Conditions
import Reflash.Proofs.Simulation.Crate
/-!
# A whole update on a simulated board

The conditions of the parts of an update, told in terms of the board as it was in the beginning, say
which boards can be updated within some budgets; the effects of the parts say what comes of such a
board. Whatever was in its ROM, its page buffer and its registers before does not matter.
-/

namespace Reflash

namespace SimulatedBoard

variable {b b' x : SimulatedBoard} {budgets : Budgets} {count tries : Nat} {words : List UInt32}

def updated (b : SimulatedBoard) (words : List UInt32) : SimulatedBoard :=
  (b.wiped.filled 0 words).rebooted

/-- Nothing that is wrong with the board keeps it from being updated with an image of `count` words,
and nothing takes it longer than the budgets allow. -/
structure Updatable (b : SimulatedBoard) (budgets : Budgets) (count : Nat) : Prop where
  neverReady_eq : b.faults.neverReady = false
  reset_lt : b.latency.reset < budgets.readyTries
  commandReadyTries_pos : 0 < budgets.commandReadyTries
  writeProtected_eq : b.faults.writeProtected = false
  eraseStuck_eq : b.faults.eraseStuck = false
  erase_lt : b.latency.erase < budgets.eraseTries
  protectAfterErase_eq : b.faults.protectAfterErase = false
  page_lt : b.latency.page < budgets.pageTries
  readHangs_eq : b.faults.readHangs = false ∨ count = 0
  corruptWord_ne : ∀ i, b.faults.corruptWord = some i → ¬i < count
  noReboot_eq : b.faults.noReboot = false
  reboot_lt : b.latency.reboot < budgets.rebootTries

/-- The standard budgets suffice for a board that has no fault and takes the standard times. -/
theorem updatable_of_faultless {b : SimulatedBoard} (hfaults : b.faults = {})
    (hlatency : b.latency = {}) (count : Nat) : b.Updatable {} count := by
  constructor <;> simp [hfaults, hlatency]

/-- Why the board cannot be updated with these words: of all that is wrong with it, and of all that
takes it longer than the budgets allow, what an update comes across first. -/
def diagnosis (b : SimulatedBoard) (slot : Slot) (budgets : Budgets) (words : List UInt32) :
    Option StepFailure :=
  if b.faults.neverReady = true ∨ budgets.readyTries ≤ b.latency.reset then
    some ⟨slot, .init, .readyTimeout budgets.readyTries⟩
  else if budgets.commandReadyTries = 0 then
    some ⟨slot, .init, .readyTimeout 0⟩
  else if b.faults.writeProtected = true then
    some ⟨slot, .erase, .writeEnableFailed 0⟩
  else if b.faults.eraseStuck = true ∨ budgets.eraseTries ≤ b.latency.erase then
    some ⟨slot, .erase, .writeTimeout budgets.eraseTries⟩
  else if b.faults.protectAfterErase = true then
    some ⟨slot, .program, .writeEnableFailed 0⟩
  else if budgets.pageTries ≤ b.latency.page then
    some ⟨slot, .program, .writeTimeout budgets.pageTries⟩
  else if b.faults.readHangs = true ∧ words ≠ [] then
    some ⟨slot, .download, .readyTimeout budgets.commandReadyTries⟩
  else if let some m := b.misread? words then
    some ⟨slot, .verify, .verifyMismatch 1 [m]⟩
  else if b.faults.noReboot = true ∨ budgets.rebootTries ≤ b.latency.reboot then
    some ⟨slot, .reboot, .rebootTimeout budgets.rebootTries⟩
  else none

def prepareFailure? (b : SimulatedBoard) (slot : Slot) (budgets : Budgets) (words : List UInt32) :
    Option StepFailure :=
  ((b.reset.initFailure? slot budgets).or (b.eraseFailure? slot budgets)).or
    ((b.wiped.programFailure? slot budgets).or
      ((b.wiped.downloadFailure? slot budgets words).or (b.wiped.verifyFailure? slot words)))

private theorem le_time_iff {stuck : Bool} {time : Nat} (htries : tries ≤ forever) :
    tries ≤ (if stuck then forever else time) ↔ stuck = true ∨ tries ≤ time := by
  cases stuck with
  | false => simp
  | true => simp [htries]

private theorem not_answersWithin_reset_iff (hhung : b.hung = false) :
    ¬b.reset.AnswersWithin tries ↔ b.faults.neverReady = true ∨ tries ≤ b.latency.reset := by
  have hanswers : b.reset.AnswersWithin tries ↔
      (b.faults.neverReady = false ∧ b.hung = false) ∧ b.latency.reset < tries := Iff.rfl
  rw [hanswers, hhung]
  cases b.faults.neverReady <;> simp

private theorem ite_some_or {α : Type} {p : Prop} [Decidable p] (a : α) (a? b? : Option α) :
    (if p then some a else a?).or b? = if p then some a else a?.or b? := by
  split <;> rfl

/-- The first failure of an update is that of the first step that fails on the board that the steps
before leave. -/
theorem diagnosis_eq {slot : Slot} (hhung : b.hung = false) (herase : budgets.eraseTries ≤ forever)
    (hreboot : budgets.rebootTries ≤ forever) :
    b.diagnosis slot budgets words =
      (b.prepareFailure? slot budgets words).or
        ((b.wiped.filled 0 words).rebootFailure? slot budgets) := by
  have hprotected : b.wiped.faults.writeProtected =
      (b.faults.writeProtected || b.faults.protectAfterErase) := rfl
  have hpage : b.wiped.latency.page = b.latency.page := rfl
  have hreads : b.wiped.faults.readHangs = b.faults.readHangs := rfl
  have hmisread : b.wiped.misread? words = b.misread? words := rfl
  have htime : (b.wiped.filled 0 words).rebootTime = b.rebootTime := by
    rw [filled_eq]
    rfl
  unfold prepareFailure? initFailure? eraseFailure? programFailure? downloadFailure?
    verifyFailure? rebootFailure?
  rw [hprotected, hpage, hreads, hmisread, htime]
  simp only [not_answersWithin_reset_iff hhung, eraseTime, le_time_iff herase, rebootTime,
    le_time_iff hreboot, ite_some_or, Option.none_or]
  unfold diagnosis
  cases b.faults.writeProtected <;> cases b.misread? words <;> simp

private theorem ite_some_eq_none_iff {α : Type} {p : Prop} [Decidable p] {a : α} {a? : Option α} :
    (if p then some a else a?) = none ↔ ¬p ∧ a? = none := by
  by_cases hp : p <;> simp [hp]

/-- A board that has nothing wrong with it can be updated. -/
theorem diagnosis_eq_none_iff {slot : Slot} :
    b.diagnosis slot budgets words = none ↔ b.Updatable budgets words.length := by
  unfold diagnosis
  simp only [ite_some_eq_none_iff, not_or, Bool.not_eq_true, Nat.not_le]
  constructor
  · rintro ⟨⟨hnever, hreset⟩, hready, hopen, ⟨hstuck, herases⟩, hafter, hpage, hreads, hrest⟩
    cases hmisread : b.misread? words with
    | some m =>
        rw [hmisread] at hrest
        cases hrest
    | none =>
        rw [hmisread] at hrest
        obtain ⟨hreturns, hreboots⟩ := not_or.mp (ite_some_eq_none_iff.mp hrest).1
        rw [Bool.not_eq_true] at hreturns
        rw [Nat.not_le] at hreboots
        exact ⟨hnever, hreset, Nat.pos_of_ne_zero hready, hopen, hstuck, herases, hafter, hpage,
          not_hangs_iff.mp hreads, misread?_eq_none_iff.mp hmisread, hreturns, hreboots⟩
  · intro h
    have hreboots : ¬(b.faults.noReboot = true ∨ budgets.rebootTries ≤ b.latency.reboot) := by
      rw [not_or, Bool.not_eq_true, Nat.not_le]
      exact ⟨h.noReboot_eq, h.reboot_lt⟩
    rw [misread?_eq_none_iff.mpr h.corruptWord_ne]
    exact ⟨⟨h.neverReady_eq, h.reset_lt⟩, Nat.pos_iff_ne_zero.mp h.commandReadyTries_pos,
      h.writeProtected_eq, ⟨h.eraseStuck_eq, h.erase_lt⟩, h.protectAfterErase_eq, h.page_lt,
      not_hangs_iff.mpr h.readHangs_eq, ite_some_eq_none_iff.mpr ⟨hreboots, rfl⟩⟩

theorem Updatable.map_shown (h : b.Updatable budgets words.length) :
    (List.range words.length).map (b.wiped.filled 0 words).shown = words := by
  have hcorrupt : (b.wiped.filled 0 words).faults.corruptWord = b.faults.corruptWord := by
    rw [filled_eq]
    rfl
  calc (List.range words.length).map (b.wiped.filled 0 words).shown
    _ = (List.range words.length).map (b.wiped.filled 0 words).rom.wordAt := by
          refine List.map_congr_left fun i hi => if_neg fun heq => ?_
          rw [hcorrupt] at heq
          exact h.corruptWord_ne i heq (List.mem_range.mp hi)
    _ = words := (eq_words_filled rfl rfl words).symm

/-- What an update with these words has made of a board. -/
structure Updated (b : SimulatedBoard) (words : List UInt32) (b' : SimulatedBoard) : Prop where
  wordAt_eq : ∀ i, b'.rom.wordAt i = words.getD i Rom.erasedWord
  version_eq : b'.version = b.rebootVersion.getD b.version
  writeEnabled_eq : b'.writeEnabled = false
  page_eq : b'.page = none
  busy_eq : b'.busy = 0
  rebooting_eq : b'.rebooting = 0
  resets_eq : b'.activity.resets = b.activity.resets + 1
  erases_eq : b'.activity.erases = b.activity.erases + 1
  pageCommits_eq :
    b'.activity.pageCommits = b.activity.pageCommits + words.length / Rom.pageWords + 1
  droppedWords_eq : b'.activity.droppedWords = b.activity.droppedWords
  reboots_eq : b'.activity.reboots = b.activity.reboots + 1

theorem updated_updated (b : SimulatedBoard) (words : List UInt32) :
    b.Updated words (b.updated words) := by
  have hwords : ∀ i, (b.updated words).rom.wordAt i = words.getD i Rom.erasedWord :=
    wordAt_filled_of_blank rfl rfl words
  have hcommits : (0 % Rom.pageWords + words.length) / Rom.pageWords =
      words.length / Rom.pageWords := by
    rw [Nat.zero_mod, Nat.zero_add]
  rw [updated, filled_eq, hcommits] at hwords ⊢
  exact ⟨hwords, rfl, rfl, rfl, rfl, rfl, rfl, rfl, rfl, rfl, rfl⟩

theorem Updated.of_alike (h : b.Updated words b') (hx : Alike x b') : b.Updated words x := by
  have houtline : b.Updated words (Outlined.outline b') := { h with }
  rw [← hx.outline_eq] at houtline
  exact { houtline with }

end SimulatedBoard

namespace BoardUpdate

theorem meets_prepare {slot : Slot} {b : SimulatedBoard} {budgets : Budgets} {u : BoardUpdate}
    (hu : u.board = .geographic slot) (hbudgets : u.rom.budgets = budgets) (hbusy : b.busy = 0)
    {file : Image} {words : List UInt32} (hfile : file.contents? = some words)
    (hsize : file.sizeBytes ≤ Rom.maxImageBytes) (hphase : u.phase = .init) :
    (prepare file).Meets (b.prepareFailure? slot budgets words) u b
      { u with
        phase := .verified
        readback := u.readback.fill ((List.range words.length).map (b.wiped.filled 0 words).shown) }
      (b.wiped.filled 0 words) := by
  obtain rfl : u.slot = slot := congrArg Board.slot hu
  subst hbudgets
  refine (meets_wipe hu hphase hbusy).bind fun hnone => ?_
  obtain ⟨hanswers, hready⟩ :=
    SimulatedBoard.initFailure?_eq_none_iff.mp (Option.or_eq_none_iff.mp hnone).1
  exact meets_refill (u := { u with phase := .erased }) (b := b.wiped) hu hready ⟨hanswers.1, rfl⟩
    rfl rfl rfl rfl hfile hsize

section Whole

variable {slot : Slot} {b : SimulatedBoard} {budgets : Budgets} {file : Image}
  {words : List UInt32} (hbusy : b.busy = 0) (hhung : b.hung = false)
  (hfile : file.contents? = some words) (hsize : file.sizeBytes ≤ Rom.maxImageBytes)
  (herase : budgets.eraseTries ≤ SimulatedBoard.forever)
  (hreboot : budgets.rebootTries ≤ SimulatedBoard.forever)
include hbusy hhung hfile hsize herase hreboot

/-- The failure of all parts together, told of the board as it was before. -/
theorem meets_runSteps {u : BoardUpdate} (hu : u.board = .geographic slot)
    (hbudgets : u.rom.budgets = budgets) (hphase : u.phase = .init) :
    (runSteps file).Meets (b.diagnosis slot budgets words) u b
      { u with
        phase := .rebooted
        readback := u.readback.fill ((List.range words.length).map (b.wiped.filled 0 words).shown) }
      (b.updated words) := by
  rw [SimulatedBoard.diagnosis_eq hhung herase hreboot, runSteps_eq]
  obtain rfl : u.slot = slot := congrArg Board.slot hu
  subst hbudgets
  let readback := u.readback.fill ((List.range words.length).map (b.wiped.filled 0 words).shown)
  have hrestart := meets_restart (u := { u with phase := .verified, readback })
    (b := b.wiped.filled 0 words) hu rfl
  exact (meets_prepare hu rfl hbusy hfile hsize hphase).bind fun _ => hrestart

theorem hingesOn_runSteps {u : BoardUpdate} (hu : u.board = .geographic slot)
    (hbudgets : u.rom.budgets = budgets) (hphase : u.phase = .init) :
    (runSteps file).HingesOn (b.Updatable budgets words.length) u b
      { u with
        phase := .rebooted
        readback := u.readback.fill ((List.range words.length).map (b.wiped.filled 0 words).shown) }
      (b.updated words) := by
  have hmeets := meets_runSteps hbusy hhung hfile hsize herase hreboot hu hbudgets hphase
  exact hmeets.hingesOn SimulatedBoard.diagnosis_eq_none_iff

theorem run_ok_of_updatable {timing : Timing} {x : SimulatedBoard} (hx : Alike x b)
    (h : b.Updatable budgets words.length) :
    ((run file (.new (.geographic slot) budgets timing)).run Bus.handler x).1.1 = .ok () := by
  have hupdate := hingesOn_run (hingesOn_runSteps (u := .new (.geographic slot) budgets timing)
    hbusy hhung hfile hsize herase hreboot rfl rfl rfl)
  obtain ⟨u', b', hrun, -, -⟩ := hupdate.yields h (.refl _) hx
  rw [hrun]

/-- A whole update of a board on which no write is in progress and whose command engine has not
hung succeeds exactly if the board can be updated within the budgets, and then the ROM and what was
read back hold the image. No budget exceeds `forever`, the largest count of 32 bits. -/
theorem run_ok_iff_updatable (timing : Timing) {c : SimulatedCrate} (hb : c.board? slot = some b) :
    let update := BoardUpdate.new (.geographic slot) budgets timing
    let after := (run file update).run Bus.handler c
    (after.1.1 = .ok () ↔ b.Updatable budgets words.length) ∧
      (after.1.1 = .ok () →
        after.1.2.phase = .rebooted ∧ after.1.2.readback.contents? = some words ∧
          ∃ b', after.2 = c.insert slot b' ∧ b.Updated words b') := by
  intro update
  have hkeeps := keeps_run slot.fits_geographic file update rfl
  rw [SimulatedCrate.run_of_owns hkeeps hb]
  dsimp only
  have hupdate := hingesOn_run
    (hingesOn_runSteps (u := update) hbusy hhung hfile hsize herase hreboot rfl rfl rfl)
  by_cases h : b.Updatable budgets words.length
  · obtain ⟨u', b', hrun, hu', hb'⟩ := hupdate.yields h (.refl update) (.refl b)
    obtain ⟨-, hphase, hreadback⟩ := alike_iff.mp hu'
    rw [hrun]
    refine ⟨iff_of_true rfl h, fun _ => ⟨hphase, ?_, b', rfl, ?_⟩⟩
    · rw [hreadback, h.map_shown]
      rfl
    · exact (b.updated_updated words).of_alike hb'
  · obtain ⟨failure, u', b', hfails⟩ := hupdate.fails h
    obtain ⟨u'', b'', hrun, -, -⟩ := hfails (.refl update) (.refl b)
    rw [hrun]
    exact ⟨iff_of_false nofun h, nofun⟩

end Whole

theorem run_ok_iff_updatable_stale :
    (Image.ofWords [7, 8]).sizeBytes ≤ Rom.maxImageBytes ∧
      let board : SimulatedBoard :=
        { version := ⟨1, 2⟩, writeEnabled := true, page := some #[(2, 0)] }
      let after := (run (.ofWords [7, 8]) (.new (.geographic .first) {} {})).run Bus.handler
        (({} : SimulatedCrate).insert .first board)
      after.1.1 = .ok () ∧ after.1.2.readback.contents? = some [7, 8] ∧
        ∃ b', after.2.board? .first = some b' ∧ b'.rom.wordAt 2 = Rom.erasedWord := by
  have hsize : (Image.ofWords [7, 8]).sizeBytes ≤ Rom.maxImageBytes := by decide
  have hfile : (Image.ofWords [7, 8]).contents? = some [7, 8] := rfl
  have herase : ({} : Budgets).eraseTries ≤ SimulatedBoard.forever := by decide
  have hreboot : ({} : Budgets).rebootTries ≤ SimulatedBoard.forever := by decide
  refine ⟨hsize, ?_⟩
  intro board
  have hupdatable : board.Updatable {} 2 := SimulatedBoard.updatable_of_faultless rfl rfl 2
  have hupdate := run_ok_iff_updatable (b := board) rfl rfl hfile hsize herase hreboot {}
    (SimulatedCrate.board?_insert_self {} .first board)
  dsimp only at hupdate ⊢
  -- The run is not to be evaluated.
  generalize Dialogue.run _ _ _ = after at hupdate ⊢
  obtain ⟨hiff, hresult⟩ := hupdate
  have hok := hiff.mpr hupdatable
  obtain ⟨-, hreadback, b', hcrate, hupdated⟩ := hresult hok
  refine ⟨hok, hreadback, b', ?_, hupdated.wordAt_eq 2⟩
  rw [hcrate]
  exact SimulatedCrate.board?_insert_self ..

end BoardUpdate
end Reflash
