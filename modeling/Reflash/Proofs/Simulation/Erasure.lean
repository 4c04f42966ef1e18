import Reflash.Proofs.Simulation.Steps
/-!
# Erases that succeed

A board ignores a bulk erase while a write is in progress. The status that shows the write-enable
latch shows that write, too, but the driver does not look at it, and the wait for the end of the
bulk erase then waits for that write in its place. So an erase that succeeds has left a blank ROM
unless a page commit was in progress when it began, which a wait for the commit may have given up
on.
-/

namespace Reflash

namespace SimulatedBoard

variable {b : SimulatedBoard}

/-- Nothing is wrong with the board, and only a page commit can be in progress unless its ROM is
blank. -/
structure Sound (b : SimulatedBoard) : Prop where
  faults_eq : b.faults = {}
  hung_eq : b.hung = false
  busy_le : b.busy ≤ b.latency.page ∨ b.rom = .blank

theorem Sound.runCommand (h : b.Sound) (field : UInt8) (closing : Bool) :
    (b.runCommand field closing).Sound := by
  unfold SimulatedBoard.runCommand
  cases Rom.Opcode.ofByte? field with
  | none => exact { h with }
  | some opcode =>
      cases opcode with
      | writeDisable | writeEnable | readId => exact { h with }
      | readStatus =>
          simp only [execute, reportStatus]
          split
          · exact { h with }
          · exact ⟨h.faults_eq, h.hung_eq, h.busy_le.imp_left (Nat.sub_le_of_le_add <| ·.step)⟩
      | autoRead =>
          refine ⟨h.faults_eq, ?_, h.busy_le⟩
          show (b.hung || b.faults.readHangs) = false
          rw [h.hung_eq, h.faults_eq]
          rfl
      | bulkErase =>
          simp only [execute, SimulatedBoard.bulkErase]
          split
          · refine ⟨?_, h.hung_eq, .inr rfl⟩
            dsimp only
            rw [h.faults_eq]
            rfl
          · exact { h with }
      | pageProgram =>
          simp only [execute, pageProgram, commitPage]
          split
          · exact { h with }
          · split
            · exact ⟨h.faults_eq, h.hung_eq, .inl (Nat.le_refl _)⟩
            · exact { h with }

theorem Sound.handler (h : b.Sound) (r : Request) : (Bus.handler r b).2.Sound := by
  cases r with
  | read address =>
      obtain ⟨_, _, hread⟩ := b.read_frame (SimulatedCrate.offset address)
      show (b.read _).2.Sound
      rw [hread]
      exact { h with }
  | write address value =>
      show (b.write _ value).Sound
      obtain ⟨_, _, _, hwrite⟩ | ⟨-, hwrite⟩ | ⟨-, -, hwrite⟩ | ⟨-, -, field, closing, hwrite⟩ :=
        b.write_cases (SimulatedCrate.offset address) value
      · rw [hwrite]
        exact { h with }
      · rw [hwrite]
        exact { h with }
      · rw [hwrite]
        exact { h with }
      · rw [hwrite]
        refine Sound.runCommand ?_ field closing
        exact { h with }
  | probe address =>
      show b.probe.2.Sound
      rw [probe_eq]
      exact { h with }
  | pause | tick | remark | report => exact h

end SimulatedBoard

/-! ## What a successful job leaves in the ROM -/

def Routine.Leaves {σ ε α : Type} [Outlined σ] (r : Job σ ε α) (s : σ) (b : SimulatedBoard)
    (rom : RomContents) : Prop :=
  ∃ out s' b', r.Yields s b out s' b' ∧ ∀ a, out = .ok a → b'.rom = rom

namespace Routine

variable {σ ε α β : Type} [Outlined σ] {s s' : σ} {b b' : SimulatedBoard} {rom : RomContents}
  {r : Job σ ε α} {f : α → Job σ ε β}

theorem Leaves.of_failed {e : ε} (h : r.Yields s b (.failed e) s' b') : r.Leaves s b rom :=
  Ensures.of_failed h

theorem Leaves.of_yields {a : α} (h : r.Yields s b (.ok a) s' b') (hrom : b'.rom = rom) :
    r.Leaves s b rom :=
  Ensures.of_yields h hrom

theorem Leaves.of_bind {a : α} (h : r.Yields s b (.ok a) s' b') (hf : (f a).Leaves s' b' rom) :
    (r >>= f).Leaves s b rom :=
  Ensures.of_bind h hf

/-- What is said of a job on the board alone holds of the crate around it. -/
theorem Ensures.run {slot : Slot} {c : SimulatedCrate} {holds : σ → Prop}
    {after : SimulatedBoard → Prop} (h : r.Ensures s b after)
    (halike : ∀ x y, Alike x y → after y → after x)
    (hkeeps : r.Keeps (Board.geographic slot).Owns holds) (hs : holds s)
    (hb : c.board? slot = some b) {a : α} (hok : ((r s).run Bus.handler c).1.1 = .ok a) :
    ∃ b', ((r s).run Bus.handler c).2.board? slot = some b' ∧ after b' := by
  obtain ⟨out, s', b', hyields, hafter⟩ := h
  obtain ⟨t, x, hrun, -, hx⟩ := hyields (.refl s) (.refl b)
  rw [SimulatedCrate.run_of_owns (hkeeps s hs) hb, hrun] at hok ⊢
  exact ⟨x, SimulatedCrate.board?_insert_self .., halike x b' hx (hafter a hok)⟩

end Routine

namespace RomSession

variable {s : RomSession} {slot : Slot} {b : SimulatedBoard} {onTick : Exchange Unit}
  (hs : s.board = .geographic slot)
include hs

private theorem leaves_startErase_bind {α : Type} (hopen : b.faults.writeProtected = false)
    {rest : Unit → RomJob α}
    (hrest : ∀ x : SimulatedBoard, 0 < s.budgets.commandReadyTries → x.Idle →
      (rest ()).Leaves s x x.rom) :
    (startErase >>= rest).Leaves s b (if b.busy ≤ 1 then .blank else b.rom) := by
  by_cases hanswers : b.AnswersWithin s.budgets.commandReadyTries
  · have hidle : b.settled.Idle := ⟨hanswers.1, rfl⟩
    have hwait := hrest _ (Nat.zero_lt_of_lt hanswers.2) hidle.askedToErase
    rw [SimulatedBoard.rom_askedToErase] at hwait
    exact .of_bind (yields_startErase hs hanswers hopen) hwait
  · exact .of_failed (yields_startErase_timeout hs hanswers).bind_failed

variable (hticks : onTick.IsSilent)
include hticks

theorem leaves_awaitErase (hready : 0 < s.budgets.commandReadyTries) (h : b.Idle) :
    (awaitErase onTick).Leaves s b b.rom := by
  by_cases hlt : b.busy < s.budgets.eraseTries
  · exact .of_yields (yields_awaitErase hs hready h hticks hlt) rfl
  · exact .of_failed (yields_awaitErase_timeout hs hready h hticks (Nat.not_lt.mp hlt))

theorem leaves_startErase (hopen : b.faults.writeProtected = false) :
    (do startErase; awaitErase onTick : RomJob Nat).Leaves s b
      (if b.busy ≤ 1 then .blank else b.rom) :=
  leaves_startErase_bind hs hopen fun _ hready hidle => leaves_awaitErase hs hticks hready hidle

theorem leaves_erase (hopen : b.faults.writeProtected = false) :
    (erase true onTick).Leaves s b (if b.busy ≤ 1 then .blank else b.rom) := by
  refine leaves_startErase_bind hs hopen fun x hready hidle => ?_
  rw [if_pos rfl]
  by_cases hlt : x.busy < s.budgets.eraseTries
  · exact .of_yields
      ((yields_awaitErase hs hready hidle hticks hlt).bind (Routine.yields_pure ())) rfl
  · exact .of_failed
      (yields_awaitErase_timeout hs hready hidle hticks (Nat.not_lt.mp hlt)).bind_failed

/-- While a page commit is in progress for longer than the status that shows the latch, an erase
succeeds and spares the ROM. -/
theorem yields_erase_ignored (hready : 0 < s.budgets.commandReadyTries) (h : b.Idle)
    (hopen : b.faults.writeProtected = false) (hbusy : 1 < b.busy)
    (hle : b.busy ≤ s.budgets.eraseTries) :
    (erase true onTick).Yields s b (.ok ()) s { b with writeEnabled := true, busy := 0 } := by
  let x : SimulatedBoard := { b with writeEnabled := true, busy := b.busy - 1 }
  have hasked : b.askedToErase = x := if_neg (Nat.not_le.mpr hbusy)
  have hlt : x.busy < s.budgets.eraseTries := by
    show b.busy - 1 < s.budgets.eraseTries
    omega
  have hstart := yields_startErase hs (h.answersWithin hready) hopen
  rw [h.settled_eq, hasked] at hstart
  refine hstart.bind ?_
  rw [if_pos rfl]
  exact (yields_awaitErase (b := x) hs hready h hticks hlt).bind (Routine.yields_pure ())

end RomSession

namespace BoardUpdate

variable {u : BoardUpdate} {slot : Slot} {b : SimulatedBoard} {onTick : Exchange Unit}
  (hu : u.board = .geographic slot) (hticks : onTick.IsSilent)
include hu hticks

theorem leaves_startErase (hopen : b.faults.writeProtected = false) :
    (do startErase; awaitErase onTick : UpdateJob Unit).Leaves u b
      (if b.busy ≤ 1 then .blank else b.rom) := by
  by_cases hphase : u.phase = .ready
  · by_cases hanswers : b.AnswersWithin u.rom.budgets.commandReadyTries
    · have hidle : b.settled.Idle := ⟨hanswers.1, rfl⟩
      let v : BoardUpdate := { u with phase := .erasing }
      have hready := Nat.zero_lt_of_lt hanswers.2
      refine .of_bind (yields_startErase hu hanswers hphase hopen) ?_
      have hrom := SimulatedBoard.rom_askedToErase b.settled
      by_cases hlt : b.settled.askedToErase.busy < u.rom.budgets.eraseTries
      · exact .of_yields
          (yields_awaitErase (u := v) hu hready hidle.askedToErase hticks rfl hlt) hrom
      · exact .of_failed (yields_awaitErase_timeout (u := v) hu hready hidle.askedToErase hticks
          rfl (Nat.not_lt.mp hlt))
    · exact .of_failed (yields_startErase_timeout hu hphase hanswers).bind_failed
  · have hrequire : ∃ e, (require .ready .erase).Fails u b e := fails_require hphase
    obtain ⟨failure, u', b', hrefused⟩ := hrequire
    have hstart : startErase.Yields u b (.failed failure) u' b' := hrefused.bind_failed
    exact .of_failed hstart.bind_failed

end BoardUpdate
/-! ## Crates with a history -/

namespace SimulatedCrate

/-- The crate can have come about from one with a fresh board in the slot, on which there was
nothing wrong and nothing in progress, by whatever was done on the bus since then. -/
inductive Reached (slot : Slot) : SimulatedCrate → Prop where
  | fresh (c : SimulatedCrate) (version : Version) (rebootVersion : Option Version)
      (latency : Latency) (rom : RomContents) :
      Reached slot (c.insert slot { version, rebootVersion, latency, rom })
  | exchange {α : Type} {c : SimulatedCrate} (h : Reached slot c) (d : Exchange α) :
      Reached slot (d.run Bus.handler c).2

variable {c : SimulatedCrate} {slot : Slot}

theorem Reached.sound (h : Reached slot c) : ∃ b, c.board? slot = some b ∧ b.Sound := by
  induction h with
  | fresh c version rebootVersion latency rom =>
      exact ⟨_, board?_insert_self .., rfl, rfl, .inl (Nat.zero_le _)⟩
  | exchange _ d ih =>
      obtain ⟨b, hb, hsound⟩ := ih
      exact board?_run d.keeps_true (fun r b _ h => h.handler r) hb hsound

/-- If the job succeeds on the crate, every word of the ROM in the slot reads as erased, unless a
page commit was in progress in the beginning; then the ROM is as it was. -/
def ErasesUnlessCommitting {σ ε α : Type} (c : SimulatedCrate) (slot : Slot)
    (job : Exchange (Outcome ε α × σ)) : Prop :=
  ∀ a, (job.run Bus.handler c).1.1 = .ok a →
    ∃ b b', c.board? slot = some b ∧ (job.run Bus.handler c).2.board? slot = some b' ∧
      ((∀ i, b'.rom.wordAt i = Rom.erasedWord) ∨
        1 < b.busy ∧ b.busy ≤ b.latency.page ∧ b'.rom = b.rom)

theorem erasesUnlessCommitting {σ ε α : Type} [Outlined σ] {r : Job σ ε α} {s : σ}
    {b : SimulatedBoard} {holds : σ → Prop} (hb : c.board? slot = some b) (hsound : b.Sound)
    (hleaves : r.Leaves s b (if b.busy ≤ 1 then .blank else b.rom))
    (hkeeps : r.Keeps (Board.geographic slot).Owns holds) (hs : holds s) :
    c.ErasesUnlessCommitting slot (r s) := by
  intro a hok
  have halike (x y : SimulatedBoard) (hxy : Alike x y) : x.rom = y.rom :=
    (congrArg SimulatedBoard.rom hxy.outline_eq :)
  obtain ⟨b', hb', hrom⟩ :=
    Routine.Ensures.run hleaves (fun x y hxy hy => (halike x y hxy).trans hy) hkeeps hs hb hok
  refine ⟨b, b', hb, hb', ?_⟩
  have hblank : b'.rom = .blank → ∀ i, b'.rom.wordAt i = Rom.erasedWord := by
    intro h i
    rw [h, RomContents.wordAt_blank]
  by_cases hbusy : b.busy ≤ 1
  · rw [if_pos hbusy] at hrom
    exact .inl (hblank hrom)
  · rw [if_neg hbusy] at hrom
    obtain hcommit | herased := hsound.busy_le
    · exact .inr ⟨Nat.lt_of_not_le hbusy, hcommit, hrom⟩
    · exact .inl (hblank (hrom.trans herased))

/-- Whatever happened to a board since it was fresh, an erase of its ROM that succeeds has erased
all of it, unless a page commit was in progress; and so has one in two halves, of a session or of an
update. -/
theorem erases_unless_committing (hc : Reached slot c) {s : RomSession}
    (hs : s.board = .geographic slot) {u : BoardUpdate} (hu : u.board = .geographic slot)
    {onTick : Exchange Unit} (hticks : onTick.IsSilent) :
    c.ErasesUnlessCommitting slot (RomSession.erase true onTick s) ∧
      c.ErasesUnlessCommitting slot
        ((do RomSession.startErase; RomSession.awaitErase onTick : RomJob Nat) s) ∧
      c.ErasesUnlessCommitting slot
        ((do BoardUpdate.startErase; BoardUpdate.awaitErase onTick : UpdateJob Unit) u) := by
  obtain ⟨b, hb, hsound⟩ := hc.sound
  have hfits := slot.fits_geographic
  have hopen : b.faults.writeProtected = false := by rw [hsound.faults_eq]
  have howns : ∀ r, (Board.geographic slot).Drives r → (Board.geographic slot).Owns r :=
    fun _ h => .inl (.inl h)
  have hstart := (RomSession.isProper_startErase _ hfits).mono howns
  have hawait := (RomSession.isProper_awaitErase hticks _ hfits).mono howns
  have herase := (RomSession.isProper_erase hticks _ hfits).mono howns
  have hhalves : (do RomSession.startErase; RomSession.awaitErase onTick : RomJob Nat).Keeps
      (Board.geographic slot).Owns fun s => s.board = .geographic slot :=
    .bind hstart fun _ => hawait
  have hsteps : (do BoardUpdate.startErase; BoardUpdate.awaitErase onTick : UpdateJob Unit).Keeps
      (Board.geographic slot).Owns fun u => u.board = .geographic slot :=
    .bind ((BoardUpdate.keeps_startErase hfits).mono fun _ => .inl) fun _ =>
      (BoardUpdate.keeps_awaitErase hfits hticks).mono fun _ => .inl
  exact ⟨erasesUnlessCommitting hb hsound (RomSession.leaves_erase hs hticks hopen) herase hs,
    erasesUnlessCommitting hb hsound (RomSession.leaves_startErase hs hticks hopen) hhalves hs,
    erasesUnlessCommitting hb hsound (BoardUpdate.leaves_startErase hu hticks hopen) hsteps hu⟩

/-- A session that reads the status once before it gives up on a page commit. -/
def hastySession : RomSession :=
  ⟨.geographic .third, { pageTries := 1 }, .immediate, {}⟩

/-- A crate with a fresh board in its third slot, on which a page commit takes five status reads. -/
def slowCrate : SimulatedCrate :=
  ({} : SimulatedCrate).insert .third
    { version := ⟨1, 2⟩, rom := .ofWords [1, 2], latency := { page := 5 } }

theorem slowCrate_reached : Reached .third slowCrate := .fresh {} _ _ _ _

theorem erases_unless_committing_slowCrate :
    ((RomSession.erase true Exchange.silent hastySession).run Bus.handler slowCrate).1.1 = .ok () ∧
      ∃ b', ((RomSession.erase true Exchange.silent hastySession).run Bus.handler
        slowCrate).2.board? .third = some b' ∧ ∀ i, b'.rom.wordAt i = Rom.erasedWord := by
  have hok : ((RomSession.erase true Exchange.silent hastySession).run Bus.handler
      slowCrate).1.1 = .ok () := by decide +kernel
  have hfree : (slowCrate.board? .third).map (·.busy) = some 0 := rfl
  obtain ⟨herase, -, -⟩ := erases_unless_committing slowCrate_reached (s := hastySession) rfl
    (u := .new hastySession.board {} .immediate) rfl Exchange.isSilent_silent
  obtain ⟨b, b', hb, hb', hblank | ⟨hbusy, -, -⟩⟩ := herase () hok
  · exact ⟨hok, b', hb', hblank⟩
  · rw [hb] at hfree
    have hnone : b.busy = 0 := Option.some.inj hfree
    omega

/-- A page commit that a session has given up on keeps the session from erasing the ROM, which it
takes for erased: what was programmed is still there. -/
theorem erase_spares_interrupted {b : SimulatedBoard} (hb : c.board? slot = some b) (hidle : b.Idle)
    (hbusy : b.busy = 0) (hopen : b.faults.writeProtected = false) (hpage : b.page = none)
    {s : RomSession} (hs : s.board = .geographic slot) (hready : 0 < s.budgets.commandReadyTries)
    (hslow : s.budgets.pageTries + 1 < b.latency.page)
    (herase : b.latency.page ≤ s.budgets.pageTries + s.budgets.eraseTries) {file : Image}
    {words : List UInt32} (hfile : file.contents? = some words)
    (hsize : file.sizeBytes ≤ Rom.maxImageBytes) (hshort : words.length < Rom.pageWords) :
    let programmed := (RomSession.program file Exchange.silent s).run Bus.handler c
    let erased :=
      (RomSession.erase true Exchange.silent programmed.1.2).run Bus.handler programmed.2
    programmed.1.1 = .failed (.writeTimeout s.budgets.pageTries) ∧ erased.1.1 = .ok () ∧
      ∃ b', erased.2.board? slot = some b' ∧
        ∀ i, b'.rom.wordAt i = b.rom.wordAt i &&& words.getD i Rom.flushWord := by
  have hfits := slot.fits_geographic
  have hsilent := Exchange.isSilent_silent
  have howns : ∀ r, (Board.geographic slot).Drives r → (Board.geographic slot).Owns r :=
    fun _ h => .inl (.inl h)
  let y : SimulatedBoard :=
    { b.filled 0 words with busy := b.latency.page - s.budgets.pageTries }
  have hprogram : (RomSession.program file Exchange.silent).Yields s b
      (.failed (.writeTimeout s.budgets.pageTries)) s y :=
    RomSession.yields_program_interrupted hs hready hfile hsize hidle hbusy hsilent hopen hshort
      (by omega)
  have hidle' : (b.filled 0 words).Idle := by rwa [SimulatedBoard.filled_eq]
  have hopen' : (b.filled 0 words).faults.writeProtected = false := by
    rwa [SimulatedBoard.filled_eq]
  have hcommit : y.busy = b.latency.page - s.budgets.pageTries := rfl
  have hignored : (RomSession.erase true Exchange.silent).Yields s y (.ok ()) s
      { y with writeEnabled := true, busy := 0 } :=
    RomSession.yields_erase_ignored hs hsilent hready hidle' hopen' (by omega) (by omega)
  obtain ⟨t, x, hrun, ht, hx⟩ := hprogram (.refl s) (.refl b)
  obtain ⟨t', x', hrun', -, hx'⟩ := hignored ht hx
  have ht' : t.board = .geographic slot := (RomSession.alike_iff.mp ht).1.trans hs
  have hkeeps := (RomSession.isProper_program hsilent file _ hfits).mono howns
  have hkeeps' := (RomSession.isProper_erase hsilent _ hfits).mono howns
  rw [run_of_owns (hkeeps s hs) hb, hrun]
  dsimp only
  rw [run_of_owns (hkeeps' t ht') (board?_insert_self ..), hrun']
  refine ⟨rfl, rfl, x', board?_insert_self .., fun i => ?_⟩
  have hrom : x'.rom = (b.filled 0 words).rom := (congrArg SimulatedBoard.rom hx'.outline_eq :)
  rw [hrom, SimulatedBoard.wordAt_filled hpage]

theorem erase_spares_interrupted_slowCrate :
    let programmed := (RomSession.program (.ofWords [0]) Exchange.silent hastySession).run
      Bus.handler slowCrate
    let erased :=
      (RomSession.erase true Exchange.silent programmed.1.2).run Bus.handler programmed.2
    Reached .third programmed.2 ∧ erased.1.1 = .ok () ∧
      ∃ b', erased.2.board? .third = some b' ∧ b'.rom.wordAt 0 ≠ Rom.erasedWord := by
  have hboard : slowCrate.board? .third =
      some { version := ⟨1, 2⟩, rom := .ofWords [1, 2], latency := { page := 5 } } :=
    board?_insert_self ..
  have hfile : (Image.ofWords [0]).contents? = some [0] := rfl
  obtain ⟨-, hok, b', hb', hwords⟩ := erase_spares_interrupted hboard ⟨⟨rfl, rfl⟩, rfl⟩ rfl rfl rfl
    (s := hastySession) rfl (by decide) (by decide) (by decide) hfile
    (by decide) (by decide)
  refine ⟨.exchange slowCrate_reached _, hok, b', hb', ?_⟩
  have hzero : ∀ word : UInt32, word &&& [(0 : UInt32)].getD 0 Rom.flushWord ≠ Rom.erasedWord := by
    intro word
    show word &&& 0 ≠ Rom.erasedWord
    rw [UInt32.and_zero]
    decide
  rw [hwords 0]
  exact hzero _

end SimulatedCrate
end Reflash
