import Reflash.Proofs.Simulation.Conditions
import Reflash.Proofs.Update.Isolation
import Reflash.Proofs.Update.Refusal
/-!
# Images that are too large

An image that is too large for the ROM cannot be programmed, but an update to it erases the ROM all
the same. This costs every board its firmware that the update does not leave alone, unless a bulk
erase cannot be carried out on the board. Only then, or if the board does not answer its first
probe, is its ROM what it was.
-/

namespace Reflash

namespace SimulatedBoard

/-- Between a reset and the first word to be programmed, the ROM can be erased. -/
def IsWipeable (b : SimulatedBoard) (budgets : Budgets) : Prop :=
  b.reset.AnswersWithin budgets.readyTries ∧ 0 < budgets.commandReadyTries ∧
    b.faults.writeProtected = false ∧ b.busy ≤ 1

instance (b : SimulatedBoard) (budgets : Budgets) : Decidable (b.IsWipeable budgets) :=
  inferInstanceAs (Decidable (_ ∧ _))

/-- What an update that programs nothing leaves in the ROM. -/
def wipedRom (b : SimulatedBoard) (budgets : Budgets) : RomContents :=
  if b.IsWipeable budgets then .blank else b.rom

end SimulatedBoard

namespace Routine

variable {σ ε α β : Type} [Outlined σ] {s s' : σ} {b b' : SimulatedBoard} {rom : RomContents}
  {r : Job σ ε α} {f : α → Job σ ε β}

def Stops (r : Job σ ε α) (s : σ) (b : SimulatedBoard) (rom : RomContents) : Prop :=
  ∃ e s' b', r.Yields s b (.failed e) s' b' ∧ b'.rom = rom

theorem Yields.stops {e : ε} (h : r.Yields s b (.failed e) s' b') : r.Stops s b b'.rom :=
  ⟨e, s', b', h, rfl⟩

theorem Stops.bind (h : r.Stops s b rom) : (r >>= f).Stops s b rom := by
  obtain ⟨e, s', b', hr, hrom⟩ := h
  exact ⟨e, s', b', hr.bind_failed, hrom⟩

theorem Yields.bind_stops {a : α} (h : r.Yields s b (.ok a) s' b')
    (hf : (f a).Stops s' b' rom) : (r >>= f).Stops s b rom := by
  obtain ⟨e, s'', b'', hfails, hrom⟩ := hf
  exact ⟨e, s'', b'', h.bind hfails, hrom⟩

end Routine

namespace BoardUpdate

variable {u : BoardUpdate} {b : SimulatedBoard} {slot : Slot} {file : Image} {refusal : RomError}
  {step : Step} {rom : RomContents}

theorem stops_announced {body : Exchange Unit → UpdateJob Unit}
    (h : (body (Exchange.report (.ticked u.slot step))).Stops u b rom) :
    (announced step body).Stops u b rom := by
  obtain ⟨e, u', b', hbody, hrom⟩ := h
  exact ⟨e, u', b', yields_announced_failed hbody, hrom⟩

theorem stops_refill (hfile : file.refusal? = some refusal) (hphase : u.phase = .erased) :
    (refill file).Stops u b b.rom := by
  have hprogram : ∀ onTick, (RomSession.program file onTick).Yields u.rom b (.failed refusal) u.rom
      b := by
    intro onTick
    rw [RomSession.program_of_refused hfile]
    exact Routine.yields_fail refusal
  refine .bind (stops_announced ((yields_require hphase rfl).bind_stops ?_))
  exact (yields_conclude_failed (yields_onRom (hprogram _))).stops

section Board

variable (hu : u.board = .geographic slot)
include hu

theorem stops_init (hphase : u.phase = .init)
    (h : ¬(b.reset.AnswersWithin u.rom.budgets.readyTries ∧ 0 < u.rom.budgets.commandReadyTries)) :
    (announced .init fun _ => do reset; waitReady).Stops u b b.rom := by
  let v : BoardUpdate := { u with phase := .reset }
  refine stops_announced ((yields_reset hu hphase).bind_stops ?_)
  by_cases hanswers : b.reset.AnswersWithin u.rom.budgets.readyTries
  · have hnone : u.rom.budgets.commandReadyTries = 0 := by
      have hnot := not_and.mp h hanswers
      omega
    exact (yields_waitReady_unready (u := v) hu rfl hanswers hnone).stops
  · exact (yields_waitReady_timeout (u := v) hu rfl hanswers).stops

theorem yields_init (hphase : u.phase = .init)
    (hanswers : b.reset.AnswersWithin u.rom.budgets.readyTries)
    (hready : 0 < u.rom.budgets.commandReadyTries) :
    (announced .init fun _ => do reset; waitReady).Yields u b (.ok ()) { u with phase := .ready }
      b.reset.settled :=
  yields_announced fun _ => (yields_reset hu hphase).bind
    (yields_waitReady (u := { u with phase := .reset }) hu rfl hanswers hready)

/-- Once the board is ready, it is asked to erase its ROM, whatever comes of the refused image. -/
theorem stops_erase_refill (hfile : file.refusal? = some refusal)
    (hready : 0 < u.rom.budgets.commandReadyTries) (hidle : b.Idle) (hphase : u.phase = .ready) :
    (do
      announced .erase fun onTick => do
        startErase
        awaitErase onTick
      refill file : UpdateJob Unit).Stops u b
        (if b.faults.writeProtected = false ∧ b.busy ≤ 1 then .blank else b.rom) := by
  let v : BoardUpdate := { u with phase := .erasing }
  have hticks := Exchange.isSilent_report (.ticked u.slot .erase)
  have hanswers := hidle.answersWithin hready
  by_cases hopen : b.faults.writeProtected = false
  · have hstarts := yields_startErase hu hanswers hphase hopen
    rw [hidle.settled_eq] at hstarts
    simp only [hopen, true_and, ← b.rom_askedToErase]
    have hidle' := hidle.askedToErase
    by_cases hlt : b.askedToErase.busy < u.rom.budgets.eraseTries
    · have herased : (announced .erase fun onTick => do startErase; awaitErase onTick).Yields u b
          (.ok ()) { u with phase := .erased } { b.askedToErase with busy := 0 } :=
        yields_announced fun e => hstarts.bind
          (yields_awaitErase (u := v) hu hready hidle' (Exchange.isSilent_report e) rfl hlt)
      exact herased.bind_stops (stops_refill hfile rfl)
    · refine .bind (stops_announced (hstarts.bind_stops ?_))
      exact (yields_awaitErase_timeout (u := v) hu hready hidle' hticks rfl
        (Nat.not_lt.mp hlt)).stops
  · have hprotected := Bool.not_eq_false _ ▸ hopen
    rw [if_neg fun h => hopen h.1]
    exact .bind (stops_announced
      (.bind (yields_startErase_protected hu hanswers hphase hprotected).stops))

/-- An update to a refused image fails, and by then the ROM has been erased if it can be. -/
theorem stops_runSteps (hfile : file.refusal? = some refusal) (hphase : u.phase = .init) :
    (runSteps file).Stops u b (b.wipedRom u.rom.budgets) := by
  have hsteps : runSteps file = announced .init (fun _ => do reset; waitReady) >>= fun _ =>
      (do
        announced .erase fun onTick => do
          startErase
          awaitErase onTick
        refill file : UpdateJob Unit) >>= fun _ => restart := by
    simp only [runSteps_eq, prepare, wipe, bind_assoc]
  rw [hsteps, SimulatedBoard.wipedRom]
  by_cases hinit : b.reset.AnswersWithin u.rom.budgets.readyTries ∧
      0 < u.rom.budgets.commandReadyTries
  · obtain ⟨hanswers, hready⟩ := hinit
    have hwipe : (b.IsWipeable u.rom.budgets) ↔ b.faults.writeProtected = false ∧ b.busy ≤ 1 := by
      unfold SimulatedBoard.IsWipeable
      rw [and_iff_right hanswers, and_iff_right hready]
    have hidle : b.reset.settled.Idle := ⟨hanswers.1, rfl⟩
    simp only [hwipe]
    exact (yields_init hu hphase hanswers hready).bind_stops
      (.bind (stops_erase_refill (u := { u with phase := .ready }) hu hfile hready hidle rfl))
  · rw [if_neg fun h => hinit ⟨h.1, h.2.1⟩]
    exact (stops_init hu hphase hinit).bind

theorem run_refused (hfile : file.refusal? = some refusal) (hphase : u.phase = .init) :
    (∃ failure, ((run file u).run Bus.handler b).1.1 = .failed failure) ∧
      ((run file u).run Bus.handler b).2.rom = b.wipedRom u.rom.budgets := by
  obtain ⟨failure, u', b', hsteps, hrom⟩ := stops_runSteps hu hfile hphase
  obtain ⟨u'', x, hrun, -, hx⟩ := yields_run_failed hsteps (.refl u) (.refl b)
  have hsame : x.rom = b'.rom := (congrArg SimulatedBoard.rom hx.outline_eq :)
  rw [hrun]
  exact ⟨⟨failure, rfl⟩, hsame.trans hrom⟩

end Board
end BoardUpdate

/-! ## On a crate -/

namespace SimulatedBoard

variable (b : SimulatedBoard) (budgets : Budgets)

theorem rom_read (offset : UInt32) : (b.read offset).2.rom = b.rom := by
  obtain ⟨notReady, rebooting, hread⟩ := b.read_frame offset
  rw [hread]

theorem wipedRom_read (offset : UInt32) :
    (b.read offset).2.wipedRom budgets = b.wipedRom budgets := by
  obtain ⟨notReady, rebooting, hread⟩ := b.read_frame offset
  rw [hread]
  rfl

theorem rom_probed (offset : UInt32) : (b.probed offset).2.rom = b.rom := by
  unfold probed
  split
  · exact b.rom_read offset
  · rfl

theorem wipedRom_probed (offset : UInt32) :
    (b.probed offset).2.wipedRom budgets = b.wipedRom budgets := by
  unfold probed
  split
  · exact b.wipedRom_read budgets offset
  · rfl

end SimulatedBoard

namespace SimulatedCrate

variable {c : SimulatedCrate} {slot : Slot}

def rom? (c : SimulatedCrate) (slot : Slot) : Option RomContents :=
  (c.board? slot).map SimulatedBoard.rom

theorem handler_of_vacant {r : Request} (hr : r.InWindow slot) (h : c.board? slot = none) :
    (Bus.handler r c).2 = c := by
  have hnone : ∀ {address : UInt32}, Slot.ofAddress? address = some slot →
      c.decode? address = none := by
    intro address haddress
    rw [decode?, haddress]
    simp [h]
  cases r with
  | read address =>
      show (c.read address).2 = c
      rw [SimulatedCrate.read, hnone hr]
  | write address value =>
      have hslot : Slot.ofAddress? address = some slot := hr
      show c.write address value = c
      rw [SimulatedCrate.write, hslot]
      exact modify_of_vacant h _
  | probe address =>
      show (c.probe address).2 = c
      rw [SimulatedCrate.probe, hnone hr]
  | pause | tick | remark | report => rfl

theorem run_of_vacant {α : Type} {d : Exchange α} {promised : α → Prop}
    (hd : d.Keeps (Request.InWindow slot) promised) (h : c.board? slot = none) :
    (d.run Bus.handler c).2 = c := by
  refine hd.run_preserves (fun c' : SimulatedCrate => c' = c) ?_ rfl
  rintro r c' hr rfl
  exact handler_of_vacant hr h

/-- An update of the board in one slot does not reach another ROM than that board's. -/
theorem rom?_run_refused {file : Image} {refusal : RomError} (hfile : file.refusal? = some refusal)
    (slot : Slot) (budgets : Budgets) (timing : Timing) (c : SimulatedCrate) (other : Slot) :
    let update := BoardUpdate.new (.geographic slot) budgets timing
    ((BoardUpdate.run file update).run Bus.handler c).2.rom? other =
      (c.board? other).map fun b => if other = slot then b.wipedRom budgets else b.rom := by
  intro update
  have howns := BoardUpdate.keeps_run slot.fits_geographic file update rfl
  cases hb : c.board? slot with
  | none =>
      have hwindow := howns.mono (fun _ => Board.Owns.inWindow) fun _ h => h
      rw [run_of_vacant hwindow hb, rom?]
      by_cases h : other = slot
      · rw [h, hb, Option.map_none, Option.map_none]
      · simp only [h, if_false]
  | some b =>
      rw [run_of_owns howns hb, rom?]
      dsimp only
      by_cases h : other = slot
      · obtain ⟨-, hrom⟩ := BoardUpdate.run_refused (u := update) (b := b) rfl hfile rfl
        rw [h, board?_insert_self, hb, Option.map_some, Option.map_some, if_pos rfl, hrom]
        rfl
      · rw [board?_insert_of_ne c _ h]
        simp only [h, if_false]

end SimulatedCrate

namespace CrateUpdate

variable {c : SimulatedCrate} {slot : Slot} {b : SimulatedBoard} {config : UpdateConfig}
  {force : Bool}

theorem versionReads_of_back (h : b.rebooting = 0) : b.versionReads.1 = b.version := by
  unfold SimulatedBoard.versionReads
  rw [SimulatedBoard.read_controlVersion, if_pos h]
  dsimp only
  rw [SimulatedBoard.read_processingVersion]
  dsimp only
  rw [if_pos (by omega), UInt16.toUInt16_toUInt32, UInt16.toUInt16_toUInt32]

/-- The update of a crate does not leave the board alone: it answers, and it is not known to run the
target firmware. -/
def IsUpdated (config : UpdateConfig) (force : Bool) (b : SimulatedBoard) : Prop :=
  b.rebooting = 0 ∧ (force = true ∨ b.version.combined ≠ config.target.combined)

instance : Decidable (IsUpdated config force b) := inferInstanceAs (Decidable (_ ∧ _))

theorem isUpdated_iff :
    IsUpdated config force b ↔
      b.rebooting = 0 ∧ leavesAlone config force (b.probed Register.boardId).2 = false := by
  refine and_congr_right fun hback => ?_
  have hback' : (b.probed Register.boardId).2.rebooting = 0 := by
    rw [SimulatedBoard.probed, if_pos hback]
    exact hback
  have hversion : (b.probed Register.boardId).2.version = b.version := by
    rw [SimulatedBoard.probed, if_pos hback]
    rfl
  rw [leavesAlone, versionReads_of_back hback', hversion]
  cases force <;> simp

theorem wipedRom_lookedAt (budgets : Budgets) :
    (lookedAt force b).wipedRom budgets = b.wipedRom budgets := by
  unfold lookedAt
  split
  · rfl
  · exact (SimulatedBoard.wipedRom_read ..).trans (SimulatedBoard.wipedRom_read ..)

theorem rom_lookedAt : (lookedAt force b).rom = b.rom := by
  unfold lookedAt
  split
  · rfl
  · exact (SimulatedBoard.rom_read ..).trans (SimulatedBoard.rom_read ..)

theorem rom_of_enlisted {file : Image} {refusal : RomError}
    (hrefused : file.refusal? = some refusal) (hback : b.rebooting = 0)
    {board' : Option SimulatedBoard} {status : Option BoardStatus}
    (h : let looked := lookedAt force (b.probed Register.boardId).2
      if leavesAlone config force (b.probed Register.boardId).2 then
        board' = some looked ∧ status = some .current
      else
        let job := BoardUpdate.run file (.new (.geographic slot) config.budgets config.timing)
        let alone := job.run Bus.handler looked
        board' = some alone.2 ∧ status = some (BoardStatus.updating.after alone.1.1)) :
    (∀ st, status = some st → st.skip = true ∨ st.passed = false) ∧
      board'.map SimulatedBoard.rom =
        some (if IsUpdated config force b then b.wipedRom config.budgets else b.rom) := by
  dsimp only at h
  have hupdated : IsUpdated config force b ↔
      ¬leavesAlone config force (b.probed Register.boardId).2 = true := by
    rw [isUpdated_iff, and_iff_right hback, Bool.not_eq_true]
  by_cases hleaves : leavesAlone config force (b.probed Register.boardId).2 = true
  · rw [if_pos hleaves] at h
    obtain ⟨rfl, rfl⟩ := h
    rw [if_neg fun hup => hupdated.mp hup hleaves]
    refine ⟨fun st hst => ?_, ?_⟩
    · obtain rfl := Option.some.inj hst
      exact .inl rfl
    · rw [Option.map_some, rom_lookedAt, SimulatedBoard.rom_probed]
  · rw [if_neg hleaves] at h
    obtain ⟨rfl, rfl⟩ := h
    obtain ⟨⟨failure, hfails⟩, hrom⟩ :=
      BoardUpdate.run_refused (u := .new (.geographic slot) config.budgets config.timing)
        (b := lookedAt force (b.probed Register.boardId).2) rfl hrefused rfl
    rw [if_pos (hupdated.mpr hleaves)]
    refine ⟨fun st hst => ?_, ?_⟩
    · rw [hfails] at hst
      obtain rfl := Option.some.inj hst
      exact .inr rfl
    · rw [Option.map_some, hrom, wipedRom_lookedAt, SimulatedBoard.wipedRom_probed]
      rfl

/-- The update of a crate to a refused image: every board that is not left alone fails, and has its
ROM erased if that is possible. -/
theorem run_refused {file : Image} {refusal : RomError} (hrefused : file.refusal? = some refusal)
    (hfile : file.isLoaded = true) (c : SimulatedCrate) (config : UpdateConfig) (force : Bool) :
    ∃ registry c₁ report c₂,
      ((Registry.discover Register.boardId isFlashAdc : Job Unit RomError Registry) ()).run
          Bus.handler c = ((.ok registry, ()), c₁) ∧
      ((run registry config file force : Job Unit RomError Report) ()).run Bus.handler c₁ =
          ((.ok report, ()), c₂) ∧
      ∀ slot,
        (∀ st, report.status? slot = some st → st.skip = true ∨ st.passed = false) ∧
        c₂.rom? slot = (c.board? slot).map fun b =>
          if IsUpdated config force b then b.wipedRom config.budgets else b.rom := by
  have hid : Register.boardId ≤ Register.engineStatus := by decide
  obtain ⟨registry, c₁, hdiscover, hfound, hboards⟩ :=
    Registry.run_discover_eq hid isFlashAdc () c
  have hin : registry.IsIn c₁ := Registry.isIn_of_found hfound fun slot => by
    rw [hboards, Option.isSome_map]
  have hthere : ∀ slot ∈ registry.slots, (c₁.board? slot).isSome = true := by
    intro slot hslot
    obtain ⟨base, hbase⟩ := Registry.mem_slots.mp hslot
    exact (hin slot base hbase).2
  obtain ⟨c₂, report, hfill, hframe, hslots⟩ :=
    run_fill config file force registry.nodup_slots hthere
  rw [← boards_eq_of_isIn hin] at hfill
  refine ⟨registry, c₁, report, c₂, hdiscover, run_eq_of_fill hfile hfill, fun slot => ?_⟩
  have hmem : slot ∈ registry.slots ↔ _ := Registry.mem_slots_iff_isFound hfound
  by_cases hslot : c.isFound Register.boardId isFlashAdc slot = true
  · obtain ⟨b, hb, hback⟩ := SimulatedCrate.exists_of_isFound_boardId hslot
    have hprobed : c₁.board? slot = some (b.probed Register.boardId).2 := by
      rw [hboards, hb, Option.map_some]
    rw [hb, Option.map_some]
    exact rom_of_enlisted hrefused hback (hslots slot (hmem.mpr hslot) _ hprobed)
  · obtain ⟨hboard, hstatus⟩ := hframe slot (mt hmem.mp hslot)
    constructor
    · intro st hst
      cases hstatus.symm.trans hst
    · rw [SimulatedCrate.rom?, hboard, hboards]
      cases hb : c.board? slot with
      | none => rfl
      | some b =>
          have haway : ¬b.rebooting = 0 := by
            rwa [SimulatedCrate.isFound_boardId hb, decide_eq_true_iff] at hslot
          rw [Option.map_some, Option.map_some, Option.map_some, SimulatedBoard.rom_probed,
            if_neg fun h => haway h.1]

/-- An image that is too large for the ROM never gets into it, and yet no update to it, of one board
or of a crate, spares the ROMs: all that can be erased are, except on boards that are away or left
alone. No such update succeeds, and no board is reported to have passed. -/
theorem run_oversized (c : SimulatedCrate) (config : UpdateConfig) (force : Bool) {file : Image}
    (hfile : file.isLoaded = true) (hsize : Rom.maxImageBytes < file.sizeBytes) :
    (∀ slot,
      let update := BoardUpdate.new (.geographic slot) config.budgets config.timing
      let after := (BoardUpdate.run file update).run Bus.handler c
      (after.1.1 = .failed ⟨slot, .program, .badTransferSize file.sizeBytes⟩ ∨
        ∃ step ∈ [Step.init, Step.erase], ∃ cause, after.1.1 = .failed ⟨slot, step, cause⟩) ∧
      ∀ other, after.2.rom? other = (c.board? other).map fun b =>
        if other = slot then b.wipedRom config.budgets else b.rom) ∧
    ∃ registry c₁ report c₂,
      ((Registry.discover Register.boardId isFlashAdc : Job Unit RomError Registry) ()).run
          Bus.handler c = ((.ok registry, ()), c₁) ∧
      ((run registry config file force : Job Unit RomError Report) ()).run Bus.handler c₁ =
          ((.ok report, ()), c₂) ∧
      ∀ slot,
        (∀ st, report.status? slot = some st → st.skip = true ∨ st.passed = false) ∧
        c₂.rom? slot = (c.board? slot).map fun b =>
          if IsUpdated config force b then b.wipedRom config.budgets else b.rom := by
  have hrefused : file.refusal? = some (.badTransferSize file.sizeBytes) := by
    have hcontents : file.contents? ≠ none := Option.isSome_iff_ne_none.mp hfile
    rw [Image.refusal?, if_neg hcontents, if_pos hsize]
  refine ⟨fun slot => ⟨?_, ?_⟩, run_refused hrefused hfile c config force⟩
  · exact BoardUpdate.run_refused_failed slot.fits_geographic hrefused config.budgets
      config.timing c
  · exact SimulatedCrate.rom?_run_refused hrefused slot config.budgets config.timing c

def oversizedImage : Image :=
  .ofWords (List.replicate (Rom.maxImageBytes / Rom.wordBytes + 1) 7)

theorem maxImageBytes_lt_oversizedImage : Rom.maxImageBytes < oversizedImage.sizeBytes := by
  have hcontents : oversizedImage.contents? =
      some (List.replicate (Rom.maxImageBytes / Rom.wordBytes + 1) 7) := rfl
  rw [oversizedImage.sizeBytes_eq hcontents, List.length_replicate]
  decide

theorem run_oversized_thirdSlotCrate :
    oversizedImage.isLoaded = true ∧ Rom.maxImageBytes < oversizedImage.sizeBytes ∧
      ∃ (registry : Registry) (c₁ : SimulatedCrate) (report : Report) (c₂ : SimulatedCrate),
        ((Registry.discover Register.boardId isFlashAdc : Job Unit RomError Registry) ()).run
            Bus.handler BoardUpdate.thirdSlotCrate = ((.ok registry, ()), c₁) ∧
        ((run registry { target := ⟨3, 4⟩ } oversizedImage false :
            Job Unit RomError Report) ()).run Bus.handler c₁ = ((.ok report, ()), c₂) ∧
        c₂.rom? ⟨3, by decide, by decide⟩ = some .blank := by
  have hloaded : oversizedImage.isLoaded = true := rfl
  have hlarge := maxImageBytes_lt_oversizedImage
  -- The image is not to be evaluated.
  generalize oversizedImage = file at hloaded hlarge ⊢
  obtain ⟨-, registry, c₁, report, c₂, hdiscover, hrun, hslots⟩ := run_oversized
    BoardUpdate.thirdSlotCrate { target := ⟨3, 4⟩ } false hloaded hlarge
  refine ⟨hloaded, hlarge, registry, c₁, report, c₂, hdiscover, hrun, ?_⟩
  rw [(hslots _).2, BoardUpdate.thirdSlotCrate, SimulatedCrate.board?_insert_self, Option.map_some,
    if_pos (by decide), SimulatedBoard.wipedRom, if_pos (by decide)]

/-- So does an update of that board: its firmware is gone before the image is refused. -/
theorem run_oversized_erases :
    Rom.maxImageBytes < oversizedImage.sizeBytes ∧
      let slot : Slot := ⟨3, by decide, by decide⟩
      let update := BoardUpdate.new (.geographic slot) {} .immediate
      let after :=
        (BoardUpdate.run oversizedImage update).run Bus.handler BoardUpdate.thirdSlotCrate
      BoardUpdate.thirdSlotCrate.rom? slot = some (.ofWords [1, 2]) ∧
        after.2.rom? slot = some .blank ∧
        (RomContents.ofWords [1, 2]).wordAt 0 ≠ RomContents.blank.wordAt 0 := by
  have hlarge := maxImageBytes_lt_oversizedImage
  have hrefused : oversizedImage.refusal? = some (.badTransferSize oversizedImage.sizeBytes) := by
    have hcontents : oversizedImage.contents? ≠ none := Option.some_ne_none _
    rw [Image.refusal?, if_neg hcontents, if_pos hlarge]
  -- The image is not to be evaluated.
  generalize oversizedImage = file at hlarge hrefused ⊢
  have hwords : RomContents.ofWords [1, 2] = (RomContents.blank.load 0 1).load 1 2 := rfl
  have hword : (RomContents.ofWords [1, 2]).wordAt 0 = 1 := by
    rw [hwords, RomContents.wordAt_load, if_neg (by decide), RomContents.wordAt_load, if_pos rfl]
  refine ⟨hlarge, ?_, ?_, by rw [hword, RomContents.wordAt_blank]; decide⟩
  · rw [SimulatedCrate.rom?, BoardUpdate.thirdSlotCrate, SimulatedCrate.board?_insert_self]
    rfl
  · rw [SimulatedCrate.rom?_run_refused hrefused, BoardUpdate.thirdSlotCrate,
      SimulatedCrate.board?_insert_self, Option.map_some, if_pos rfl, SimulatedBoard.wipedRom,
      if_pos (by decide)]

end CrateUpdate
end Reflash
