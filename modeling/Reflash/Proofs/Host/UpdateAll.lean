import Reflash.Proofs.Host.Backup
import Reflash.Proofs.Update.Rerun
/-!
# Updating all boards from the command line

An update of all boards works on the boards that answer and that the configuration covers. Unless it
is forced, it leaves those alone whose firmware is the target, and updates each of the others as if
it were alone. Without a description of the crate the target is firmware 0/0, so that nothing is
left alone but a board that says that it runs just this firmware.
-/

namespace Reflash

/-- There is no description of the crate. The device may be another one, and the pauses may have
been left out. -/
def CrateConfig.IsUndescribed (config : CrateConfig) : Prop :=
  ∃ device timing, config = { ({} : CrateConfig) with device, update.timing := timing }

/-! ## The boards of a crate that answer -/

namespace SimulatedCrate

variable {c : SimulatedCrate} {slot : Slot} {slots : List Slot} {b : SimulatedBoard}

def answering (c : SimulatedCrate) (slots : List Slot) : List (Slot × SimulatedBoard) :=
  slots.filterMap fun slot => ((c.board? slot).filter (·.rebooting = 0)).map (slot, ·)

theorem mem_answering :
    (slot, b) ∈ c.answering slots ↔ slot ∈ slots ∧ c.board? slot = some b ∧ b.rebooting = 0 := by
  simp [answering, Option.filter_eq_some_iff]

end SimulatedCrate

/-- The boards found in the slots that are looked at are those that answer there. -/
theorem Registry.boards_eq_answering {registry : Registry} {c : SimulatedCrate}
    {looked : Slot → Bool}
    (h : ∀ slot, registry.base? slot =
      if looked slot = true ∧ c.isFound Register.boardId isFlashAdc slot = true then
        some slot.base
      else none) :
    registry.boards =
      (c.answering (Slot.all.filter looked)).map fun found => Board.geographic found.1 := by
  rw [boards, SimulatedCrate.answering, List.map_filterMap, List.filterMap_filter]
  refine List.filterMap_congr fun slot _ => ?_
  rw [h]
  cases hb : c.board? slot with
  | none =>
      have hnot : c.isFound Register.boardId isFlashAdc slot = false := by
        rw [SimulatedCrate.isFound, hb]
        rfl
      simp [hnot]
  | some b =>
      rw [SimulatedCrate.isFound_boardId hb]
      by_cases hback : b.rebooting = 0 <;> by_cases hlooked : looked slot = true <;>
        simp [hback, hlooked, Board.geographic]

/-! ## What the update makes of them -/

/-- The board when the tool has found it and looked at its firmware, which is three reads. -/
def SimulatedBoard.seen (b : SimulatedBoard) : SimulatedBoard :=
  { b with activity.reads := b.activity.reads + 3 }

namespace Host.Order

variable {o : Order} {files : Files} {c c' : SimulatedCrate} {path : String} {image : Image}
  {found : List (Slot × SimulatedBoard)} {entries : List (Slot × BoardStatus)}

/-- What comes of a board that an update of all boards has found, and the entry for it in the
report. -/
def Treats (o : Order) (image : Image) (c' : SimulatedCrate) (found : Slot × SimulatedBoard)
    (entry : Slot × BoardStatus) : Prop :=
  entry.1 = found.1 ∧
    if found.2.version = o.config.update.target then
      c'.board? found.1 = some found.2.seen ∧ entry.2 = .current
    else
      let job := BoardUpdate.run image
        (.new (.geographic found.1) o.config.update.budgets o.config.update.timing)
      let alone := job.run Bus.handler found.2.seen
      c'.board? found.1 = some alone.2 ∧ entry.2 = BoardStatus.updating.after alone.1.1

theorem Treats.skip_iff {board : Slot × SimulatedBoard} {entry : Slot × BoardStatus}
    (h : o.Treats image c' board entry) :
    entry.2.skip = true ↔ board.2.version = o.config.update.target := by
  obtain ⟨-, h⟩ := h
  split at h
  next hcurrent => exact iff_of_true (h.2 ▸ rfl) hcurrent
  next hother =>
    refine iff_of_false ?_ hother
    rw [h.2]
    -- However the update of the board ends, its entry is none of a board left alone.
    generalize Prod.fst _ = out
    cases out <;> exact Bool.false_ne_true

theorem skipped_eq (h : List.Forall₂ (o.Treats image c') found entries) :
    Report.skipped ⟨entries⟩ =
      found.countP fun board => board.2.version = o.config.update.target := by
  induction h with
  | nil => rfl
  | cons hfirst _ ih =>
      rw [Report.skipped] at ih ⊢
      rw [List.countP_cons, List.countP_cons, ih]
      simp only [hfirst.skip_iff, decide_eq_true_eq]

/-- The run ends with this report: its totals are the last thing shown, and the run fails if one of
the boards has. -/
def Concludes (o : Order) (r : Run Unit) (files : Files) (c : SimulatedCrate) (report : Report)
    (c' : SimulatedCrate) : Prop :=
  ∀ desk, ∃ desk' : Desk, Machine.run ⟨files, .inr (.ofCrate c), desk⟩ r =
    (if report.allOk then .ok () else .failed (.boardsFailed report.failed),
      ⟨files, .inr (.ofCrate c'), desk'.print (o.summary report ++ "\n")⟩)

theorem ends_confirm (hyes : o.arguments.yes = true) (n : Nat) :
    (o.confirm n).Ends files c (.ok ()) files c := by
  rw [confirm, hyes]
  exact Run.ends_ofExcept ()

theorem concludes_reprogramAll {registry : Registry} {report : Report}
    (hrun : ((CrateUpdate.run registry o.config.update image o.arguments.force :
      Job Unit RomError Report) ()).run Bus.handler c = ((.ok report, ()), c')) :
    o.Concludes (o.reprogramAll registry image) files c report c' := by
  intro desk
  have hmust : Run.Ends (.must .romFailed (CrateUpdate.run registry o.config.update image
      o.arguments.force) ()) files c (.ok (report, ())) files c' := Run.ends_must hrun
  obtain ⟨desk', hmust⟩ := hmust desk
  refine ⟨desk', ?_⟩
  rw [reprogramAll, Machine.run_bind_ok hmust]
  dsimp only
  rw [Run.say, Machine.run_bind_ok (Machine.run_ask _ _)]
  cases report.allOk <;> rfl

theorem treats_of_enters {slot : Slot} {b : SimulatedBoard} {st : BoardStatus}
    (hback : b.rebooting = 0)
    (h : CrateUpdate.Enters o.config.update image false slot
      { b with activity.reads := b.activity.reads + 1 } (c'.board? slot) (some st)) :
    o.Treats image c' (slot, b) (slot, st) := by
  have hback' : { b with activity.reads := b.activity.reads + 1 }.rebooting = 0 := hback
  have hseen : { b with activity.reads := b.activity.reads + 1 }.readTwice = b.seen := rfl
  refine ⟨rfl, ?_⟩
  rw [CrateUpdate.Enters, CrateUpdate.lookedAt_of_back hback', hseen] at h
  by_cases hcurrent : b.version = o.config.update.target
  · rw [if_pos hcurrent]
    rw [if_pos ((CrateUpdate.leavesAlone_iff hback').mpr ⟨rfl, hcurrent⟩)] at h
    exact ⟨h.1, Option.some.inj h.2⟩
  · rw [if_neg hcurrent]
    rw [if_neg fun hleaves => hcurrent ((CrateUpdate.leavesAlone_iff hback').mp hleaves).2] at h
    dsimp only at h ⊢
    exact ⟨h.1, Option.some.inj h.2⟩

theorem ends_findBoards_answering (o : Order) (files : Files) (c : SimulatedCrate) :
    let found := c.answering (Slot.all.filter o.config.covers)
    ∃ registry c₁,
      o.findBoards.Ends files c (if found = [] then .failed .noBoards else .ok registry) files c₁ ∧
      registry.slots = found.map Prod.fst ∧
      registry.boards = registry.slots.map Board.geographic ∧
      ∀ board ∈ found, board.2.rebooting = 0 ∧ c₁.board? board.1 =
        some { board.2 with activity.reads := board.2.activity.reads + 1 } := by
  intro found
  obtain ⟨registry, c₁, hfind, hbase, hprobed⟩ := o.ends_findBoards files c
  have hboards : registry.boards = found.map fun board => Board.geographic board.1 :=
    Registry.boards_eq_answering hbase
  have hslots : registry.slots = found.map Prod.fst := by
    rw [Registry.slots, hboards, List.map_map]
    rfl
  refine ⟨registry, c₁, ?_, hslots, ?_, ?_⟩
  · rw [Registry.isEmpty, hboards, List.isEmpty_map] at hfind
    simpa only [List.isEmpty_iff] using hfind
  · rw [hslots, hboards, List.map_map]
    rfl
  · rintro ⟨slot, b⟩ hmem
    obtain ⟨-, hb, hback⟩ := SimulatedCrate.mem_answering.mp hmem
    refine ⟨hback, ?_⟩
    rw [hprobed, hb, Option.map_some, SimulatedBoard.probed, if_pos hback, b.read_boardId]

theorem forall₂_treats {report : Report} (hslots : report.slots = found.map Prod.fst)
    (hnodup : report.slots.Nodup)
    (h : ∀ board ∈ found, ∀ st, report.status? board.1 = some st →
      o.Treats image c' board (board.1, st)) :
    List.Forall₂ (o.Treats image c') found report.boards := by
  have hsame : List.Forall₂ (fun board entry => board.1 = entry.1) found report.boards := by
    rw [← List.forall₂_map_right_iff, ← List.forall₂_map_left_iff, List.forall₂_eq_eq_eq, ← hslots]
    rfl
  -- Each entry stands where its board does, so that the boards can be seen to one by one.
  obtain ⟨hlength, hsame⟩ := List.forall₂_iff_zip.mp hsame
  refine List.forall₂_iff_zip.mpr ⟨hlength, fun {board entry} hmem => ?_⟩
  obtain ⟨_, st⟩ := entry
  obtain rfl := hsame hmem
  obtain ⟨hfound, hentry⟩ := List.of_mem_zip hmem
  exact h board hfound st (Report.status?_of_mem_boards hnodup hentry)

theorem exists_run_all (hyes : o.arguments.yes = true) (hforce : o.arguments.force = false)
    (hfile : o.arguments.file = some path)
    (himage : Image.ofFile path (files.read path) = .ok image) (c : SimulatedCrate) :
    let found := c.answering (Slot.all.filter o.config.covers)
    (found = [] → ∃ c', (o.run .all).Ends files c (.failed .noBoards) files c') ∧
      (found ≠ [] → ∃ report c', o.Concludes (o.run .all) files c report c' ∧
        List.Forall₂ (o.Treats image c') found report.boards) := by
  intro found
  obtain ⟨registry, c₁, hfind, hslots, hregistry, hback⟩ := o.ends_findBoards_answering files c
  refine ⟨fun hnone => ?_, fun hsome => ?_⟩
  · rw [if_pos hnone] at hfind
    exact ⟨c₁, hfind.bind_failed⟩
  rw [if_neg hsome] at hfind
  have hloaded : image.isLoaded = true := by
    rw [Image.isLoaded, (Image.words_of_ofFile himage).1]
    rfl
  have hthere : ∀ slot ∈ registry.slots, (c₁.board? slot).isSome = true := by
    intro slot hslot
    rw [hslots] at hslot
    obtain ⟨board, hmem, rfl⟩ := List.mem_map.mp hslot
    rw [(hback board hmem).2, Option.isSome_some]
  obtain ⟨report, c', hrun, hreport, henters⟩ := CrateUpdate.exists_report o.config.update hloaded
    o.arguments.force hregistry hthere ()
  refine ⟨report, c', fun desk => ?_, ?_⟩
  · obtain ⟨desk₁, hfound⟩ := hfind desk
    obtain ⟨desk₂, hread⟩ := ends_readImage hfile himage desk₁
    obtain ⟨desk₃, hagreed⟩ := ends_confirm hyes registry.size desk₂
    rw [Order.run, Machine.run_bind_ok hfound]
    dsimp only
    rw [updateAll_eq, Machine.run_bind_ok hread, Machine.run_bind_ok hagreed]
    exact concludes_reprogramAll hrun desk₃
  · refine forall₂_treats (hreport.trans hslots) (hreport ▸ registry.nodup_slots) ?_
    rintro ⟨slot, b⟩ hmem st hst
    obtain ⟨hback, hb₁⟩ := hback _ hmem
    have henter := henters slot (hslots ▸ List.mem_map_of_mem hmem) _ hb₁
    rw [hforce, hst] at henter
    exact treats_of_enters hback henter

/-- Without a description of the crate, an update of all boards that is not forced skips those whose
firmware is 0/0, and no others. Every other board that is found is updated, as it would be alone. -/
theorem run_all_undescribed (hconfig : o.config.IsUndescribed) (hyes : o.arguments.yes = true)
    (hforce : o.arguments.force = false) (hfile : o.arguments.file = some path)
    (himage : Image.ofFile path (files.read path) = .ok image) (c : SimulatedCrate) :
    let found := c.answering Slot.all
    (found = [] → ∃ c', (o.run .all).Ends files c (.failed .noBoards) files c') ∧
      (found ≠ [] → ∃ report c', o.Concludes (o.run .all) files c report c' ∧
        List.Forall₂ (o.Treats image c') found report.boards ∧
        report.skipped = found.countP fun board => board.2.version = ⟨0, 0⟩) := by
  obtain ⟨device, timing, hconfig⟩ := hconfig
  have hall : Slot.all.filter o.config.covers = Slot.all := by
    rw [hconfig]
    exact List.filter_eq_self.mpr fun _ _ => rfl
  obtain ⟨hnone, hsome⟩ := exists_run_all hyes hforce hfile himage c
  rw [hall] at hnone hsome
  refine ⟨hnone, fun hfound => ?_⟩
  obtain ⟨report, c', hconcludes, htreats⟩ := hsome hfound
  have hskipped := skipped_eq htreats
  rw [hconfig] at hskipped
  exact ⟨report, c', hconcludes, htreats, hskipped⟩

/-! ## A blank word for boards in two slots -/

def blankFiles : Files :=
  ({} : Files).store ⟨.working, "rom.bin"⟩ (.ofBytes (BigEndian.encode [Rom.erasedWord]))

def blankOrder : Order where
  arguments := { all := true, yes := true, file := some "rom.bin" }

private theorem ofFile_blankFiles :
    Image.ofFile "rom.bin" (blankFiles.read "rom.bin") =
      .ok { contents? := some [Rom.erasedWord], source? := some "rom.bin" } := by
  have hread : blankFiles.read "rom.bin" =
      .ok (.ofBytes (BigEndian.encode [Rom.erasedWord])) := by
    refine read_store_rom ?_
    show (BigEndian.encode [Rom.erasedWord]).size ≠ 0
    rw [BigEndian.size_encode]
    decide
  rw [hread, Image.ofFile_encode "rom.bin" (by decide)]
  exact if_neg (by decide)

/-- Boards in the third and in the fourth slot; the first of them says that it runs firmware 0/0. -/
def twoBoards : SimulatedCrate :=
  (SimulatedCrate.sole .third { version := ⟨0, 0⟩ }).insert .fourth { version := ⟨1, 2⟩ }

/-- Of the two boards, one is skipped and the other is updated. -/
theorem run_all_undescribed_twoBoards :
    blankOrder.config.IsUndescribed ∧ blankOrder.arguments.yes = true ∧
      blankOrder.arguments.force = false ∧ blankOrder.arguments.file = some "rom.bin" ∧
      ∃ image, Image.ofFile "rom.bin" (blankFiles.read "rom.bin") = .ok image ∧
        twoBoards.answering Slot.all =
          [(.third, { version := ⟨0, 0⟩ }), (.fourth, { version := ⟨1, 2⟩ })] ∧
        ∃ report c', blankOrder.Concludes (blankOrder.run .all) blankFiles twoBoards report c' ∧
          List.Forall₂ (blankOrder.Treats image c') (twoBoards.answering Slot.all) report.boards ∧
          report.size = 2 ∧ report.skipped = 1 := by
  have hconfig : blankOrder.config.IsUndescribed := ⟨_, _, rfl⟩
  have himage := ofFile_blankFiles
  have hfound : twoBoards.answering Slot.all ≠ [] := nofun
  obtain ⟨report, c', hconcludes, htreats, hskipped⟩ :=
    (run_all_undescribed hconfig rfl rfl rfl himage twoBoards).2 hfound
  exact ⟨hconfig, rfl, rfl, rfl, _, himage, rfl, report, c', hconcludes, htreats,
    htreats.length_eq.symm, hskipped⟩

/-- The only board of a crate is skipped, after three reads, as it runs firmware 0/0. -/
theorem skips_zero_firmware :
    let board : SimulatedBoard := { version := ⟨0, 0⟩ }
    let report : Report := ⟨[(.third, .current)]⟩
    ∃ c', blankOrder.Concludes (blankOrder.run .all) blankFiles (.sole .third board) report c' ∧
      c'.board? .third = some board.seen ∧ report.skipped = 1 ∧
      blankOrder.summary report = "1 boards, 1 skipped, 0 failed; passed mask 0x000000" := by
  intro board report
  have hfound : SimulatedCrate.answering (.sole .third board)
      (Slot.all.filter blankOrder.config.covers) = [(.third, board)] := rfl
  obtain ⟨⟨boards⟩, c', hconcludes, htreats⟩ :=
    (exists_run_all (o := blankOrder) rfl rfl rfl ofFile_blankFiles (.sole .third board)).2 nofun
  rw [hfound] at htreats
  obtain ⟨⟨slot, st⟩, rest, ⟨hslot, htreat⟩, hrest, rfl⟩ := List.forall₂_cons_left_iff.mp htreats
  obtain rfl := List.forall₂_nil_left_iff.mp hrest
  obtain ⟨hboard, rfl⟩ := htreat
  cases hslot
  exact ⟨c', hconcludes, hboard, rfl, by decide +kernel⟩

end Host.Order
end Reflash
