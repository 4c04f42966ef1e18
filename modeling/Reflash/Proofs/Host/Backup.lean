import Reflash.Crate.Description
import Reflash.Proofs.Host.Conduct
import Reflash.Proofs.Host.Files
import Reflash.Proofs.Host.Finding
import Reflash.Proofs.Host.Reading
/-!
# Saving a ROM and verifying it against the file

What the tool saves of a board's ROM are the words that the ROM's read command shows, and as long as
an image can be so large, the file is accepted and verified on that board. The sizes that a crate's
description may ask for go up to the whole ROM, and images up to its last page only: what is saved
beyond that can be kept, but not read as an image again.
-/

deriving instance DecidableEq for Reflash.CrateConfig

namespace Reflash

/-! ## Described sizes -/

theorem CrateDescription.isImageSize_of_check {d : CrateDescription} {config : CrateConfig}
    (h : d.check = .ok config) : isImageSize config.update.imageSizeBytes = true := by
  obtain ⟨listed, -, hsize⟩ := exists_of_bind_eq_ok h
  dsimp only at hsize
  split at hsize
  next => cases hsize
  next hnot =>
    cases hsize
    simpa using hnot

namespace CrateConfig

/-- The configuration that there is without a description, or one that some text describes. The
device may be another one, and the pauses may have been left out. -/
def IsDescribed (config : CrateConfig) : Prop :=
  ∃ described : CrateConfig,
    (described = {} ∨ ∃ text, CrateConfig.ofText text = .ok described) ∧
      config = { described with device := config.device, update.timing := config.update.timing }

theorem isImageSize_of_ofText {text : String} {config : CrateConfig}
    (h : ofText text = .ok config) :
    CrateDescription.isImageSize config.update.imageSizeBytes = true := by
  obtain ⟨document, -, h⟩ := exists_of_bind_eq_ok h
  obtain ⟨d, -, h⟩ := exists_of_bind_eq_ok h
  cases hcheck : d.check with
  | error cause =>
      rw [hcheck] at h
      cases h
  | ok checked =>
      rw [hcheck] at h
      cases h
      exact CrateDescription.isImageSize_of_check hcheck

theorem IsDescribed.imageSizeBytes_eq {config : CrateConfig} (h : config.IsDescribed) :
    ∃ count, config.update.imageSizeBytes = count * Rom.wordBytes ∧ 0 < count ∧
      count ≤ Rom.capacity / Rom.wordBytes := by
  obtain ⟨described, hdescribed, heq⟩ := h
  have hsame : config.update.imageSizeBytes = described.update.imageSizeBytes := by rw [heq]
  have hsize : CrateDescription.isImageSize config.update.imageSizeBytes = true := by
    rw [hsame]
    obtain rfl | ⟨text, htext⟩ := hdescribed
    · decide
    · exact isImageSize_of_ofText htext
  simp only [CrateDescription.isImageSize, Bool.and_eq_true, decide_eq_true_eq, beq_iff_eq] at hsize
  generalize config.update.imageSizeBytes = size at hsize
  unfold Rom.wordBytes Rom.capacity at *
  exact ⟨size / 4, by omega, by omega, by omega⟩

end CrateConfig

/-! ## Saving -/

namespace Host.Order

variable {o : Order} {files : Files} {c : SimulatedCrate} {slot : Slot} {b : SimulatedBoard}
  {path : String} {count : Nat}

theorem file_eq (hfile : o.arguments.file = some path) :
    o.file = Routine.ofExcept (.ok path) := by
  rw [file, Arguments.neededFile, hfile]
  rfl

/-- Saving writes what reads back, if the file can be written, and leaves a board that can be read
back again. -/
theorem ends_save (hfile : o.arguments.file = some path)
    (hcount : o.config.update.imageSizeBytes = count * Rom.wordBytes)
    (hsize : count ≤ Rom.capacity / Rom.wordBytes) (hb : c.board? slot = some b)
    (h : b.ReadsBack o.config.update.budgets) :
    ∃ c' b', c'.board? slot = some b' ∧ Alike b' b.settled ∧ ∀ files : Files,
      match files.write path (.ofBytes (BigEndian.encode (b.readWords count))) with
      | .ok files' => (o.save (.geographic slot)).Ends files c (.ok ()) files' c'
      | .error cause => (o.save (.geographic slot)).Ends files c
          (.failed (.badImage (.inaccessible path cause))) files c' := by
  obtain ⟨c', b', hb', halike, hread⟩ := ends_readBack hb h hsize
  refine ⟨c', b', hb', halike, fun files => ?_⟩
  rw [save, file_eq hfile, hcount]
  split
  next files' hwrite =>
    refine Run.Ends.bind (Run.ends_ofExcept path) ((hread files).bind ?_)
    refine Run.Ends.bind (Run.ends_ofExcept (BigEndian.encode (b.readWords count))) ?_
    refine (Run.ends_writeFile hwrite).bind (Run.Ends.bind (Run.ends_ofExcept ()) ?_)
    exact Run.ends_say _
  next cause hwrite =>
    refine Run.Ends.bind (Run.ends_ofExcept path) ((hread files).bind ?_)
    refine Run.Ends.bind (Run.ends_ofExcept (BigEndian.encode (b.readWords count))) ?_
    exact (Run.ends_writeFile_failed hwrite).bind (Run.Ends.bind_failed (Run.ends_fail _))

theorem ok_of_run_save {m m' : Machine} (hfile : o.arguments.file = some path)
    (hcount : o.config.update.imageSizeBytes = count * Rom.wordBytes) (hpos : 0 < count)
    (hsize : count ≤ Rom.capacity / Rom.wordBytes) (hbus : m.bus = .inr (.ofCrate c))
    (hb : c.board? slot = some b) (hrun : m.run (o.save (.geographic slot)) = (.ok (), m')) :
    b.ReadsBack o.config.update.budgets ∧
      m.files.write path (.ofBytes (BigEndian.encode (b.readWords count))) = .ok m'.files ∧
      ∃ c' b', m'.bus = .inr (.ofCrate c') ∧ c'.board? slot = some b' ∧ Alike b' b.settled := by
  have hreads : b.ReadsBack o.config.update.budgets := by
    by_cases h : b.ReadsBack o.config.update.budgets
    · exact h
    · obtain ⟨e, c', hfails⟩ := ends_readBack_failed hb h hpos hsize
      have hsave : (o.save (.geographic slot)).Ends m.files c (.failed e) m.files c' := by
        rw [save, file_eq hfile, hcount]
        exact Run.Ends.bind (Run.ends_ofExcept path) (hfails _).bind_failed
      obtain ⟨habsurd, -⟩ := hsave.eq_of_run rfl hbus hrun
      cases habsurd
  refine ⟨hreads, ?_⟩
  obtain ⟨c', b', hb', halike, hsave⟩ := ends_save hfile hcount hsize hb hreads
  specialize hsave m.files
  split at hsave
  next files' hwrite =>
    obtain ⟨-, hfiles, hbus'⟩ := hsave.eq_of_run rfl hbus hrun
    exact ⟨hfiles ▸ hwrite, c', b', hbus', hb', halike⟩
  next cause hwrite =>
    obtain ⟨habsurd, -⟩ := hsave.eq_of_run rfl hbus hrun
    cases habsurd

/-! ## Verifying -/

theorem ends_readImage {image : Image} (hfile : o.arguments.file = some path)
    (h : Image.ofFile path (files.read path) = .ok image) :
    o.readImage.Ends files c (.ok image) files c := by
  rw [readImage, file_eq hfile]
  refine Run.Ends.bind (Run.ends_ofExcept path) ((Run.ends_readFile path).bind ?_)
  rw [h]
  refine Run.Ends.bind (Run.ends_ofExcept image) ((Run.ends_remark _ files c).bind ?_)
  exact Run.ends_ofExcept image

theorem ends_readImage_refused {cause : ImageError} (hfile : o.arguments.file = some path)
    (h : Image.ofFile path (files.read path) = .error cause) :
    o.readImage.Ends files c (.failed (.badImage cause)) files c := by
  rw [readImage, file_eq hfile]
  refine Run.Ends.bind (Run.ends_ofExcept path) ((Run.ends_readFile path).bind ?_)
  rw [h]
  exact Run.Ends.bind_failed (Run.ends_fail _)

theorem run_compare_failed {file rom : Image}
    (h : ¬∃ words, file.contents? = some words ∧ rom.contents? = some words) (c : SimulatedCrate) :
    ∃ cause, ((file.compare rom Exchange.silent : Job Unit RomError Unit) ()).run Bus.handler c =
      ((.failed cause, ()), c) := by
  let compare : Job Unit RomError Unit := file.compare rom Exchange.silent
  have hends := Routine.ends_run compare () c
  have hkeeps : compare.Keeps Request.IsSilent fun _ => True :=
    Image.keeps_compare Exchange.isSilent_silent file rom
  obtain ⟨hcycles, -, hpasses⟩ := Image.ends_compare Exchange.isSilent_silent hends
  obtain ⟨-, hbus⟩ := hkeeps.of_ends trivial hends
  have hcrate := Exchange.run_eq_of_cycles_eq_nil hcycles
  match hrun : (compare ()).run Bus.handler c with
  | ((.ok (), ()), _) =>
      rw [hrun] at hpasses
      exact absurd (hpasses rfl) h
  | ((.failed cause, ()), _) =>
      rw [hrun] at hcrate
      cases hcrate
      exact ⟨cause, rfl⟩
  | ((.offBus, ()), _) =>
      rw [hrun] at hbus
      exact absurd rfl hbus

theorem ends_judge (o : Order) (board : Board) (file rom : Image) (files : Files)
    (c : SimulatedCrate) :
    ∃ out, (o.judge board file rom).Ends files c out files c ∧
      (out = .ok () ↔ ∃ words, file.contents? = some words ∧ rom.contents? = some words) := by
  by_cases hsame : ∃ words, file.contents? = some words ∧ rom.contents? = some words
  · obtain ⟨words, hfile, hrom⟩ := hsame
    have hcompare : (file.compare rom Exchange.silent : Job Unit RomError Unit) = pure () :=
      Image.compare_of_contents_eq hfile hrom
    refine ⟨.ok (), ?_, iff_of_true rfl ⟨words, hfile, hrom⟩⟩
    rw [judge, hcompare]
    exact (Run.ends_engine (pure ()) () files c).bind (Run.ends_say _)
  · obtain ⟨cause, hcompare⟩ := run_compare_failed hsame c
    have hengine := Run.ends_engine (file.compare rom Exchange.silent) () files c
    rw [hcompare] at hengine
    have hlines : ∀ events, (Run.always (Routine.lift (Exchange.reportAll events))).Ends files c
        (.ok ()) files c := by
      refine fun events => Run.ends_always ?_
      rw [Routine.lift, Dialogue.run_bind, (Exchange.isSilent_reportAll events).run_eq]
      rfl
    refine ⟨.failed (.stepFailed ⟨board.slot, .verify, cause⟩), ?_, iff_of_false ?_ hsame⟩
    · rw [judge]
      exact hengine.bind (Run.Ends.bind (hlines _) (Run.ends_fail _))
    · intro hok
      cases hok

theorem ends_verify_iff {image : Image} (hfile : o.arguments.file = some path)
    (hread : Image.ofFile path (files.read path) = .ok image)
    (hbytes : image.sizeBytes = count * Rom.wordBytes)
    (hsize : count ≤ Rom.capacity / Rom.wordBytes) (hb : c.board? slot = some b)
    (h : b.ReadsBack o.config.update.budgets) :
    ∃ out c', (o.verify (.geographic slot)).Ends files c out files c' ∧
      (out = .ok () ↔ image.contents? = some (b.readWords count)) := by
  obtain ⟨c', -, -, -, hback⟩ := ends_readBack hb h hsize
  obtain ⟨out, hjudge, hout⟩ :=
    ends_judge o (.geographic slot) image (.ofWords (b.readWords count)) files c'
  refine ⟨out, c', ?_, hout.trans (by simp [Image.ofWords])⟩
  rw [verify_eq]
  refine (ends_readImage hfile hread).bind ?_
  rw [hbytes]
  exact (hback files).bind hjudge

theorem ends_verify {image : Image} (hfile : o.arguments.file = some path)
    (hread : Image.ofFile path (files.read path) = .ok image)
    (himage : image.contents? = some (b.readWords count))
    (hsize : count ≤ Rom.capacity / Rom.wordBytes) (hb : c.board? slot = some b)
    (h : b.ReadsBack o.config.update.budgets) :
    ∃ c', (o.verify (.geographic slot)).Ends files c (.ok ()) files c' := by
  have hbytes : image.sizeBytes = count * Rom.wordBytes := by
    rw [image.sizeBytes_eq himage, b.length_readWords]
  obtain ⟨out, c', hverify, hout⟩ := ends_verify_iff hfile hread hbytes hsize hb h
  obtain rfl := hout.mpr himage
  exact ⟨c', hverify⟩

theorem ends_verify_refused {cause : ImageError} (hfile : o.arguments.file = some path)
    (h : Image.ofFile path (files.read path) = .error cause) (board : Board) :
    (o.verify board).Ends files c (.failed (.badImage cause)) files c := by
  rw [verify]
  exact (ends_readImage_refused hfile h).bind_failed

/-! ## One after the other -/

theorem Finds.ends_save {files' : Files} (h : o.Finds c slot b)
    (hfile : o.arguments.file = some path)
    (hcount : o.config.update.imageSizeBytes = count * Rom.wordBytes)
    (hsize : count ≤ Rom.capacity / Rom.wordBytes) (hreads : b.ReadsBack o.config.update.budgets)
    (hwrite : files.write path (.ofBytes (BigEndian.encode (b.readWords count))) = .ok files') :
    ∃ c', (o.run (.single .save)).Ends files c (.ok ()) files' c' := by
  obtain ⟨c₁, b₁, hb₁, halike, hrun⟩ := h.ends_run
  obtain ⟨c', -, -, -, hsave⟩ :=
    Order.ends_save hfile hcount hsize hb₁ (hreads.of_alike halike)
  specialize hsave files
  rw [SimulatedBoard.readWords_of_alike halike, hwrite] at hsave
  exact ⟨c', hrun hsave⟩

/-- Where saving succeeds, a board has been found and read back, and its words are in the file. It
is found again, and can be read back again. -/
theorem saved_of_run {m m' : Machine} (haddress : o.arguments.address ≠ 0)
    (hfile : o.arguments.file = some path)
    (hcount : o.config.update.imageSizeBytes = count * Rom.wordBytes) (hpos : 0 < count)
    (hsize : count ≤ Rom.capacity / Rom.wordBytes) (hbus : m.bus = .inr (.ofCrate c))
    (hkept : m.files.locate true path ≠ .ok .null)
    (hsave : m.run (o.run (.single .save)) = (.ok (), m')) :
    ∃ slot b, o.Finds c slot b ∧ b.ReadsBack o.config.update.budgets ∧
      m'.files.read path = .ok (.ofBytes (BigEndian.encode (b.readWords count))) ∧
      ∃ c' b', m'.bus = .inr (.ofCrate c') ∧ o.Finds c' slot b' ∧ Alike b' b.settled := by
  obtain ⟨slot, b, hfinds, m₁, c₁, b₁, hfiles, hbus₁, hb₁, halike, hperform⟩ :=
    finds_of_run haddress hbus hsave
  obtain ⟨hreads, hwrite, c', b', hbus', hb', halike'⟩ :=
    ok_of_run_save hfile hcount hpos hsize hbus₁ hb₁ hperform
  have hsettled : Alike b' b.settled :=
    halike'.trans (halike.map SimulatedBoard.settled fun _ => rfl)
  have hback : b'.rebooting = 0 := by
    have hkept : b'.rebooting = b.rebooting :=
      (congrArg SimulatedBoard.rebooting hsettled.outline_eq :)
    rw [hkept, hfinds.back]
  rw [hfiles, SimulatedBoard.readWords_of_alike halike] at hwrite
  have hread : m'.files.read path = .ok (.ofBytes (BigEndian.encode (b.readWords count))) := by
    refine Files.read_of_write hwrite ?_ hkept
    show (BigEndian.encode (b.readWords count)).size ≠ 0
    rw [BigEndian.size_encode, b.length_readWords]
    omega
  exact ⟨slot, b, hfinds, hreads.of_alike halike.symm, hread, c', b', hbus',
    ⟨hfinds.named, hb', hback, hfinds.covered⟩, hsettled⟩

/-- Verifying a file of what reads back only fails if the file is too large for an image. -/
theorem Finds.ends_verify (h : o.Finds c slot b) (hfile : o.arguments.file = some path)
    (hread : files.read path = .ok (.ofBytes (BigEndian.encode (b.readWords count))))
    (hpos : 0 < count) (hsize : count ≤ Rom.capacity / Rom.wordBytes)
    (hreads : b.ReadsBack o.config.update.budgets) :
    ∃ c', (o.run (.single .verify)).Ends files c
      (if Rom.maxImageBytes < count * Rom.wordBytes then
        .failed (.badImage (.tooLarge (count * Rom.wordBytes) Rom.maxImageBytes))
      else .ok ()) files c' := by
  obtain ⟨c₁, b₁, hb₁, halike, hrun⟩ := h.ends_run
  rw [← SimulatedBoard.readWords_of_alike halike] at hread
  have himage := Image.ofFile_encode path (b₁.length_readWords count ▸ hpos)
  rw [← hread, b₁.length_readWords] at himage
  split at himage
  next hlarge =>
    rw [if_pos hlarge]
    exact ⟨c₁, hrun (ends_verify_refused hfile himage _)⟩
  next hfits =>
    obtain ⟨c', hverify⟩ := Order.ends_verify hfile himage rfl hsize hb₁ (hreads.of_alike halike)
    rw [if_neg hfits]
    exact ⟨c', hrun hverify⟩

structure SharesTarget (o' o : Order) : Prop where
  config : o'.config = o.config
  address : o'.arguments.address = o.arguments.address
  file : o'.arguments.file = o.arguments.file

theorem SharesTarget.finds {o' : Order} (hsame : o'.SharesTarget o) (h : o.Finds c slot b) :
    o'.Finds c slot b where
  named := by
    have hnumber : o'.arguments.slotNumber = o.arguments.slotNumber := by
      rw [Arguments.slotNumber, Arguments.slotNumber, hsame.address]
    rw [hnumber, h.named]
  there := h.there
  back := h.back
  covered := by rw [hsame.config, h.covered]

/-! ## A board in the third slot -/

def blankCrate : SimulatedCrate :=
  ({} : SimulatedCrate).insert .third { version := ⟨1, 2⟩ }

def describing (imageSizeBytes : String) : String :=
  "image-size-bytes = " ++ imageSizeBytes ++ "\n[target-version]\ncontrol = 0\nprocessing = 0\n"

def thirdSlotOrder (imageSizeBytes : Nat) : Order where
  arguments := { file := some "rom.bin", address := 3 }
  config := { update := { target := ⟨0, 0⟩, imageSizeBytes } }

private theorem ofText_describing :
    CrateConfig.ofText (describing "8") = .ok (thirdSlotOrder 8).config ∧
      CrateConfig.ofText (describing "16777216") = .ok (thirdSlotOrder 16777216).config :=
  ⟨eq_ok_of_toOption (by decide +kernel), eq_ok_of_toOption (by decide +kernel)⟩

private theorem locate_rom : ({} : Files).locate true "rom.bin" =
    .ok (.regular ⟨.working, "rom.bin"⟩) := by
  have hsplit : "rom.bin".splitOn "/" = ["rom.bin"] := by
    rw [String.splitOn, if_neg (by decide)]
    -- None of the seven characters is a slash.
    iterate 7 rw [String.splitOnAux, if_neg (by decide +kernel), if_neg (by decide +kernel)]
    rw [String.splitOnAux, if_pos (by decide +kernel)]
    decide +kernel
  exact Files.locate_new hsplit (by decide +kernel)

theorem write_rom (content : Content) : ({} : Files).write "rom.bin" content =
    .ok (({} : Files).store ⟨.working, "rom.bin"⟩ content) := by
  rw [Files.write, locate_rom]
  rfl

theorem read_store_rom {content : Content} (h : content.size ≠ 0) :
    (({} : Files).store ⟨.working, "rom.bin"⟩ content).read "rom.bin" = .ok content := by
  refine Files.read_of_write (write_rom content) h ?_
  rw [locate_rom]
  nofun

def blankMachine : Machine := { bus := .inr (.ofCrate blankCrate) }

private theorem locate_rom_ne_null : blankMachine.files.locate true "rom.bin" ≠ .ok .null := by
  rw [blankMachine, locate_rom]
  nofun

private theorem finds_thirdSlotOrder (size : Nat) :
    (thirdSlotOrder size).Finds blankCrate .third { version := ⟨1, 2⟩ } where
  named := rfl
  there := SimulatedCrate.board?_insert_self ..
  back := rfl
  covered := rfl

private theorem readsBack_thirdSlotOrder (size : Nat) :
    ({ version := ⟨1, 2⟩ } : SimulatedBoard).ReadsBack
      (thirdSlotOrder size).config.update.budgets := by
  show SimulatedBoard.ReadsBack _ {}
  decide

private theorem run_save_thirdSlotOrder {count : Nat}
    (hsize : count ≤ Rom.capacity / Rom.wordBytes) :
    ∃ m', blankMachine.run ((thirdSlotOrder (count * Rom.wordBytes)).run (.single .save)) =
        (.ok (), m') := by
  have hreads := readsBack_thirdSlotOrder (count * Rom.wordBytes)
  obtain ⟨c', hsave⟩ := (finds_thirdSlotOrder (count * Rom.wordBytes)).ends_save rfl rfl hsize
    hreads (write_rom _)
  obtain ⟨desk', hrun⟩ := hsave {}
  exact ⟨_, hrun⟩

/-! ## What is saved is verified -/

/-- What saving writes are the big-endian bytes of the board's ROM as its read command shows it. The
file is accepted as an image, and verified on the board as it was or as saving has left it, if an
image may be as large as the configuration has it; otherwise it is refused for its size. -/
theorem verifies_saved {m m' : Machine} (hconfig : o.config.IsDescribed)
    (haddress : o.arguments.address ≠ 0) (hfile : o.arguments.file = some path)
    (hbus : m.bus = .inr (.ofCrate c)) (hkept : m.files.locate true path ≠ .ok .null)
    (hsave : m.run (o.run (.single .save)) = (.ok (), m')) :
    ∃ slot b, o.arguments.slotNumber = .ok slot.number ∧ c.board? slot = some b ∧
      let size := o.config.update.imageSizeBytes
      let words := b.readWords (size / Rom.wordBytes)
      words.length * Rom.wordBytes = size ∧
      m'.files.read path = .ok (.ofBytes (BigEndian.encode words)) ∧
      (size ≤ Rom.maxImageBytes →
        Image.ofFile path (m'.files.read path) =
          .ok { contents? := some words, source? := some path } ∧
        ∀ (o' : Order) (m₁ : Machine), o'.SharesTarget o → m₁.files = m'.files →
          m₁.bus = m.bus ∨ m₁.bus = m'.bus → (m₁.run (o'.run (.single .verify))).1 = .ok ()) ∧
      (Rom.maxImageBytes < size →
        Image.ofFile path (m'.files.read path) = .error (.tooLarge size Rom.maxImageBytes) ∧
        ∀ (o' : Order) (m₁ : Machine), o'.SharesTarget o → m₁.files = m'.files →
          m₁.bus = m.bus ∨ m₁.bus = m'.bus →
            (m₁.run (o'.run (.single .verify))).1 =
              .failed (.badImage (.tooLarge size Rom.maxImageBytes))) := by
  obtain ⟨count, hcount, hpos, hsize⟩ := hconfig.imageSizeBytes_eq
  obtain ⟨slot, b, hfinds, hreads, hread, c', b', hbus', hfinds', halike⟩ :=
    saved_of_run haddress hfile hcount hpos hsize hbus hkept hsave
  have himage := Image.ofFile_encode path (b.length_readWords count ▸ hpos)
  rw [b.length_readWords] at himage
  have hverify : ∀ (o' : Order) (m₁ : Machine), o'.SharesTarget o → m₁.files = m'.files →
      m₁.bus = m.bus ∨ m₁.bus = m'.bus → (m₁.run (o'.run (.single .verify))).1 =
        if Rom.maxImageBytes < count * Rom.wordBytes then
          .failed (.badImage (.tooLarge (count * Rom.wordBytes) Rom.maxImageBytes))
        else .ok () := by
    intro o' m₁ hsame hfiles hbus₁
    have hfile' := hsame.file.trans hfile
    obtain hbus₁ | hbus₁ := hbus₁
    · rw [← hsame.config] at hreads
      obtain ⟨_, hends⟩ := (hsame.finds hfinds).ends_verify hfile' hread hpos hsize hreads
      exact (hends.eq_of_run hfiles (hbus₁.trans hbus) rfl).1
    · have hwords : b'.readWords count = b.readWords count :=
        SimulatedBoard.readWords_of_alike halike
      rw [← hwords] at hread
      rw [← hsame.config] at hreads
      obtain ⟨_, hends⟩ := (hsame.finds hfinds').ends_verify hfile' hread hpos hsize
        (hreads.of_alike_settled halike)
      exact (hends.eq_of_run hfiles (hbus₁.trans hbus') rfl).1
  refine ⟨slot, b, hfinds.named, hfinds.there, ?_⟩
  dsimp only
  rw [hcount, Nat.mul_div_cancel count (by decide), b.length_readWords, hread]
  refine ⟨rfl, rfl, fun hfits => ?_, fun hlarge => ?_⟩
  · rw [if_neg (Nat.not_lt.mpr hfits)] at himage hverify
    exact ⟨himage, hverify⟩
  · rw [if_pos hlarge] at himage hverify
    exact ⟨himage, hverify⟩

theorem verifies_saved_thirdSlotOrder :
    (thirdSlotOrder 8).config.IsDescribed ∧ (thirdSlotOrder 8).arguments.address ≠ 0 ∧
      blankMachine.files.locate true "rom.bin" ≠ .ok .null ∧
      ∃ m', blankMachine.run ((thirdSlotOrder 8).run (.single .save)) = (.ok (), m') ∧
        m'.files.read "rom.bin" =
          .ok (.ofBytes (BigEndian.encode [Rom.erasedWord, Rom.erasedWord])) ∧
        (m'.run ((thirdSlotOrder 8).run (.single .verify))).1 = .ok () := by
  have hdescribed : (thirdSlotOrder 8).config.IsDescribed :=
    ⟨_, .inr ⟨_, ofText_describing.1⟩, rfl⟩
  have hkept := locate_rom_ne_null
  obtain ⟨m', hsave⟩ := run_save_thirdSlotOrder (by decide : 2 ≤ Rom.capacity / Rom.wordBytes)
  obtain ⟨slot, b, hslot, hb, -, hread, hfits, -⟩ :=
    verifies_saved hdescribed (by decide) rfl rfl hkept hsave
  refine ⟨hdescribed, by decide, hkept, m', hsave, ?_, ?_⟩
  · obtain rfl : slot = Slot.third := by
      cases slot
      cases hslot
      rfl
    obtain rfl : ({ version := ⟨1, 2⟩ } : SimulatedBoard) = b := by
      rw [blankCrate, SimulatedCrate.board?_insert_self] at hb
      exact Option.some.inj hb
    have hwords : ({ version := ⟨1, 2⟩ } : SimulatedBoard).readWords 2 =
        [Rom.erasedWord, Rom.erasedWord] := by
      rw [SimulatedBoard.readWords_eq (by decide)]
      simp [SimulatedBoard.shown, RomContents.wordAt_blank, List.range_succ]
    exact hwords ▸ hread
  · exact (hfits (by decide)).2 _ _ ⟨rfl, rfl, rfl⟩ rfl (.inr rfl)

/-- A description may ask for the whole ROM. What is saved of it is no image: the file is refused,
so that it cannot be verified. -/
theorem refuses_saved_thirdSlotOrder :
    CrateConfig.ofText (describing "16777216") = .ok (thirdSlotOrder 16777216).config ∧
      ∃ m', blankMachine.run ((thirdSlotOrder 16777216).run (.single .save)) = (.ok (), m') ∧
        Image.ofFile "rom.bin" (m'.files.read "rom.bin") = .error (.tooLarge 16777216 16776960) ∧
        (m'.run ((thirdSlotOrder 16777216).run (.single .verify))).1 =
          .failed (.badImage (.tooLarge 16777216 16776960)) := by
  -- The words are not to be counted out.
  obtain ⟨count, hbytes, hpos, hsize⟩ : ∃ count, count * Rom.wordBytes = 16777216 ∧ 0 < count ∧
      count ≤ Rom.capacity / Rom.wordBytes := ⟨4194304, by decide, by decide, by decide⟩
  have hlarge : Rom.maxImageBytes < 16777216 := by decide
  obtain ⟨m', hsave⟩ := run_save_thirdSlotOrder hsize
  rw [hbytes] at hsave
  obtain ⟨slot, b, -, hreads, hread, c', b', hbus', hfinds', halike⟩ :=
    saved_of_run (by decide) rfl hbytes.symm hpos hsize rfl locate_rom_ne_null hsave
  have himage := Image.ofFile_encode "rom.bin" (b.length_readWords count ▸ hpos)
  rw [← hread, b.length_readWords, hbytes, if_pos hlarge] at himage
  have hwords : b'.readWords count = b.readWords count :=
    SimulatedBoard.readWords_of_alike halike
  rw [← hwords] at hread
  obtain ⟨_, hverify⟩ := hfinds'.ends_verify rfl hread hpos hsize (hreads.of_alike_settled halike)
  rw [hbytes, if_pos hlarge] at hverify
  exact ⟨ofText_describing.2, m', hsave, himage, (hverify.eq_of_run rfl hbus' rfl).1⟩

end Host.Order
end Reflash
