import Reflash.Proofs.Rom.Readback
import Reflash.Proofs.Simulation.Crate
import Reflash.Proofs.Simulation.Reading
/-!
# Downloads

A download is all or nothing on every bus. From a board of a crate without a fault it comes to all:
the image is the ROM's first words, up to the whole ROM, and reading has left the ROM alone.
-/

namespace Reflash

namespace RomSession

variable {s : RomSession} {slot : Slot} {b : SimulatedBoard} {onTick : Exchange Unit}

/-- A board that answers and has no fault is read back as it is, and stays so. -/
theorem run_download_of_faultless {c : SimulatedCrate} (hs : s.board = .geographic slot)
    (hready : 0 < s.budgets.commandReadyTries) (hb : c.board? slot = some b)
    (hfaults : b.faults = {}) (hidle : b.hung = false ∧ b.notReady = 0) (hticks : onTick.IsSilent)
    {sizeBytes : Nat} (haligned : sizeBytes % Rom.wordBytes = 0) (hsize : sizeBytes ≤ Rom.capacity)
    (image : Image) :
    ∃ s' b', (download sizeBytes onTick (s, image)).run Bus.handler c =
        ((.ok (), (s', image.fill ((List.range (sizeBytes / Rom.wordBytes)).map b.rom.wordAt))),
          c.insert slot b') ∧
      b'.rom = b.rom := by
  have hanswers : b.Idle := ⟨⟨by rw [hfaults], hidle.1⟩, hidle.2⟩
  have hshown : b.shown = b.rom.wordAt := by
    funext i
    rw [SimulatedBoard.shown, hfaults]
    exact if_neg nofun
  have hhangs : b.faults.readHangs = false := by rw [hfaults]
  have hyields := yields_download hs hready hanswers hticks (.inl hhangs)
    (Nat.div_le_div_right hsize : sizeBytes / Rom.wordBytes ≤ Rom.capacity / Rom.wordBytes) image
  rw [Nat.div_mul_cancel (Nat.dvd_of_mod_eq_zero haligned), hshown] at hyields
  obtain ⟨⟨s', image'⟩, b', hrun, halike, halike'⟩ := hyields (.refl (s, image)) (.refl b)
  obtain rfl : image' = _ := (alike_prod_iff.mp halike).2
  have howns : (download sizeBytes onTick (s, image)).Keeps (Board.geographic slot).Owns
      fun _ => True :=
    (keeps_download slot.fits_geographic hticks sizeBytes (s, image) hs).mono
      (fun _ h => .inl (.inl h)) fun _ _ => trivial
  refine ⟨s', b', ?_, (congrArg SimulatedBoard.rom halike'.outline_eq :)⟩
  rw [SimulatedCrate.run_of_owns howns hb, hrun]

/-- A bad size is refused without a cycle, and the image stays. Otherwise words are read one behind
the other, the turn of each is told, and the image holds all that are wanted, if all could be read,
and else none; a board without a fault is read completely, and its ROM does not change. -/
theorem download_all_or_nothing {ω : Type} [Bus ω] (hfits : s.board.Fits) (image : Image)
    (sizeBytes : Nat) (w : ω) :
    (sizeBytes % Rom.wordBytes ≠ 0 ∨ Rom.capacity < sizeBytes →
      (download sizeBytes Exchange.tick).Makes (s, image) w []
        (.failed (.badTransferSize sizeBytes)) (s, image) w) ∧
    (sizeBytes % Rom.wordBytes = 0 → sizeBytes ≤ Rom.capacity →
      (∀ k < sizeBytes / Rom.wordBytes, ∃ address,
        (Rom.readingOf k).address = some address ∧ address.toNat = 4 * k ∧
          ((Rom.readingOf k).endOfCommand = true ↔ (k + 1) % 64 = 0)) ∧
      (∃ cycles words out s' image' w',
        (download sizeBytes Exchange.tick).Makes (s, image) w cycles out (s', image') w' ∧
        Exchange.ticks (download sizeBytes Exchange.tick (s, image)) w = words.length ∧
        (out = .ok () ∧ image' = { image with contents? := some words } ∧
            words.length = sizeBytes / Rom.wordBytes ∧
            s.board.heard cycles = Rom.readings 0 words ∨
          out = .failed (.readyTimeout s.budgets.commandReadyTries) ∧
            image' = { image with contents? := none } ∧
            words.length < sizeBytes / Rom.wordBytes ∧
            ∃ asked, (asked = [] ∨ asked = [.issued (Rom.readingOf words.length)]) ∧
              s.board.heard cycles = Rom.readings 0 words ++ asked)) ∧
      ∀ (c : SimulatedCrate) (slot : Slot) (b : SimulatedBoard) (onTick : Exchange Unit),
        onTick.IsSilent → s.board = .geographic slot → c.board? slot = some b → b.faults = {} →
        b.hung = false → b.notReady = 0 → 0 < s.budgets.commandReadyTries →
        ∃ s' b', (download sizeBytes onTick (s, image)).run Bus.handler c =
          ((.ok (), (s', { image with
            contents? := some ((List.range (sizeBytes / Rom.wordBytes)).map b.rom.wordAt) })),
            c.insert slot b') ∧
          b'.rom = b.rom) := by
  refine ⟨fun hbad => makes_download_refused hbad _ image w, fun haligned hsize => ⟨?_, ?_, ?_⟩⟩
  · intro k hk
    exact Rom.readingOf_operands (Nat.lt_of_lt_of_le hk (Nat.div_le_div_right hsize))
  · obtain ⟨cycles, words, error?, s', w', hmakes, hticks, hreads⟩ :=
      makes_download hfits rfl haligned hsize image w
    refine ⟨cycles, words, _, s', _, w', hmakes, hticks, ?_⟩
    cases hreads with
    | all hlength hheard => exact .inl ⟨rfl, rfl, hlength, hheard.heard_eq⟩
    | stopped hlength hasked hheard =>
        rw [Nat.zero_add] at hasked
        exact .inr ⟨rfl, rfl, hlength, _, hasked, hheard.heard_eq⟩
  · intro c slot b onTick hticks hs hb hfaults hhung hnotReady hready
    exact run_download_of_faultless hs hready hb hfaults ⟨hhung, hnotReady⟩ hticks haligned hsize
      image

/-- A whole ROM is read back in place of what the image held; from a bus where no engine is ever
ready comes nothing, and the image holds nothing then. -/
theorem whole_rom_or_nothing_downloaded :
    let s : RomSession := ⟨.geographic .third, {}, .immediate, {}⟩
    let b : SimulatedBoard := { version := ⟨1, 2⟩, rom := .ofWords [0x3C, 0x55] }
    let c := ({} : SimulatedCrate).insert .third b
    let image := Image.ofWords [7]
    s.board.Fits ∧
    (∃ s' b', (download Rom.capacity Exchange.tick (s, image)).run Bus.handler c =
        ((.ok (), (s', { image with
          contents? := some ((List.range (Rom.capacity / Rom.wordBytes)).map b.rom.wordAt) })),
          c.insert .third b') ∧
      b'.rom = b.rom) ∧
    ∃ e s' w', (download 8 Exchange.tick (s, image)).run Bus.handler (⟨0⟩ : SteadyBus) =
      ((.failed e, (s', { image with contents? := none })), w') := by
  intro s b c image
  have hfits : s.board.Fits := Slot.third.fits_geographic
  have hboard : c.board? .third = some b := SimulatedCrate.board?_insert_self {} .third b
  obtain ⟨-, -, hwhole⟩ :=
    (download_all_or_nothing hfits image Rom.capacity (⟨0⟩ : SteadyBus)).2 rfl (Nat.le_refl _)
  obtain ⟨-, ⟨cycles, words, out, s', image', w', hmakes, -, hout⟩, -⟩ :=
    (download_all_or_nothing hfits image 8 (⟨0⟩ : SteadyBus)).2 rfl (by decide)
  refine ⟨hfits, hwhole c .third b Exchange.tick Exchange.isSilent_tick rfl hboard rfl rfl rfl
    (by decide), ?_⟩
  have hrun := hmakes.run_eq
  rcases hout with ⟨rfl, -⟩ | ⟨rfl, rfl, -⟩
  · have hfailed : ((download 8 Exchange.tick (s, image)).run Bus.handler
        (⟨0⟩ : SteadyBus)).1.1 ≠ .ok () := by decide +kernel
    rw [hrun] at hfailed
    exact absurd rfl hfailed
  · exact ⟨_, s', w', hrun⟩

end RomSession
end Reflash
