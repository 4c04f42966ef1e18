import Reflash.Proofs.Host.Machine
import Reflash.Proofs.Simulation.Reading
/-!
# Reading a ROM back with the tool

What the tool reads of a simulated board's ROM are the words that the read command shows. It gets
them exactly if the command engine answers in time and goes on answering; the board can then be read
again, and shows the same.
-/

namespace Reflash

namespace SimulatedBoard

variable {b b' : SimulatedBoard} {budgets : Budgets}

def readWords (b : SimulatedBoard) (count : Nat) : List UInt32 :=
  (List.range count).map fun index =>
    ({ b with address := Rom.wordAddress index } : SimulatedBoard).autoRead.readback

theorem length_readWords (b : SimulatedBoard) (count : Nat) :
    (b.readWords count).length = count := by
  rw [readWords, List.length_map, List.length_range]

theorem readWords_eq {count : Nat} (h : count ≤ Rom.capacity / Rom.wordBytes) :
    b.readWords count = (List.range count).map b.shown := by
  refine List.map_congr_left fun index hindex => ?_
  have hlt : index < Rom.capacity / Rom.wordBytes :=
    Nat.lt_of_lt_of_le (List.mem_range.mp hindex) h
  have haddress : (Rom.wordAddress index).toNat / Rom.wordBytes = index := by
    rw [Rom.toNat_wordAddress hlt, Nat.mul_div_cancel _ (by decide)]
  unfold autoRead shown wordIndex
  simp [haddress]

theorem readWords_of_alike (h : Alike b b') {count : Nat} :
    b.readWords count = b'.readWords count := by
  have hrom : b.rom = b'.rom := (congrArg SimulatedBoard.rom h.outline_eq :)
  have hfaults : b.faults = b'.faults := (congrArg SimulatedBoard.faults h.outline_eq :)
  refine List.map_congr_left fun index _ => ?_
  unfold autoRead wordIndex
  dsimp only
  rw [hrom, hfaults]

/-- The command engine answers in time, and goes on answering while the ROM is read. -/
def ReadsBack (b : SimulatedBoard) (budgets : Budgets) : Prop :=
  b.AnswersWithin budgets.readyTries ∧ 0 < budgets.commandReadyTries ∧ b.faults.readHangs = false

instance : Decidable (b.ReadsBack budgets) := inferInstanceAs (Decidable (_ ∧ _))

theorem ReadsBack.of_alike_settled (h : b.ReadsBack budgets) (halike : Alike b' b.settled) :
    b'.ReadsBack budgets := by
  obtain ⟨hanswers, hready, hhangs⟩ := h
  have hfaults : b'.faults = b.faults := (congrArg SimulatedBoard.faults halike.outline_eq :)
  have hsettled : b.settled.AnswersWithin budgets.readyTries :=
    ⟨hanswers.1, Nat.zero_lt_of_lt hanswers.2⟩
  exact ⟨(alike_answersWithin halike).mpr hsettled, hready, hfaults ▸ hhangs⟩

theorem ReadsBack.of_alike (h : b.ReadsBack budgets) (halike : Alike b' b) :
    b'.ReadsBack budgets := by
  obtain ⟨hanswers, hready, hhangs⟩ := h
  have hfaults : b'.faults = b.faults := (congrArg SimulatedBoard.faults halike.outline_eq :)
  exact ⟨(alike_answersWithin halike).mpr hanswers, hready, hfaults ▸ hhangs⟩

end SimulatedBoard

namespace RomSession

variable {s : RomSession} {slot : Slot} {b : SimulatedBoard} {count : Nat}

def readBack (sizeBytes : Nat) : Job (RomSession × Image) RomError Unit := do
  awaitEngine.within (fun (s, _) => s) (fun (_, image) s => (s, image))
  download sizeBytes Exchange.silent

theorem keeps_readBack {board : Board} (hboard : board.Fits) (sizeBytes : Nat) :
    (readBack sizeBytes).Keeps board.Drives fun p => p.1.board = board :=
  .bind (.within (isProper_awaitEngine board hboard) (fun _ ht => ht) fun _ _ _ hs => hs) fun _ =>
    keeps_download hboard Exchange.isSilent_silent sizeBytes

variable (hs : s.board = .geographic slot) (hsize : count ≤ Rom.capacity / Rom.wordBytes)
include hs hsize

theorem yields_readBack (h : b.ReadsBack s.budgets) (image : Image) :
    (readBack (count * Rom.wordBytes)).Yields (s, image) b (.ok ())
      (s, image.fill ((List.range count).map b.shown)) b.settled := by
  obtain ⟨hanswers, hready, hhangs⟩ := h
  have hidle : b.settled.Idle := ⟨hanswers.1, rfl⟩
  refine (yields_beside (yields_awaitEngine hs hanswers) image).bind ?_
  exact yields_download hs hready hidle Exchange.isSilent_silent (.inl hhangs) hsize image

theorem fails_readBack (h : ¬b.ReadsBack s.budgets) (hcount : 0 < count) (image : Image) :
    ∃ e, (readBack (count * Rom.wordBytes)).Fails (s, image) b e := by
  by_cases hanswers : b.AnswersWithin s.budgets.readyTries
  · have hidle : b.settled.Idle := ⟨hanswers.1, rfl⟩
    have hword : (readWord (Rom.wordAddress 0) (Rom.endsPage 0)).Fails s b.settled
        (.readyTimeout s.budgets.commandReadyTries) := by
      by_cases hready : 0 < s.budgets.commandReadyTries
      · have hhangs : b.faults.readHangs = true :=
          Bool.of_not_eq_false fun hreads => h ⟨hanswers, hready, hreads⟩
        exact fails_readWord hs hready hidle hhangs (by decide)
      · exact fails_readWord_unready hs (Nat.eq_zero_of_not_pos hready) _
    exact ⟨_, (yields_beside (yields_awaitEngine hs hanswers) image).bind_fails
      (fails_download hword hcount hsize image)⟩
  · exact ⟨_, Routine.Fails.bind
      ⟨_, _, yields_beside (yields_awaitEngine_timeout hs hanswers) image⟩⟩

end RomSession
namespace Host.Order

variable {o : Order} {files : Files} {c : SimulatedCrate} {slot : Slot} {b : SimulatedBoard}
  {count : Nat}

theorem readBack_eq (o : Order) (board : Board) (sizeBytes : Nat) :
    o.readBack board sizeBytes = (do
      let (_, _, image) ← Run.must .romFailed (RomSession.readBack sizeBytes) (o.session board, {})
      return image) := rfl

theorem run_readBack (o : Order) (hb : c.board? slot = some b) (sizeBytes : Nat) :
    (RomSession.readBack sizeBytes (o.session (.geographic slot), {})).run Bus.handler c =
      let alone := (RomSession.readBack sizeBytes (o.session (.geographic slot), {})).run
        Bus.handler b
      (alone.1, c.insert slot alone.2) := by
  have hkeeps := RomSession.keeps_readBack slot.fits_geographic sizeBytes
    (o.session (.geographic slot), {}) rfl
  exact SimulatedCrate.run_of_owns (hkeeps.mono (fun _ hr => .inl (.inl hr)) fun _ h => h) hb

theorem ends_readBack (hb : c.board? slot = some b) (h : b.ReadsBack o.config.update.budgets)
    (hsize : count ≤ Rom.capacity / Rom.wordBytes) :
    ∃ c' b', c'.board? slot = some b' ∧ Alike b' b.settled ∧ ∀ files,
      (o.readBack (.geographic slot) (count * Rom.wordBytes)).Ends files c
        (.ok (.ofWords (b.readWords count))) files c' := by
  have hyields := RomSession.yields_readBack (s := o.session (.geographic slot)) rfl hsize h {}
  obtain ⟨⟨s', image⟩, b', hrun, hs', hb'⟩ := hyields (.refl _) (.refl b)
  obtain rfl : image = .ofWords (b.readWords count) := by
    rw [SimulatedBoard.readWords_eq hsize]
    exact (alike_prod_iff.mp hs').2
  have hcrate := run_readBack o hb (count * Rom.wordBytes)
  rw [hrun] at hcrate
  refine ⟨_, b', SimulatedCrate.board?_insert_self c slot b', hb', fun files => ?_⟩
  rw [readBack_eq]
  exact (Run.ends_must hcrate).bind (Run.ends_ofExcept _)

theorem ends_readBack_failed (hb : c.board? slot = some b)
    (h : ¬b.ReadsBack o.config.update.budgets) (hcount : 0 < count)
    (hsize : count ≤ Rom.capacity / Rom.wordBytes) :
    ∃ e c', ∀ files,
      (o.readBack (.geographic slot) (count * Rom.wordBytes)).Ends files c (.failed e) files
        c' := by
  have hfails := RomSession.fails_readBack (s := o.session (.geographic slot)) rfl hsize h hcount {}
  obtain ⟨e, s', b', hyields⟩ := hfails
  obtain ⟨s', b', hrun, -⟩ := hyields (.refl _) (.refl b)
  have hcrate := run_readBack o hb (count * Rom.wordBytes)
  rw [hrun] at hcrate
  refine ⟨.romFailed e, c.insert slot b', fun files => ?_⟩
  rw [readBack_eq]
  exact (Run.ends_must_failed hcrate).bind_failed

end Host.Order
end Reflash
