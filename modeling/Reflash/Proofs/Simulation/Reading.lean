import Reflash.Proofs.Image.Mismatches
import Reflash.Proofs.Simulation.Programming
/-!
# Reading the ROM of a simulated board back

Reading leaves a board as it was, unless the fault that hangs its command engine shows at the first
word. What is read back is what is in the ROM, but for the one word that may be corrupt.
-/

namespace Reflash

namespace SimulatedBoard

variable {b : SimulatedBoard} {index : Nat} {lastOfPage : Bool}

def shown (b : SimulatedBoard) (index : Nat) : UInt32 :=
  if b.faults.corruptWord = some index then b.rom.wordAt index ^^^ 0x100 else b.rom.wordAt index

theorem carryOut_readCommand (b : SimulatedBoard) (lastOfPage : Bool)
    (hindex : index < Rom.capacity / Rom.wordBytes) :
    Alike (b.carryOut (Board.readCommand (Rom.wordAddress index) lastOfPage))
        { b with hung := b.hung || b.faults.readHangs } ∧
      (b.carryOut (Board.readCommand (Rom.wordAddress index) lastOfPage)).readback =
        b.shown index := by
  have hcarry : b.carryOut (Board.readCommand (Rom.wordAddress index) lastOfPage) =
      autoRead
        { b with
          address := Rom.wordAddress index &&& Rom.addressMask &&& Rom.addressMask
          activity.commands := b.activity.commands + 1
          activity.endOfCommands := b.activity.endOfCommands + if lastOfPage then 1 else 0 } := rfl
  rw [hcarry]
  refine ⟨rfl, ?_⟩
  unfold autoRead wordIndex shown
  dsimp only
  rw [Rom.wordAddress_div_wordBytes hindex]
  simp

theorem isComplete_readCommand (address : UInt32) (lastOfPage : Bool) :
    (Board.readCommand address lastOfPage).IsComplete :=
  ⟨fun _ => rfl, nofun⟩

end SimulatedBoard

namespace RomSession

variable {s : RomSession} {slot : Slot} {b : SimulatedBoard} {index count : Nat}
  {lastOfPage : Bool} {onTick : Exchange Unit} (hs : s.board = .geographic slot)
  (hready : 0 < s.budgets.commandReadyTries) (hidle : b.Idle)
include hs hready hidle

theorem yields_readWord (hhangs : b.faults.readHangs = false)
    (hindex : index < Rom.capacity / Rom.wordBytes) :
    (readWord (Rom.wordAddress index) lastOfPage).Yields s b (.ok (b.shown index)) s b := by
  have hcmd := SimulatedBoard.isComplete_readCommand (Rom.wordAddress index) lastOfPage
  obtain ⟨hafter, hreadback⟩ := b.carryOut_readCommand lastOfPage hindex
  rw [hhangs, Bool.or_false] at hafter
  have hresponds := (SimulatedBoard.alike_responds hafter).mpr hidle.1
  have hquery := yields_query hs hcmd (.inr (.inl rfl)) hidle hready hresponds
  rw [hreadback] at hquery
  refine (hquery.trans (.refl s) hafter).bind ?_
  exact (yields_count _).bind (Routine.yields_pure _)

theorem fails_readWord (hhangs : b.faults.readHangs = true)
    (hindex : index < Rom.capacity / Rom.wordBytes) :
    (readWord (Rom.wordAddress index) lastOfPage).Fails s b
      (.readyTimeout s.budgets.commandReadyTries) := by
  have hcmd := SimulatedBoard.isComplete_readCommand (Rom.wordAddress index) lastOfPage
  have hafter := (b.carryOut_readCommand lastOfPage hindex).1
  rw [hhangs, Bool.or_true] at hafter
  refine Routine.Fails.bind (fails_query hs hcmd hidle hready fun hresponds => ?_)
  exact Bool.noConfusion ((SimulatedBoard.alike_responds hafter).mp hresponds).2

omit hready hidle in
theorem fails_readWord_unready (htries : s.budgets.commandReadyTries = 0) (address : UInt32) :
    (readWord address lastOfPage).Fails s b (.readyTimeout s.budgets.commandReadyTries) := by
  have hanswers : ¬b.AnswersWithin s.budgets.commandReadyTries := by
    rintro ⟨-, hlt⟩
    exact Nat.not_lt_zero _ (htries ▸ hlt)
  exact Routine.Fails.bind (Routine.Fails.bind ⟨s, _, yields_command_timeout hs hanswers⟩)

theorem yields_readWordsFrom (hticks : onTick.IsSilent)
    (hhangs : b.faults.readHangs = false ∨ count = 0) (sofar : List UInt32)
    (hsize : index + count ≤ Rom.capacity / Rom.wordBytes) :
    (readWordsFrom onTick index sofar count).Yields s b
      (.ok (sofar.reverse ++ (List.range' index count).map b.shown)) s b := by
  induction count generalizing index sofar with
  | zero =>
      rw [List.range'_zero, List.map_nil, List.append_nil]
      exact Routine.yields_pure _
  | succ count ih =>
      have hreads : b.faults.readHangs = false := hhangs.resolve_right (Nat.succ_ne_zero count)
      have hrest := ih (.inl hreads) (b.shown index :: sofar) (by omega : index + 1 + count ≤ _)
      rw [List.reverse_cons, List.append_assoc, List.singleton_append, ← List.map_cons,
        ← List.range'_succ] at hrest
      refine (yields_readWord hs hready hidle hreads (by omega)).bind ?_
      exact (Routine.yields_lift hticks).bind hrest

theorem yields_readWords (hticks : onTick.IsSilent)
    (hhangs : b.faults.readHangs = false ∨ count = 0)
    (hsize : count ≤ Rom.capacity / Rom.wordBytes) :
    (readWords count onTick).Yields s b (.ok ((List.range count).map b.shown)) s b := by
  have hwords : (readWordsFrom onTick 0 [] count).Yields s b
      (.ok ([].reverse ++ (List.range' 0 count).map b.shown)) s b :=
    yields_readWordsFrom hs hready hidle hticks hhangs [] (by omega)
  rwa [← List.range_eq_range'] at hwords

omit hs hready hidle in
private theorem download_eq (hsize : count ≤ Rom.capacity / Rom.wordBytes) :
    download (count * Rom.wordBytes) onTick = (do
      Routine.modify fun (s, image) => (s, image.release)
      let words ← (readWords count onTick).within
        (fun (s, _) => s) (fun (_, image) s => (s, image))
      Routine.modify fun (s, image) => (s, image.fill words)) := by
  have hpos : 0 < Rom.wordBytes := by decide
  have hbytes : ¬(count * Rom.wordBytes % Rom.wordBytes ≠ 0 ∨
      Rom.capacity < count * Rom.wordBytes) := by
    unfold Rom.capacity Rom.wordBytes at *
    omega
  rw [download, if_neg hbytes, Nat.mul_div_cancel _ hpos]

omit hs hready hidle in
private theorem yields_release (image : Image) :
    (Routine.modify fun (s, image) => (s, image.release) :
      Job (RomSession × Image) RomError Unit).Yields (s, image) b (.ok ())
        (s, image.release) b := by
  refine Routine.yields_modify fun t ht => ?_
  obtain ⟨hsession, himage⟩ := alike_prod_iff.mp ht
  exact alike_prod_iff.mpr ⟨hsession, congrArg Image.release himage⟩

omit hs hready hidle in
theorem yields_beside {α : Type} {work : RomJob α} {out : Outcome RomError α}
    {s' : RomSession} {b' : SimulatedBoard} (h : work.Yields s b out s' b') (image : Image) :
    (work.within (fun (s, _) => s) (fun (_, image) s => (s, image)) :
      Job (RomSession × Image) RomError α).Yields (s, image) b out (s', image) b' := by
  refine h.within ?_ ?_
  · exact fun w hw => (alike_prod_iff.mp hw).1
  · exact fun w t hw ht => alike_prod_iff.mpr ⟨ht, (alike_prod_iff.mp hw).2⟩

theorem yields_download (hticks : onTick.IsSilent)
    (hhangs : b.faults.readHangs = false ∨ count = 0)
    (hsize : count ≤ Rom.capacity / Rom.wordBytes) (image : Image) :
    (download (count * Rom.wordBytes) onTick).Yields (s, image) b (.ok ())
      (s, image.fill ((List.range count).map b.shown)) b := by
  have hwords := yields_readWords hs hready hidle hticks hhangs hsize
  rw [download_eq hsize]
  refine (yields_release image).bind ((yields_beside hwords image.release).bind ?_)
  refine Routine.yields_modify fun t ht => ?_
  obtain ⟨hsession, himage⟩ := alike_prod_iff.mp ht
  have hfilled : t.2.fill ((List.range count).map b.shown) =
      image.release.fill ((List.range count).map b.shown) :=
    congrArg (Image.fill · _) himage
  exact alike_prod_iff.mpr ⟨hsession, hfilled⟩

omit hs hready hidle in
theorem fails_download {e : RomError}
    (hword : (readWord (Rom.wordAddress 0) (Rom.endsPage 0)).Fails s b e) (hcount : 0 < count)
    (hsize : count ≤ Rom.capacity / Rom.wordBytes) (image : Image) :
    (download (count * Rom.wordBytes) onTick).Fails (s, image) b e := by
  have hread : (readWords count onTick).Fails s b e := by
    cases count with
    | zero => exact absurd hcount (Nat.lt_irrefl 0)
    | succ count => exact Routine.Fails.bind hword
  obtain ⟨s', b', hwords⟩ := hread
  rw [download_eq hsize]
  refine (yields_release image).bind_fails (Routine.Fails.bind ⟨(s', image.release), b', ?_⟩)
  exact yields_beside hwords image.release

end RomSession

/-! ## Comparing what was read back -/

namespace SimulatedBoard

variable {b : SimulatedBoard}

private theorem ne_xor_corruption (word : UInt32) : word ≠ word ^^^ 0x100 := by
  intro heq
  have hzero : word ^^^ 0 = word ^^^ 0x100 := by rwa [UInt32.xor_zero]
  exact absurd ((UInt32.xor_right_inj word).mp hzero) (by decide)

def comparison (b : SimulatedBoard) (index count : Nat) : List (UInt32 × UInt32) :=
  (List.range' index count).map fun i => (b.rom.wordAt i, b.shown i)

theorem zip_map_shown {words : List UInt32}
    (hwords : words = (List.range words.length).map b.rom.wordAt) :
    words.zip ((List.range words.length).map b.shown) = b.comparison 0 words.length := by
  calc words.zip ((List.range words.length).map b.shown)
    _ = ((List.range words.length).map b.rom.wordAt).zip
          ((List.range words.length).map b.shown) := by rw [← hwords]
    _ = b.comparison 0 words.length := by
          rw [List.zip_map', List.range_eq_range', comparison]

theorem mismatches_comparison_of_intact {index count : Nat}
    (h : ∀ i, b.faults.corruptWord = some i → ¬(index ≤ i ∧ i < index + count)) :
    mismatches index (b.comparison index count) = [] := by
  apply mismatches_eq_nil_iff.mpr
  intro pair hpair
  rw [comparison, List.mem_map] at hpair
  rcases hpair with ⟨i, hi, rfl⟩
  have hsound : b.faults.corruptWord ≠ some i := fun hcorrupt =>
    h i hcorrupt (List.mem_range'_1.mp hi)
  exact (if_neg hsound).symm

theorem mismatches_comparison_of_corrupt {index count i : Nat}
    (hcorrupt : b.faults.corruptWord = some i) (hle : index ≤ i) (hlt : i < index + count) :
    mismatches index (b.comparison index count) =
      [⟨i, b.rom.wordAt i, b.rom.wordAt i ^^^ 0x100⟩] := by
  induction count generalizing index with
  | zero => omega
  | succ count ih =>
      have hcons : b.comparison index (count + 1) =
          (b.rom.wordAt index, b.shown index) :: b.comparison (index + 1) count := rfl
      rw [hcons, mismatches]
      by_cases heq : index = i
      · have hshown : b.shown index = b.rom.wordAt index ^^^ 0x100 := if_pos (heq ▸ hcorrupt)
        -- Behind the one corrupt word there is no other.
        have hrest : mismatches (index + 1) (b.comparison (index + 1) count) = [] := by
          apply mismatches_comparison_of_intact
          intro j hj
          have hij : i = j := Option.some.inj (hcorrupt.symm.trans hj)
          omega
        rw [hshown, if_neg (ne_xor_corruption _), hrest, heq]
      · have hsound : b.faults.corruptWord ≠ some index := by
          intro hindex
          exact heq (Option.some.inj (hindex.symm.trans hcorrupt))
        have hshown : b.shown index = b.rom.wordAt index := if_neg hsound
        rw [hshown, if_pos rfl]
        exact ih (by omega) (by omega)

end SimulatedBoard

namespace Image

variable {σ : Type} [Outlined σ] {s : σ} {b : SimulatedBoard} {onTick : Exchange Unit}

theorem yields_compareFrom (hticks : onTick.IsSilent) (index : Nat) (tally : Tally)
    (pairs : List (UInt32 × UInt32)) :
    (compareFrom onTick index tally pairs : Job σ RomError Tally).Yields s b
      (.ok ((mismatches index pairs).foldl Tally.add tally)) s b := by
  induction pairs generalizing index tally with
  | nil => exact Routine.yields_pure tally
  | cons pair rest ih =>
      rcases pair with ⟨expected, actual⟩
      rw [compareFrom, mismatches]
      by_cases heq : expected = actual
      · rw [if_pos heq, if_pos heq]
        exact (Routine.yields_lift hticks).bind (ih _ _)
      · rw [if_neg heq, if_neg heq, List.foldl_cons]
        dsimp only
        split
        · exact (Routine.yields_remark _).bind ((Routine.yields_lift hticks).bind (ih _ _))
        · exact (Routine.yields_lift hticks).bind (ih _ _)

/-- A comparison of loaded images of one length passes exactly if it finds no mismatch. -/
theorem yields_compare (hticks : onTick.IsSilent) {file rom : Image} {words words' : List UInt32}
    (hfile : file.contents? = some words) (hrom : rom.contents? = some words')
    (hlength : words.length = words'.length) {found : List Mismatch}
    (hfound : mismatches 0 (words.zip words') = found) :
    (file.compare rom onTick : Job σ RomError Unit).Yields s b
      (if found = [] then .ok ()
      else .failed (.verifyMismatch found.length (found.take maxSamples))) s b := by
  have hloaded : (!file.isLoaded || !rom.isLoaded) = false := by
    simp [isLoaded, hfile, hrom]
  have hwords : file.words = words := by rw [Image.words, hfile, Option.getD_some]
  have hwords' : rom.words = words' := by rw [Image.words, hrom, Option.getD_some]
  have hcount : file.wordCount = rom.wordCount := by
    rw [wordCount, wordCount, hwords, hwords', hlength]
  rw [compare, hloaded, if_neg Bool.false_ne_true, if_neg (not_not_intro hcount), hwords, hwords']
  refine (yields_compareFrom hticks 0 {} _).bind ?_
  have htotal : (found.foldl Tally.add {}).total = found.length := by
    rw [Tally.total_foldl_add]
    exact Nat.zero_add _
  have hfirst : (found.foldl Tally.add {}).first = found.take maxSamples := by
    rw [Tally.first_foldl_add _ (Nat.zero_le _)]
    rfl
  rw [hfound, htotal, hfirst]
  by_cases hnone : found = []
  · rw [if_pos hnone, if_neg (by simp [hnone])]
    exact Routine.yields_pure ()
  · rw [if_neg hnone, if_pos (by simp [hnone])]
    exact Routine.yields_fail _

end Image
end Reflash
