import Reflash.Progress.Event
import Reflash.Proofs.Bus.Ticks
import Reflash.Proofs.Image.Mismatches
/-!
# The verdict on two images

What a comparison comes to, told by the words of both images alone: where they differ, in ascending
order, of which the error keeps the first and counts all. The report of such an error has one line
for each that was kept and one for the number of those that were not.
-/

namespace Reflash

theorem mismatches_zip {words words' : List UInt32} (hlength : words.length = words'.length)
    (index : Nat) :
    mismatches index (words.zip words') =
      ((List.range words.length).filter fun i => words[i]! ≠ words'[i]!).map fun i =>
        ⟨index + i, words[i]!, words'[i]!⟩ := by
  induction words generalizing words' index with
  | nil => rfl
  | cons word rest ih =>
      obtain ⟨word', rest', rfl⟩ := List.exists_cons_of_length_eq_add_one hlength.symm
      have hrest := ih (Nat.succ.inj hlength) (index + 1)
      -- Behind the first words, every index is one more than in the rest.
      have hshift : ∀ i, index + 1 + i = index + (i + 1) := by omega
      rw [List.zip_cons_cons, mismatches, hrest, List.length_cons, List.range_succ_eq_map,
        List.filter_cons, List.filter_map]
      by_cases heq : word = word'
      · simp [heq, hshift, Function.comp_def]
      · simp [heq, hshift, Function.comp_def]

namespace Image

def differing (file rom : Image) : List Nat :=
  (List.range file.wordCount).filter fun i => file.words[i]! ≠ rom.words[i]!

def mismatchAt (file rom : Image) (i : Nat) : Mismatch := ⟨i, file.words[i]!, rom.words[i]!⟩

def verdict (file rom : Image) : Outcome RomError Unit :=
  if file.isLoaded = false ∨ rom.isLoaded = false then .failed .imageNotLoaded
  else if file.wordCount ≠ rom.wordCount then .failed (.sizeMismatch file.wordCount rom.wordCount)
  else if file.words = rom.words then .ok ()
  else
    let found := file.differing rom
    .failed (.verifyMismatch found.length ((found.take maxSamples).map (file.mismatchAt rom)))

variable {ω : Type} [Bus ω] {σ : Type}

theorem mismatches_eq_map_differing {file rom : Image} (hcount : file.wordCount = rom.wordCount) :
    mismatches 0 (file.words.zip rom.words) = (file.differing rom).map (file.mismatchAt rom) := by
  rw [mismatches_zip hcount]
  simp only [Nat.zero_add]
  rfl

theorem differing_eq_nil_iff {file rom : Image} (hcount : file.wordCount = rom.wordCount) :
    file.differing rom = [] ↔ file.words = rom.words := by
  constructor
  · intro hnone
    apply eq_of_mismatches_eq_nil hcount
    rw [mismatches_eq_map_differing hcount, hnone, List.map_nil]
  · intro hwords
    simp [differing, hwords]

theorem run_compareFrom {onTick : Exchange Unit} (hticks : onTick.IsSilent)
    (pairs : List (UInt32 × UInt32)) (index : Nat) (tally : Tally) (s : σ) (w : ω) :
    (compareFrom onTick index tally pairs : Job σ RomError Tally).Makes s w []
      (.ok ((mismatches index pairs).foldl Tally.add tally)) s w := by
  induction pairs generalizing index tally with
  | nil => exact Routine.makes_pure _
  | cons pair rest ih =>
      obtain ⟨expected, actual⟩ := pair
      have hnext := fun tally =>
        (Routine.makes_lift hticks).silent_bind
          (f := fun _ => compareFrom onTick (index + 1) tally rest) (ih (index + 1) tally)
      rw [compareFrom, mismatches]
      by_cases heq : expected = actual
      · rw [if_pos heq, if_pos heq]
        exact hnext tally
      · rw [if_neg heq, if_neg heq]
        dsimp only
        split
        · exact (Routine.makes_remark _).silent_bind (hnext _)
        · exact hnext _

theorem ticks_compareFrom (pairs : List (UInt32 × UInt32)) (index : Nat) (tally : Tally) (s : σ)
    (w : ω) :
    Exchange.ticks
      ((compareFrom Exchange.tick index tally pairs : Job σ RomError Tally) s) w =
      pairs.length := by
  induction pairs generalizing index tally with
  | nil => rfl
  | cons pair rest ih =>
      obtain ⟨expected, actual⟩ := pair
      have hnext : ∀ tally, Exchange.ticks ((Routine.lift Exchange.tick >>= fun _ =>
          (compareFrom Exchange.tick (index + 1) tally rest : Job σ RomError Tally)) s) w =
          rest.length + 1 := by
        intro tally
        rw [Routine.ticks_lift_tick_bind, ih]
      rw [compareFrom, List.length_cons]
      by_cases heq : expected = actual
      · rw [if_pos heq]
        exact hnext tally
      · rw [if_neg heq]
        dsimp only
        split
        · rw [Routine.ticks_bind_ok (Routine.makes_remark _).run_eq, hnext]
          exact Nat.zero_add _
        · exact hnext _

theorem foldl_add_mismatches {file rom : Image} (hcount : file.wordCount = rom.wordCount) :
    (mismatches 0 (file.words.zip rom.words)).foldl Tally.add {} =
      ⟨(file.differing rom).length,
        ((file.differing rom).take maxSamples).map (file.mismatchAt rom)⟩ := by
  have htotal := Tally.total_foldl_add {} (mismatches 0 (file.words.zip rom.words))
  have hfirst := Tally.first_foldl_add {} (Nat.zero_le _) (mismatches 0 (file.words.zip rom.words))
  rw [mismatches_eq_map_differing hcount] at htotal hfirst ⊢
  rw [List.length_map, Nat.zero_add] at htotal
  rw [← List.map_take, List.nil_append] at hfirst
  have htally := congr (congrArg Tally.mk htotal) hfirst
  exact htally

theorem makes_compare {onTick : Exchange Unit} (hticks : onTick.IsSilent) (file rom : Image)
    (s : σ) (w : ω) :
    (file.compare rom onTick : Job σ RomError Unit).Makes s w [] (file.verdict rom) s w := by
  rw [compare, verdict]
  by_cases hloaded : file.isLoaded = false ∨ rom.isLoaded = false
  · have hguard : (!file.isLoaded || !rom.isLoaded) = true := by simpa using hloaded
    rw [if_pos hloaded, if_pos hguard]
    exact Routine.makes_fail _
  · have hguard : ¬(!file.isLoaded || !rom.isLoaded) = true := by simpa using hloaded
    rw [if_neg hloaded, if_neg hguard]
    by_cases hcount : file.wordCount = rom.wordCount
    · have hpairs := run_compareFrom (ω := ω) hticks (file.words.zip rom.words) 0 {} s w
      rw [foldl_add_mismatches hcount] at hpairs
      rw [if_neg (not_not_intro hcount), if_neg (not_not_intro hcount)]
      refine hpairs.silent_bind ?_
      by_cases hwords : file.words = rom.words
      · have hnone := (differing_eq_nil_iff hcount).mpr hwords
        rw [if_pos hwords, hnone]
        exact Routine.makes_pure ()
      · have hsome : (file.differing rom).length ≠ 0 := fun hzero =>
          hwords ((differing_eq_nil_iff hcount).mp (List.eq_nil_of_length_eq_zero hzero))
        rw [if_neg hwords, if_pos hsome]
        exact Routine.makes_fail _
    · rw [if_pos hcount, if_pos hcount]
      exact Routine.makes_fail _

theorem ticks_compare (file rom : Image) (s : σ) (w : ω) :
    Exchange.ticks ((file.compare rom Exchange.tick : Job σ RomError Unit) s) w =
      if file.isLoaded = true ∧ rom.isLoaded = true ∧ file.wordCount = rom.wordCount
      then file.wordCount else 0 := by
  rw [compare]
  by_cases hguard : (!file.isLoaded || !rom.isLoaded) = true
  · have hloaded : ¬(file.isLoaded = true ∧ rom.isLoaded = true ∧
        file.wordCount = rom.wordCount) := by
      rintro ⟨hfile, hrom, -⟩
      simp [hfile, hrom] at hguard
    rw [if_pos hguard, if_neg hloaded]
    rfl
  · have hloaded : file.isLoaded = true ∧ rom.isLoaded = true := by simpa using hguard
    rw [if_neg hguard]
    by_cases hcount : file.wordCount = rom.wordCount
    · have hpairs := run_compareFrom (ω := ω) Exchange.isSilent_tick (file.words.zip rom.words) 0
        {} s w
      have hlength : (file.words.zip rom.words).length = file.wordCount := by
        rw [List.length_zip]
        exact Nat.min_eq_left (Nat.le_of_eq hcount)
      rw [if_neg (not_not_intro hcount), if_pos ⟨hloaded.1, hloaded.2, hcount⟩,
        Routine.ticks_bind_ok hpairs.run_eq, ticks_compareFrom, hlength]
      -- Nothing is told once the words are compared.
      split <;> rfl
    · rw [if_pos hcount, if_neg fun h => hcount h.2.2]
      rfl

/-! ## The report of a failed comparison -/

/-- The error of a comparison keeps no more mismatches than there are, and at most sixteen. -/
theorem length_first_of_verdict {file rom : Image} {total : Nat} {first : List Mismatch}
    (h : file.verdict rom = .failed (.verifyMismatch total first)) :
    first.length = min maxSamples total := by
  rw [verdict] at h
  split at h
  next => cases h
  next =>
    split at h
    next => cases h
    next =>
      split at h
      next => cases h
      next =>
        cases h
        rw [List.length_map, List.length_take]

theorem turns_reportAll (events : List Event) (w : ω) :
    (Exchange.reportAll events).turns Bus.handler w = events.map fun e => ⟨.report e, ()⟩ := by
  induction events with
  | nil => rfl
  | cons e rest ih => exact congrArg (_ :: ·) ih

/-- The lines of a failed comparison: the cause, one for each mismatch that was kept, and one with
the number of the others if there are others. -/
theorem lines_eq_of_cause {f : StepFailure} {total : Nat} {first : List Mismatch}
    (hcause : f.cause = .verifyMismatch total first) (hkept : first.length ≤ total) :
    ∃ rest, f.lines =
        s!"slot {f.slot.column}: FAILED at step {f.step.name}: {f.cause.message}" ::
          (first.map (fun m => "  " ++ m.text) ++ rest) ∧
      (first.length = total → rest = []) ∧
      (first.length < total → ∃ k, first.length + k = total ∧ rest = [s!"  ... and {k} more"]) := by
  refine ⟨if first.length < total then [s!"  ... and {total - first.length} more"] else [], ?_,
    fun hall => ?_, fun hmore => ?_⟩
  · rw [StepFailure.lines]
    simp only [hcause]
  · rw [if_neg (by omega)]
  · rw [if_pos hmore]
    exact ⟨total - first.length, Nat.add_sub_of_le hkept, rfl⟩

/-- A comparison comes to the verdict on both images, having told one turn for each word if it got
to them. The report of a board that failed for it is its cause, every mismatch that was kept, in
order, and the number of those that were not. -/
theorem compare_accounts_for_differences (file rom : Image) (s : σ) (w : ω) :
    (∀ onTick : Exchange Unit, onTick.IsSilent →
      (file.compare rom onTick : Job σ RomError Unit).Makes s w [] (file.verdict rom) s w) ∧
    Exchange.ticks ((file.compare rom Exchange.tick : Job σ RomError Unit) s) w =
      (if file.isLoaded = true ∧ rom.isLoaded = true ∧ file.wordCount = rom.wordCount
        then file.wordCount else 0) ∧
    ∀ (f : StepFailure) (total : Nat) (first : List Mismatch),
      f.cause = .verifyMismatch total first → file.verdict rom = .failed f.cause →
      first.length = min maxSamples total ∧
      ∃ rest : List String,
        (Exchange.reportAll f.events).turns Bus.handler w =
          (s!"slot {f.slot.column}: FAILED at step {f.step.name}: {f.cause.message}" ::
            (first.map (fun m => "  " ++ m.text) ++ rest)).map
              (fun text => ⟨.report (.line f.slot f.step text), ()⟩) ∧
        (first.length = total → rest = []) ∧
        (first.length < total →
          ∃ k, first.length + k = total ∧ rest = [s!"  ... and {k} more"]) := by
  refine ⟨fun onTick hticks => makes_compare hticks file rom s w, ticks_compare file rom s w, ?_⟩
  intro f total first hcause hverdict
  have hlength := length_first_of_verdict (hcause ▸ hverdict)
  obtain ⟨rest, hlines, hrest⟩ := lines_eq_of_cause hcause (hlength ▸ Nat.min_le_right ..)
  refine ⟨hlength, rest, ?_, hrest⟩
  rw [turns_reportAll, StepFailure.events, hlines, List.map_map]
  rfl

theorem sixteen_of_seventeen_differences_kept :
    let zeros := ofWords (List.replicate 17 0)
    let ones := ofWords (List.replicate 17 1)
    let failure : StepFailure :=
      ⟨Slot.first, .verify, .verifyMismatch 17 ((List.range 16).map (zeros.mismatchAt ones))⟩
    zeros.verdict ones = .failed failure.cause ∧
    Exchange.ticks ((zeros.compare ones Exchange.tick : Job Unit RomError Unit) ())
      (⟨0⟩ : SteadyBus) = 17 ∧
    ∃ before, (Exchange.reportAll failure.events).turns Bus.handler (⟨0⟩ : SteadyBus) =
      before ++ [⟨.report (.line Slot.first .verify "  ... and 1 more"), ()⟩] := by
  intro zeros ones failure
  obtain ⟨-, hticks, hreport⟩ :=
    compare_accounts_for_differences zeros ones () (⟨0⟩ : SteadyBus)
  have hverdict : zeros.verdict ones = .failed failure.cause := by decide +kernel
  obtain ⟨-, rest, hturns, -, hmore⟩ := hreport failure 17 _ rfl hverdict
  obtain ⟨k, hk, rfl⟩ := hmore (by decide)
  obtain rfl : k = 1 := Nat.add_left_cancel hk
  rw [← List.cons_append, List.map_append] at hturns
  exact ⟨hverdict, hticks, _, hturns⟩

end Image
end Reflash
