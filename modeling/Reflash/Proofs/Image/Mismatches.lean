import Reflash.Image.Compare
import Reflash.Proofs.Bus.Trace
/-!
# Mismatches of two images

A comparison goes through two images word by word and tallies where they differ. `mismatches` is
the list of all places where they do; the tally counts that list and keeps the head of it.
-/

namespace Reflash

def mismatches (index : Nat) : List (UInt32 × UInt32) → List Mismatch
  | [] => []
  | (expected, actual) :: rest =>
    if expected = actual then mismatches (index + 1) rest
    else ⟨index, expected, actual⟩ :: mismatches (index + 1) rest

theorem mismatches_eq_nil_iff {index : Nat} {pairs : List (UInt32 × UInt32)} :
    mismatches index pairs = [] ↔ ∀ pair ∈ pairs, pair.1 = pair.2 := by
  induction pairs generalizing index with
  | nil => simp [mismatches]
  | cons pair rest ih =>
      obtain ⟨expected, actual⟩ := pair
      rw [mismatches, List.forall_mem_cons]
      by_cases heq : expected = actual
      · rw [if_pos heq, ih]
        exact ⟨fun h => ⟨heq, h⟩, fun h => h.2⟩
      · rw [if_neg heq]
        exact ⟨nofun, fun h => absurd h.1 heq⟩

theorem eq_of_mismatches_eq_nil {words words' : List UInt32}
    (hlength : words.length = words'.length) {index : Nat}
    (h : mismatches index (words.zip words') = []) : words = words' := by
  have hpairs := mismatches_eq_nil_iff.mp h
  apply List.ext_getElem hlength
  intro i hi hi'
  have hmem : (words[i], words'[i]) ∈ words.zip words' := by
    rw [List.mem_iff_getElem]
    refine ⟨i, ?_, List.getElem_zip⟩
    rw [List.length_zip]
    omega
  exact hpairs _ hmem

namespace Tally

theorem total_foldl_add (t : Tally) (found : List Mismatch) :
    (found.foldl add t).total = t.total + found.length := by
  induction found generalizing t with
  | nil => rfl
  | cons m rest ih =>
      have hadd : (t.add m).total = t.total + 1 := rfl
      rw [List.foldl_cons, ih, hadd, List.length_cons]
      omega

theorem first_foldl_add (t : Tally) (ht : t.first.length ≤ maxSamples)
    (found : List Mismatch) :
    (found.foldl add t).first = t.first ++ found.take (maxSamples - t.first.length) := by
  induction found generalizing t with
  | nil => simp
  | cons m rest ih =>
      rw [List.foldl_cons]
      by_cases hroom : t.first.length < maxSamples
      · have hadd : (t.add m).first = t.first ++ [m] := by simp [add, hasRoom, hroom]
        have hleft : maxSamples - t.first.length = maxSamples - (t.add m).first.length + 1 := by
          rw [hadd, List.length_append, List.length_singleton]
          omega
        rw [ih, hleft, List.take_succ_cons, hadd, List.append_assoc, List.singleton_append]
        rw [hadd, List.length_append, List.length_singleton]
        omega
      · have hadd : (t.add m).first = t.first := by simp [add, hasRoom, hroom]
        have hfull : maxSamples - t.first.length = 0 := by omega
        rw [ih _ (by rwa [hadd]), hadd, hfull, List.take_zero, List.take_zero]

end Tally

namespace Image

variable {σ : Type} {s s' : σ} {cycles : List Access} {onTick : Exchange Unit}

theorem ends_compareFrom (hticks : onTick.IsSilent) {index : Nat} {tally : Tally}
    {pairs : List (UInt32 × UInt32)} {out : Outcome RomError Tally}
    (h : (compareFrom onTick index tally pairs : Job σ RomError Tally).Ends s cycles out s') :
    cycles = [] ∧ out = .ok ((mismatches index pairs).foldl Tally.add tally) ∧ s' = s := by
  induction pairs generalizing index tally with
  | nil => exact Routine.ends_pure.mp h
  | cons pair rest ih =>
      obtain ⟨expected, actual⟩ := pair
      rw [compareFrom] at h
      rw [mismatches]
      by_cases heq : expected = actual
      · rw [if_pos heq] at h ⊢
        exact ih (Routine.ends_lift_bind hticks h)
      · rw [if_neg heq] at h ⊢
        dsimp only at h
        split at h
        · exact ih (Routine.ends_lift_bind hticks (Job.ends_remark_bind h))
        · exact ih (Routine.ends_lift_bind hticks h)

theorem exists_contents?_of_words_eq {file rom : Image} (hfile : file.isLoaded = true)
    (hrom : rom.isLoaded = true) (hwords : file.words = rom.words) :
    ∃ words, file.contents? = some words ∧ rom.contents? = some words := by
  obtain ⟨fileWords, hfile⟩ := Option.isSome_iff_exists.mp hfile
  obtain ⟨romWords, hrom⟩ := Option.isSome_iff_exists.mp hrom
  rw [words, words, hfile, hrom] at hwords
  refine ⟨fileWords, hfile, ?_⟩
  rw [hrom, show romWords = fileWords from hwords.symm]

/-- How a comparison ends: only equal images pass it. -/
theorem ends_compare (hticks : onTick.IsSilent) {file rom : Image}
    {out : Outcome RomError Unit}
    (h : (file.compare rom onTick : Job σ RomError Unit).Ends s cycles out s') :
    cycles = [] ∧ s' = s ∧ (out = .ok () →
      ∃ words, file.contents? = some words ∧ rom.contents? = some words) := by
  rw [compare] at h
  split at h
  next =>
    obtain ⟨rfl, rfl, rfl⟩ := Routine.ends_fail.mp h
    exact ⟨rfl, rfl, nofun⟩
  next hloaded =>
    split at h
    next =>
      obtain ⟨rfl, rfl, rfl⟩ := Routine.ends_fail.mp h
      exact ⟨rfl, rfl, nofun⟩
    next hcount =>
      obtain ⟨before, tally, s₁, after, rfl, hpairs, hresult⟩ | ⟨e, rfl, hpairs⟩ |
        ⟨rfl, hpairs⟩ := Routine.ends_bind.mp h
      · obtain ⟨rfl, htally, rfl⟩ := ends_compareFrom hticks hpairs
        split at hresult
        next =>
          obtain ⟨rfl, rfl, rfl⟩ := Routine.ends_fail.mp hresult
          exact ⟨rfl, rfl, nofun⟩
        next hzero =>
          obtain ⟨rfl, rfl, rfl⟩ := Routine.ends_pure.mp hresult
          refine ⟨rfl, rfl, fun _ => ?_⟩
          obtain rfl : tally = _ := by simpa using htally
          rw [Tally.total_foldl_add] at hzero
          have hnone : mismatches 0 (file.words.zip rom.words) = [] := by
            apply List.eq_nil_of_length_eq_zero
            omega
          have hwords := eq_of_mismatches_eq_nil (Decidable.not_not.mp hcount) hnone
          have hboth : file.isLoaded = true ∧ rom.isLoaded = true := by simpa using hloaded
          exact exists_contents?_of_words_eq hboth.1 hboth.2 hwords
      · obtain ⟨-, habsurd, -⟩ := ends_compareFrom hticks hpairs
        cases habsurd
      · obtain ⟨-, habsurd, -⟩ := ends_compareFrom hticks hpairs
        cases habsurd

theorem compareFrom_zip_self (index : Nat) (tally : Tally) (words : List UInt32) :
    (compareFrom Exchange.silent index tally (words.zip words) : Job σ RomError Tally) =
      pure tally := by
  induction words generalizing index with
  | nil => rfl
  | cons word rest ih =>
      rw [List.zip_cons_cons, compareFrom, if_pos rfl]
      exact ih (index + 1)

theorem compare_of_contents_eq {file rom : Image} {words : List UInt32}
    (hfile : file.contents? = some words) (hrom : rom.contents? = some words) :
    (file.compare rom Exchange.silent : Job σ RomError Unit) = pure () := by
  have hloaded : (!file.isLoaded || !rom.isLoaded) = false := by
    simp [isLoaded, hfile, hrom]
  have hwords : file.words = words := by rw [Image.words, hfile, Option.getD_some]
  have hwords' : rom.words = words := by rw [Image.words, hrom, Option.getD_some]
  have hcount : file.wordCount = rom.wordCount := by
    rw [wordCount, wordCount, hwords, hwords']
  rw [compare, hloaded, if_neg Bool.false_ne_true, if_neg (not_not_intro hcount), hwords, hwords',
    compareFrom_zip_self, pure_bind]
  exact if_neg (not_not_intro rfl)

end Image
end Reflash
