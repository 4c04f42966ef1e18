import Mathlib.Data.List.Induction
import Reflash.Proofs.Bus.Handling
import Reflash.Proofs.Host.Files
import Reflash.Proofs.Image.Codec
import Reflash.Proofs.Simulation.Crate
import Reflash.Rom.Reading
/-!
# Where an image came from

An image that was read from a file records the file's path. Releasing it and reading a ROM into it
change its words and leave the record alone, so the record says which file was read last and not
whose words these are. Over any sequence of operations, however each of them ends, both can be told
from the operations since that file was read: the words are the file's unless an operation took
them away, and then they are what the last such operation brought.
-/

namespace Reflash

/-- What a download that is not refused makes of the image: it holds the words that were read if
all of them were, and none otherwise. -/
theorem RomSession.run_download {ω : Type} [Bus ω] {sizeBytes : Nat}
    (haligned : sizeBytes % Rom.wordBytes = 0) (hsize : sizeBytes ≤ Rom.capacity)
    (onTick : Exchange Unit) (s : RomSession) (image : Image) (w : ω) :
    ((download sizeBytes onTick (s, image)).run Bus.handler w).1.2.2 =
      match ((readWords (sizeBytes / Rom.wordBytes) onTick s).run Bus.handler w).1.1 with
      | .ok words => image.fill words
      | .failed _ | .offBus => image.release := by
  have hgood : ¬(sizeBytes % Rom.wordBytes ≠ 0 ∨ Rom.capacity < sizeBytes) := by omega
  obtain ⟨cycles, out, s', w', hwords⟩ :=
    (readWords (sizeBytes / Rom.wordBytes) onTick).exists_makes s w
  have hpart : ((readWords (sizeBytes / Rom.wordBytes) onTick).within Prod.fst
      fun p s => (s, p.2) : Job (RomSession × Image) RomError _).Makes (s, image.release) w cycles
        out (s', image.release) w' :=
    Routine.Makes.within hwords
  rw [download, if_neg hgood, Routine.run_bind_ok (Routine.makes_modify _).run_eq,
    Routine.run_bind, hpart.run_eq, hwords.run_eq]
  cases out <;> rfl

namespace Image

theorem source?_of_ofFile {path : String} {content : Except Host.OsError Host.Content}
    {image : Image} (h : ofFile path content = .ok image) : image.source? = some path := by
  cases content with
  | error cause => cases h
  | ok content =>
      obtain ⟨read, -, heq⟩ := exists_of_bind_eq_ok h
      cases heq
      rfl

/-- What can be done to an image. A file is given by what came of reading it, and a ROM is read over
a bus that is in any state by then. -/
inductive Operation (σ : Type) where
  | new
  | ofWords (words : List UInt32)
  | ofBytes (bytes : ByteArray)
  | ofFile (path : String) (content : Except Host.OsError Host.Content)
  | release
  | download (session : RomSession) (sizeBytes : Nat) (bus : σ)

namespace Operation

variable {σ : Type} [Bus σ] {ops before since : List (Operation σ)} {op : Operation σ}
  {made : Image} {path : String} {content : Except Host.OsError Host.Content}
  {words : List UInt32}

/-- The new image that an operation makes. It makes none if it is to change the one there is, or if
it fails. -/
def made? : Operation σ → Option Image
  | new => some {}
  | ofWords words => some (.ofWords words)
  | ofBytes bytes => (Image.ofBytes bytes).toOption
  | ofFile path content => (Image.ofFile path content).toOption
  | release | download .. => none

def apply (image : Image) : Operation σ → Image
  | release => image.release
  | download session sizeBytes bus =>
      ((RomSession.download sizeBytes Exchange.tick (session, image)).run Bus.handler bus).1.2.2
  | op => op.made?.getD image

def applied (ops : List (Operation σ)) : Image := ops.foldl apply {}

def empties : Operation σ → Bool
  | release => true
  | download _ sizeBytes _ => sizeBytes % Rom.wordBytes = 0 ∧ sizeBytes ≤ Rom.capacity
  | new | ofWords _ | ofBytes _ | ofFile .. => false

/-- The words that an operation brings in place of those that it takes away. -/
def brought? : Operation σ → Option (List UInt32)
  | download session sizeBytes bus =>
      match ((RomSession.readWords (sizeBytes / Rom.wordBytes) Exchange.tick session).run
        Bus.handler bus).1.1 with
      | .ok words => some words
      | .failed _ | .offBus => none
  | new | ofWords _ | ofBytes _ | ofFile .. | release => none

/-- An operation makes a new image, or changes the words of the one there is, or leaves it. -/
theorem apply_eq (image : Image) (op : Operation σ) :
    apply image op =
      op.made?.getD (if op.empties then { image with contents? := op.brought? } else image) := by
  cases op with
  | new | release => rfl
  | ofWords | ofBytes | ofFile => rfl
  | download session sizeBytes bus =>
      by_cases hsize : sizeBytes % Rom.wordBytes = 0 ∧ sizeBytes ≤ Rom.capacity
      · rw [empties, if_pos (decide_eq_true hsize), apply, made?,
          RomSession.run_download hsize.1 hsize.2, brought?]
        split <;> rfl
      · -- A download that is refused for its size has not touched the image.
        have hbad : sizeBytes % Rom.wordBytes ≠ 0 ∨ Rom.capacity < sizeBytes := by omega
        rw [empties, if_neg (by simpa using hsize), apply, RomSession.download, if_pos hbad]
        rfl

theorem applied_append_singleton (ops : List (Operation σ)) (op : Operation σ) :
    applied (ops ++ [op]) = apply (applied ops) op :=
  List.foldl_append

omit [Bus σ] in
theorem eq_ofFile_of_made? (hmade : op.made? = some made) (hsource : made.source? = some path) :
    ∃ content words, op = .ofFile path content ∧
      Image.ofFile path content = .ok ⟨some words, some path⟩ := by
  cases op with
  | new | ofWords =>
      cases hmade
      cases hsource
  | release | download => cases hmade
  | ofBytes bytes =>
      obtain ⟨-, rfl⟩ := ofBytes_eq_ok_iff.mp (eq_ok_of_toOption hmade)
      cases hsource
  | ofFile path' content =>
      have hread := eq_ok_of_toOption hmade
      obtain rfl : path' = path := Option.some.inj ((source?_of_ofFile hread).symm.trans hsource)
      refine ⟨content, made.words, rfl, hread.trans ?_⟩
      rw [← (words_of_ofFile hread).1, ← hsource]

/-! ## Since a file was read -/

/-- The last image made was read from the file at `path`: it had these words, and since then only
these operations were made. -/
structure LastRead (ops : List (Operation σ)) (path : String) (before : List (Operation σ))
    (content : Except Host.OsError Host.Content) (words : List UInt32)
    (since : List (Operation σ)) : Prop where
  split : ops = before ++ .ofFile path content :: since
  read : Image.ofFile path content = .ok ⟨some words, some path⟩
  none_made : ∀ op ∈ since, op.made? = none

def wordsSince (words : List UInt32) (since : List (Operation σ)) : Option (List UInt32) :=
  (since.filter empties).getLast?.elim (some words) brought?

theorem wordsSince_append_singleton (words : List UInt32) (since : List (Operation σ))
    (op : Operation σ) :
    wordsSince words (since ++ [op]) =
      if op.empties then op.brought? else wordsSince words since := by
  rw [wordsSince, wordsSince, List.filter_append]
  cases hempties : op.empties with
  | true =>
      rw [List.filter_cons_of_pos hempties, List.filter_nil, List.getLast?_concat]
      rfl
  | false =>
      have hnot : ¬op.empties = true := by simp [hempties]
      rw [List.filter_cons_of_neg hnot, List.filter_nil, List.append_nil]
      rfl

theorem applied_of_lastRead (h : LastRead ops path before content words since) :
    applied ops = ⟨wordsSince words since, some path⟩ := by
  obtain ⟨rfl, hread, hnone⟩ := h
  induction since using List.reverseRecOn with
  | nil =>
      have hmade : (ofFile path content : Operation σ).made? = some ⟨some words, some path⟩ := by
        rw [made?, hread]
        rfl
      rw [applied_append_singleton, apply_eq, hmade]
      rfl
  | append_singleton since op ih =>
      obtain ⟨hpast, hlast⟩ := List.forall_mem_append.mp hnone
      rw [← List.cons_append, ← List.append_assoc, applied_append_singleton, ih hpast, apply_eq,
        hlast op (List.mem_singleton_self op), wordsSince_append_singleton]
      cases op.empties <;> rfl

theorem exists_lastRead (hsource : (applied ops).source? = some path) :
    ∃ before content words since, LastRead ops path before content words since := by
  induction ops using List.reverseRecOn with
  | nil => cases hsource
  | append_singleton ops op ih =>
      rw [applied_append_singleton, apply_eq] at hsource
      cases hmade : op.made? with
      | some made =>
          rw [hmade] at hsource
          obtain ⟨content, words, rfl, hread⟩ := eq_ofFile_of_made? hmade hsource
          exact ⟨ops, content, words, [], rfl, hread, nofun⟩
      | none =>
          have hkept : (applied ops).source? = some path := by
            rw [hmade] at hsource
            cases hempties : op.empties with
            | true | false => rwa [hempties] at hsource
          obtain ⟨before, content, words, since, rfl, hread, hnone⟩ := ih hkept
          refine ⟨before, content, words, since ++ [op], ?_, hread, ?_⟩
          · rw [List.append_assoc, List.cons_append]
          · exact List.forall_mem_append.mpr ⟨hnone, List.forall_mem_singleton.mpr hmade⟩

/-- Whatever has been done to an image, it has a source exactly if the last image made was read from
that file. By now it holds the words that were read if nothing has taken them away since, and
otherwise those that the last operation to do so brought. So it holds the file's words exactly if no
words were taken away, or the last to be brought were the very same. -/
theorem source_is_of_last_read (ops : List (Operation σ)) (path : String) :
    ((applied ops).source? = some path ↔
      ∃ before content words since, LastRead ops path before content words since) ∧
    ∀ before content words since, LastRead ops path before content words since →
      (applied ops).contents? = wordsSince words since ∧
      ((applied ops).contents? = some words ↔
        ∀ op ∈ (since.filter empties).getLast?, op.brought? = some words) := by
  constructor
  · refine ⟨exists_lastRead, ?_⟩
    rintro ⟨before, content, words, since, h⟩
    rw [applied_of_lastRead h]
  · intro before content words since h
    rw [applied_of_lastRead h, wordsSince]
    refine ⟨rfl, ?_⟩
    cases (since.filter empties).getLast? with
    | none => exact iff_of_true rfl nofun
    | some op =>
        constructor
        · rintro hbrought _ ⟨⟩
          exact hbrought
        · exact fun h => h op rfl

/-- What is downloaded in a session with the board in the third slot, from a bus on which every
register reads as a ready engine: one word, and no other than the word that is read for ready. -/
def downloadReady : Operation SteadyBus :=
  .download { board := .geographic .third, budgets := {}, timing := .immediate } Rom.wordBytes
    ⟨EngineStatus.ready⟩

theorem brought?_downloadReady : downloadReady.brought? = some [EngineStatus.ready] := by
  decide +kernel

theorem source_is_of_last_read_downloaded :
    let content := .ok (.ofBytes (BigEndian.encode [EngineStatus.ready]))
    let since := [.release, downloadReady]
    LastRead (.ofFile "rom.bin" content :: since) "rom.bin" [] content [EngineStatus.ready] since ∧
      (applied (.ofFile "rom.bin" content :: since)).contents? = some [EngineStatus.ready] := by
  intro content since
  have hread : LastRead (.ofFile "rom.bin" content :: since) "rom.bin" [] content
      [EngineStatus.ready] since :=
    ⟨rfl, ofFile_encode "rom.bin" (Nat.succ_pos 0), by decide⟩
  refine ⟨hread, ((source_is_of_last_read _ "rom.bin").2 _ _ _ _ hread).2.mpr ?_⟩
  rintro op ⟨⟩
  exact brought?_downloadReady

/-- An image of one word is read from a file and another word is downloaded into it, and then it is
released. Its source is the file all along. -/
theorem source_outlives_words :
    let content := .ok (.ofBytes (BigEndian.encode [0]))
    let read : List (Operation SteadyBus) := [.ofFile "rom.bin" content]
    applied read = ⟨some [0], some "rom.bin"⟩ ∧ EngineStatus.ready ≠ 0 ∧
      applied (read ++ [downloadReady]) = ⟨some [EngineStatus.ready], some "rom.bin"⟩ ∧
      applied (read ++ [downloadReady, .release]) = ⟨none, some "rom.bin"⟩ := by
  intro content read
  have hread : Image.ofFile "rom.bin" content = .ok ⟨some [0], some "rom.bin"⟩ :=
    ofFile_encode "rom.bin" (Nat.succ_pos 0)
  have hlast (since : List (Operation SteadyBus)) (hnone : ∀ op ∈ since, op.made? = none) :
      applied (read ++ since) = ⟨wordsSince [0] since, some "rom.bin"⟩ := by
    have h : LastRead (read ++ since) "rom.bin" [] content [0] since := ⟨rfl, hread, hnone⟩
    exact applied_of_lastRead h
  refine ⟨hlast [] nofun, by decide, (hlast [downloadReady] (by decide)).trans ?_,
    hlast [downloadReady, .release] (by decide)⟩
  rw [← brought?_downloadReady]
  rfl

end Operation
end Image
end Reflash
