import Mathlib.Data.List.GetD
import Reflash.Proofs.Simulation.Programming
/-!
# Whole pages

What programming an image makes of a ROM, erased or not: bits are cleared page by page. A run that
succeeds has committed all pages of the image. One that fails has committed whole pages or none, so
the ROM never holds a part of a page.
-/

namespace Reflash

namespace RomContents

variable {rom before : RomContents} {words : List UInt32}

/-- The contents are those of before, except for the bits that are clear in some words from the
start of the ROM on. -/
structure Overlays (rom before : RomContents) (words : List UInt32) : Prop where
  covered : ∀ i (h : i < words.length), rom.wordAt i = before.wordAt i &&& words[i]
  untouched : ∀ i, words.length ≤ i → rom.wordAt i = before.wordAt i

/-- Where there is no word any more, the flush word stands for it: it clears nothing. -/
theorem overlays_of_getD
    (h : ∀ i, rom.wordAt i = before.wordAt i &&& words.getD i Rom.flushWord) :
    rom.Overlays before words := by
  constructor
  · intro i hi
    rw [h i, List.getD_eq_getElem _ _ hi]
  · intro i hi
    rw [h i, List.getD_eq_default _ _ hi, Rom.and_flushWord]

theorem overlays_nil (rom : RomContents) : rom.Overlays rom [] :=
  overlays_of_getD fun i => (Rom.and_flushWord (rom.wordAt i)).symm

theorem commit_flushWord (rom : RomContents) (page : Array (Nat × UInt32)) (index j : Nat) :
    (rom.commit (page.push (index, Rom.flushWord))).wordAt j = (rom.commit page).wordAt j := by
  rw [Array.push_eq_append, commit_append]
  exact wordAt_program_flushWord _ index j

end RomContents

namespace SimulatedBoard

variable {b : SimulatedBoard} {index : Nat} {words : List UInt32}

def pageRoom (index : Nat) : Nat := Rom.pageWords - index % Rom.pageWords

theorem pageRoom_of_endsPage (h : Rom.endsPage index = true) : pageRoom index = 1 := by
  have hwords : Rom.pageWords = 64 := rfl
  have hmod : (index + 1) % Rom.pageWords = 0 := beq_iff_eq.mp h
  rw [pageRoom]
  rw [hwords] at hmod ⊢
  omega

theorem pageRoom_of_not_endsPage (h : Rom.endsPage index = false) :
    pageRoom index = pageRoom (index + 1) + 1 := by
  have hwords : Rom.pageWords = 64 := rfl
  have hmod : (index + 1) % Rom.pageWords ≠ 0 := beq_eq_false_iff_ne.mp h
  rw [pageRoom, pageRoom]
  rw [hwords] at hmod ⊢
  omega

/-- One page is committed, whichever word closes it, and nothing is left of its buffer. -/
theorem pageFilled_frame (b : SimulatedBoard) (index : Nat) (words : List UInt32) :
    ∃ rom, b.pageFilled index words =
      { b with
        rom := rom
        page := none
        writeEnabled := false
        busy := 0
        activity.pageCommits := b.activity.pageCommits + 1 } := by
  induction words generalizing b index with
  | nil => exact ⟨_, rfl⟩
  | cons word rest ih =>
      rw [pageFilled]
      split
      · exact ⟨_, rfl⟩
      · obtain ⟨rom, hrest⟩ := ih (b.written index word false) (index + 1)
        exact ⟨rom, hrest⟩

/-- The page that is committed holds what was in its buffer before and the words that it had room
for. -/
theorem wordAt_pageFilled (b : SimulatedBoard) (index : Nat) (words : List UInt32) (j : Nat) :
    (b.pageFilled index words).rom.wordAt j =
      (b.rom.commit (b.page.getD #[] ++
        (indexed index (words.take (pageRoom index))).toArray)).wordAt j := by
  induction words generalizing b index with
  | nil =>
      have hnone : b.page.getD #[] ++
          (indexed index (([] : List UInt32).take (pageRoom index))).toArray =
            b.page.getD #[] := by simp [indexed]
      rw [hnone]
      exact b.rom.commit_flushWord _ index j
  | cons word rest ih =>
      rw [pageFilled]
      cases hends : Rom.endsPage index with
      | true =>
          have hpage : b.page.getD #[] ++ (indexed index ((word :: rest).take 1)).toArray =
              b.pageWith index word := by simp [indexed, pageWith]
          rw [if_pos rfl, pageRoom_of_endsPage hends, hpage]
          rfl
      | false =>
          have hentries : #[(index, word)] ++
              (indexed (index + 1) (rest.take (pageRoom (index + 1)))).toArray =
              (indexed index ((word :: rest).take (pageRoom (index + 1) + 1))).toArray := by
            simp [indexed]
          rw [if_neg Bool.false_ne_true, ih, commit_written, hentries,
            pageRoom_of_not_endsPage hends]

theorem overlays_filled (hpage : b.page = none) (words : List UInt32) :
    (b.filled 0 words).rom.Overlays b.rom words :=
  RomContents.overlays_of_getD (wordAt_filled hpage words)

theorem overlays_pageFilled (hpage : b.page = none) (words : List UInt32) :
    (b.pageFilled 0 words).rom.Overlays b.rom (words.take Rom.pageWords) := by
  have hroom : pageRoom 0 = Rom.pageWords := rfl
  apply RomContents.overlays_of_getD
  intro j
  rw [wordAt_pageFilled, hpage, Option.getD_none, Array.empty_append, hroom,
    RomContents.wordAt_commit_indexed, if_pos (Nat.zero_le j), Nat.sub_zero]

end SimulatedBoard

namespace SimulatedBoard

variable {b b' b'' : SimulatedBoard} {words : List UInt32} {k : Nat}

/-- The board has all pages of some words in its ROM, the page that the flush word closes included,
and is done with them. -/
structure Programmed (b : SimulatedBoard) (words : List UInt32) (b' : SimulatedBoard) : Prop where
  rom : b'.rom.Overlays b.rom words
  pageCommits :
    b'.activity.pageCommits = b.activity.pageCommits + (words.length / Rom.pageWords + 1)
  droppedWords : b'.activity.droppedWords = b.activity.droppedWords
  busy : b'.busy = 0
  writeEnabled : b'.writeEnabled = false
  page : b'.page = none

/-- The board has the first `k` pages of some words in its ROM, and nothing of the others. -/
structure Interrupted (b : SimulatedBoard) (words : List UInt32) (k : Nat) (b' : SimulatedBoard) :
    Prop where
  rom : b'.rom.Overlays b.rom (words.take (k * Rom.pageWords))
  pageCommits : b'.activity.pageCommits = b.activity.pageCommits + k

theorem Programmed.alike (h : b.Programmed words b') (hb : Alike b'' b') :
    b.Programmed words b'' := by
  have hrom : b''.rom = b'.rom := (congrArg SimulatedBoard.rom hb.outline_eq :)
  have hcommits : b''.activity.pageCommits = b'.activity.pageCommits :=
    (congrArg (fun b => b.activity.pageCommits) hb.outline_eq :)
  have hdropped : b''.activity.droppedWords = b'.activity.droppedWords :=
    (congrArg (fun b => b.activity.droppedWords) hb.outline_eq :)
  have hbusy : b''.busy = b'.busy := (congrArg SimulatedBoard.busy hb.outline_eq :)
  have henabled : b''.writeEnabled = b'.writeEnabled :=
    (congrArg SimulatedBoard.writeEnabled hb.outline_eq :)
  have hpage : b''.page = b'.page := (congrArg SimulatedBoard.page hb.outline_eq :)
  constructor
  · rw [hrom]
    exact h.rom
  · rw [hcommits, h.pageCommits]
  · rw [hdropped, h.droppedWords]
  · rw [hbusy, h.busy]
  · rw [henabled, h.writeEnabled]
  · rw [hpage, h.page]

theorem Interrupted.alike (h : b.Interrupted words k b') (hb : Alike b'' b') :
    b.Interrupted words k b'' := by
  have hrom : b''.rom = b'.rom := (congrArg SimulatedBoard.rom hb.outline_eq :)
  have hcommits : b''.activity.pageCommits = b'.activity.pageCommits :=
    (congrArg (fun b => b.activity.pageCommits) hb.outline_eq :)
  constructor
  · rw [hrom]
    exact h.rom
  · rw [hcommits, h.pageCommits]

theorem interrupted_zero (words : List UInt32) (hrom : b'.rom = b.rom)
    (hcommits : b'.activity.pageCommits = b.activity.pageCommits) :
    b.Interrupted words 0 b' := by
  constructor
  · rw [hrom, Nat.zero_mul, List.take_zero]
    exact b.rom.overlays_nil
  · rw [hcommits, Nat.add_zero]

theorem programmed_filled (hpage : b.page = none) (words : List UInt32) :
    b.Programmed words (b.settled.filled 0 words) := by
  have hfilled := b.settled.filled_eq 0 words
  constructor
  · exact overlays_filled (b := b.settled) hpage words
  · rw [hfilled, Nat.zero_mod, Nat.zero_add, ← Nat.add_assoc]
    rfl
  · rw [hfilled]
    rfl
  · rw [hfilled]
  · rw [hfilled]
  · rw [hfilled]

theorem interrupted_pageFilled (hpage : b.page = none) (words : List UInt32) (busy : Nat) :
    b.Interrupted words 1 { b.settled.pageFilled 0 words with busy := busy } := by
  rcases b.settled.pageFilled_frame 0 words with ⟨rom, hframe⟩
  constructor
  · rw [Nat.one_mul]
    exact overlays_pageFilled (b := b.settled) hpage words
  · rw [hframe]
    rfl

end SimulatedBoard

/-! ## From whatever state the engine is in -/

namespace RomSession

section Program

variable {s : RomSession} {slot : Slot} {b : SimulatedBoard} {onTick : Exchange Unit}
  {image : Image} {words : List UInt32} (hs : s.board = .geographic slot) (hbusy : b.busy = 0)
include hs hbusy

section Answers

variable (hanswers : b.AnswersWithin s.budgets.commandReadyTries)
include hanswers

private theorem yields_fill_of_rest (hticks : onTick.IsSilent)
    (hopen : b.faults.writeProtected = false) {word : UInt32} {rest : List UInt32}
    {out : Outcome RomError Unit} {b' : SimulatedBoard}
    (hrest : (writeWordsFrom onTick 1 rest >>= fun behind =>
      writeWord (Rom.wordAddress behind) Rom.flushWord true).Yields s
        (b.settled.written 0 word false) out s b') :
    (writeWordsFrom onTick 0 (word :: rest) >>= fun behind =>
      writeWord (Rom.wordAddress behind) Rom.flushWord true).Yields s b out s b' := by
  have hends : Rom.endsPage 0 = false := by decide
  have hword : (writeWord (Rom.wordAddress 0) word false).Yields s b (.ok ()) s
      (b.settled.written 0 word false) :=
    yields_writeWord_settled hs (hanswers.accepts hopen rfl) hbusy (by decide) nofun
  rw [writeWordsFrom, bind_assoc, hends]
  refine hword.bind ?_
  rw [bind_assoc]
  exact (Routine.yields_lift hticks).bind hrest

theorem yields_fill_settled (hticks : onTick.IsSilent)
    (hsize : words.length < Rom.capacity / Rom.wordBytes)
    (hopen : b.faults.writeProtected = false) (hpage : b.latency.page < s.budgets.pageTries) :
    (writeWordsFrom onTick 0 words >>= fun behind =>
      writeWord (Rom.wordAddress behind) Rom.flushWord true).Yields s b (.ok ()) s
        (b.settled.filled 0 words) := by
  have hready : 0 < s.budgets.commandReadyTries := Nat.zero_lt_of_lt hanswers.2
  have hwritable : b.settled.Writable 0 := ⟨⟨hanswers.1, rfl⟩, hbusy, hopen, fun h => absurd rfl h⟩
  cases words with
  | nil => exact yields_writeWord_settled hs (hanswers.accepts hopen rfl) hbusy hsize fun _ => hpage
  | cons word rest =>
      have hends : Rom.endsPage 0 = false := by decide
      have hlater := hwritable.written word
      have hroom : 0 + 1 + rest.length < Rom.capacity / Rom.wordBytes := by
        rw [List.length_cons] at hsize
        omega
      rw [hends] at hlater
      rw [SimulatedBoard.filled_cons, hends]
      apply yields_fill_of_rest hs hbusy hanswers hticks hopen
      exact yields_fill hs hready hticks hlater hroom hpage

theorem yields_fill_settled_timeout (hticks : onTick.IsSilent)
    (hsize : words.length < Rom.capacity / Rom.wordBytes)
    (hopen : b.faults.writeProtected = false) (hpage : s.budgets.pageTries ≤ b.latency.page) :
    (writeWordsFrom onTick 0 words >>= fun behind =>
      writeWord (Rom.wordAddress behind) Rom.flushWord true).Yields s b
        (.failed (.writeTimeout s.budgets.pageTries)) s
        { b.settled.pageFilled 0 words with busy := b.latency.page - s.budgets.pageTries } := by
  have hready : 0 < s.budgets.commandReadyTries := Nat.zero_lt_of_lt hanswers.2
  have hwritable : b.settled.Writable 0 := ⟨⟨hanswers.1, rfl⟩, hbusy, hopen, fun h => absurd rfl h⟩
  cases words with
  | nil => exact yields_writeWord_settled_timeout hs (hanswers.accepts hopen rfl) hbusy hsize hpage
  | cons word rest =>
      have hends : Rom.endsPage 0 = false := by decide
      have hlater := hwritable.written word
      have hroom : 0 + 1 + rest.length < Rom.capacity / Rom.wordBytes := by
        rw [List.length_cons] at hsize
        omega
      rw [hends] at hlater
      rw [SimulatedBoard.pageFilled, hends, if_neg Bool.false_ne_true]
      apply yields_fill_of_rest hs hbusy hanswers hticks hopen
      exact yields_fill_timeout hs hready hticks hlater hroom hpage

end Answers

variable (himage : image.contents? = some words) (hsize : image.sizeBytes ≤ Rom.maxImageBytes)
include himage hsize

/-- Programming comes to whole pages, whatever is wrong with the board. -/
theorem yields_program_pages (hticks : onTick.IsSilent) (hpage : b.page = none) :
    ∃ out b', (program image onTick).Yields s b out s b' ∧
      (out = .ok () ∧ b.Programmed words b' ∨
        (∃ e, out = .failed e) ∧ ∃ k, b.Interrupted words k b') := by
  have hlength := image.length_lt himage hsize
  by_cases hanswers : b.AnswersWithin s.budgets.commandReadyTries
  · cases hprotected : b.faults.writeProtected with
    | true =>
        have henable := yields_enableWrites_settled_protected hs hanswers hprotected
        refine ⟨_, _, yields_program_failed himage hsize henable, ?_⟩
        exact .inr ⟨⟨_, rfl⟩, 0, SimulatedBoard.interrupted_zero words rfl rfl⟩
    | false =>
        rw [program_eq himage hsize]
        by_cases hlt : b.latency.page < s.budgets.pageTries
        · refine ⟨_, _, yields_fill_settled hs hbusy hanswers hticks hlength hprotected hlt, ?_⟩
          exact .inl ⟨rfl, SimulatedBoard.programmed_filled hpage words⟩
        · have hle := Nat.not_lt.mp hlt
          refine ⟨_, _,
            yields_fill_settled_timeout hs hbusy hanswers hticks hlength hprotected hle, ?_⟩
          exact .inr ⟨⟨_, rfl⟩, 1, SimulatedBoard.interrupted_pageFilled hpage words _⟩
  · have hcommand : (command { opcode := .writeEnable }).Yields s b
        (.failed (.readyTimeout s.budgets.commandReadyTries)) s
        (b.polled s.budgets.commandReadyTries) := yields_command_timeout hs hanswers
    refine ⟨_, _, yields_program_failed himage hsize hcommand.bind_failed, ?_⟩
    exact .inr ⟨⟨_, rfl⟩, 0, SimulatedBoard.interrupted_zero words rfl rfl⟩

/-- Programming an image on the board in a slot, whose ROM may hold anything and whose latch, faults
and latencies may be any, is a matter of whole pages. If it succeeds, all of them have been
committed, no word was dropped, and the board is done. If it fails, some first pages have been
committed, and no word behind them has changed. -/
theorem program_whole_pages {c : SimulatedCrate} (hb : c.board? slot = some b)
    (hpage : b.page = none) (hticks : onTick.IsSilent) :
    ∃ out s' b', (program image onTick s).run Bus.handler c = ((out, s'), c.insert slot b') ∧
      (out = .ok () ∧ b.Programmed words b' ∨
        (∃ e, out = .failed e) ∧ ∃ k, b.Interrupted words k b') := by
  have hdrives := isProper_program hticks image (.geographic slot) slot.fits_geographic s hs
  have howns : (program image onTick s).Keeps (Board.geographic slot).Owns fun _ => True :=
    hdrives.mono (fun _ h => .inl (.inl h)) fun _ _ => trivial
  rcases yields_program_pages hs hbusy himage hsize hticks hpage with ⟨out, b₁, hyields, hends⟩
  rcases hyields (.refl s) (.refl b) with ⟨s', b', hrun, -, halike⟩
  refine ⟨out, s', b', ?_, ?_⟩
  · rw [SimulatedCrate.run_of_owns howns hb, hrun]
  · rcases hends with ⟨hok, hprogrammed⟩ | ⟨hfailed, k, hinterrupted⟩
    · exact .inl ⟨hok, hprogrammed.alike halike⟩
    · exact .inr ⟨hfailed, k, hinterrupted.alike halike⟩

end Program

/-- A board whose ROM is not erased, with its latch still set. -/
def usedBoard : SimulatedBoard :=
  { version := ⟨1, 1⟩, rom := .ofWords [0x3C, 0x55], writeEnabled := true }

theorem program_whole_pages_used :
    (Image.ofWords [0x0F]).sizeBytes ≤ Rom.maxImageBytes ∧
      let after := (program (.ofWords [0x0F]) Exchange.silent
        { board := .geographic .first, budgets := {}, timing := .immediate }).run Bus.handler
          (({} : SimulatedCrate).insert .first usedBoard)
      after.1.1 = .ok () ∧ ∃ b', after.2.board? .first = some b' ∧ b'.rom.wordAt 0 = 0x0C ∧
        b'.rom.wordAt 1 = 0x55 ∧ b'.activity.pageCommits = 1 := by
  have hsize : (Image.ofWords [0x0F]).sizeBytes ≤ Rom.maxImageBytes := by decide
  have hok : ((program (.ofWords [0x0F]) Exchange.silent
      { board := .geographic .first, budgets := {}, timing := .immediate }).run Bus.handler
        (({} : SimulatedCrate).insert .first usedBoard)).1.1 = .ok () := rfl
  have hpages := program_whole_pages
    (s := { board := .geographic .first, budgets := {}, timing := .immediate }) rfl rfl rfl hsize
    (SimulatedCrate.board?_insert_self {} .first usedBoard) rfl Exchange.isSilent_silent
  refine ⟨hsize, ?_⟩
  dsimp only
  -- The run is not to be evaluated any further.
  generalize Dialogue.run _ _ _ = after at hok hpages ⊢
  rcases hpages with ⟨out, s', b', rfl, ⟨-, hprogrammed⟩ | ⟨⟨e, hfailed⟩, -⟩⟩
  · have hrom : usedBoard.rom = (RomContents.blank.load 0 0x3C).load 1 0x55 := rfl
    have hfirst := hprogrammed.rom.covered 0 (by decide)
    have hsecond := hprogrammed.rom.untouched 1 (by decide)
    rw [hrom, RomContents.wordAt_load, if_neg (by decide), RomContents.wordAt_load,
      if_pos rfl] at hfirst
    rw [hrom, RomContents.wordAt_load, if_pos rfl] at hsecond
    refine ⟨hok, b', SimulatedCrate.board?_insert_self .., ?_, hsecond, hprogrammed.pageCommits⟩
    rw [hfirst]
    rfl
  · cases hfailed.symm.trans hok

end RomSession
end Reflash
