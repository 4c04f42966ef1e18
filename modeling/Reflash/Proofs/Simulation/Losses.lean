import Reflash.Proofs.Simulation.Erasure
import Reflash.Proofs.Simulation.Pages
/-!
# Words that are lost

A board throws a word away that would open a page while a write is in progress. The first word of a
page sets the write-enable latch and looks at the status, but only at the latch. So a program that
begins during a write loses its first page, the last word of which waits for that write as if it
were the page's own commit, and the program succeeds. Words lost already and words that will be lost
always add up to the same number.
-/

namespace Reflash

namespace SimulatedBoard

variable {b : SimulatedBoard} {index count tries : Nat} {word : UInt32}

/-- How many of some words from an index on are lost: all that would go to the first page, if that
page cannot be opened. -/
def losses (b : SimulatedBoard) (index count : Nat) : Nat :=
  if (b.latched index).Loses then min count (pageRoom index) else 0

theorem faults_latched (b : SimulatedBoard) (index : Nat) :
    (b.latched index).faults = b.faults := by
  unfold latched
  split <;> rfl

theorem droppedWords_latched (b : SimulatedBoard) (index : Nat) :
    (b.latched index).activity.droppedWords = b.activity.droppedWords := by
  unfold latched
  split <;> rfl

theorem losses_of_not_busy (hbusy : b.busy = 0) (index count : Nat) : b.losses index count = 0 := by
  apply if_neg
  apply not_loses_of_not_busy
  unfold latched
  split
  · show b.busy - 1 = 0
    omega
  · exact hbusy

theorem losses_zero (b : SimulatedBoard) (count : Nat) :
    b.losses 0 count = if b.page = none ∧ 1 < b.busy then min count Rom.pageWords else 0 := by
  have hloses : (b.latched 0).Loses ↔ b.page = none ∧ 1 < b.busy := by
    have hlatched : b.latched 0 = { b.settled with writeEnabled := true, busy := b.busy - 1 } :=
      if_pos rfl
    have hbusy : b.busy - 1 ≠ 0 ↔ 1 < b.busy := by omega
    rw [hlatched]
    exact and_congr_right fun _ => hbusy
  have hroom : pageRoom 0 = Rom.pageWords := rfl
  rw [losses, hroom]
  by_cases h : (b.latched 0).Loses
  · rw [if_pos h, if_pos (hloses.mp h)]
  · rw [if_neg h, if_neg (mt hloses.mpr h)]

/-! ## One word -/

theorem faults_sent (b : SimulatedBoard) (index : Nat) (word : UInt32) (closing : Bool) :
    (b.sent index word closing).faults = b.faults := by
  unfold sent
  split
  · rfl
  · split <;> rfl

theorem droppedWords_sent (b : SimulatedBoard) (index : Nat) (word : UInt32) (closing : Bool) :
    (b.sent index word closing).activity.droppedWords =
      b.activity.droppedWords + if b.Loses then 1 else 0 := by
  unfold sent
  split
  · rfl
  · split <;> rfl

theorem writeEnabled_sent (b : SimulatedBoard) (index : Nat) (word : UInt32) :
    (b.sent index word false).writeEnabled = b.writeEnabled := by
  unfold sent
  split <;> rfl

theorem loses_sent (b : SimulatedBoard) (index : Nat) (word : UInt32) :
    (b.sent index word false).Loses ↔ b.Loses := by
  unfold sent
  split
  next hloses => exact ⟨fun _ => hloses, fun h => h⟩
  next hnot => exact ⟨fun h => absurd h.1 (Option.some_ne_none _), fun h => absurd h hnot⟩

theorem Accepts.sent (h : b.Accepts index tries) (word : UInt32) :
    ((b.latched index).sent index word false).Accepts (index + 1) tries := by
  have hidle : ((b.latched index).sent index word false).Idle :=
    h.idle_latched.sent index word false
  refine ⟨hidle.answersWithin (Nat.zero_lt_of_lt h.answers.2), ?_, fun _ => ⟨hidle, ?_⟩⟩
  · rw [faults_sent, faults_latched]
    exact h.not_protected
  · rw [writeEnabled_sent]
    exact h.writeEnabled_latched

/-- Behind the last word of a page the latch is to be set again. -/
theorem Accepts.sent_last (h : b.Accepts index tries) (hends : Rom.endsPage index = true)
    (word : UInt32) :
    ({ (b.latched index).sent index word true with busy := 0 } : SimulatedBoard).Accepts (index + 1)
      tries := by
  have hidle : ((b.latched index).sent index word true).Idle := h.idle_latched.sent index word true
  refine ⟨Idle.answersWithin hidle (Nat.zero_lt_of_lt h.answers.2), ?_, fun hmod => absurd ?_ hmod⟩
  · show ((b.latched index).sent index word true).faults.writeProtected = false
    rw [faults_sent, faults_latched]
    exact h.not_protected
  · simpa [Rom.endsPage] using hends

theorem losses_one (b : SimulatedBoard) (index : Nat) :
    b.losses index 1 = if (b.latched index).Loses then 1 else 0 := by
  have hpos : 0 < pageRoom index := Nat.sub_pos_of_lt (Nat.mod_lt _ (by decide))
  have hroom : min 1 (pageRoom index) = 1 := by omega
  rw [losses, hroom]

theorem droppedWords_sent_latched (b : SimulatedBoard) (index : Nat) (word : UInt32)
    (closing : Bool) :
    ((b.latched index).sent index word closing).activity.droppedWords =
      b.activity.droppedWords + b.losses index 1 := by
  rw [droppedWords_sent, droppedWords_latched, losses_one]

/-- If a word inside of a page is lost, so is the rest of the page, and nothing else is. -/
theorem losses_sent (hends : Rom.endsPage index = false) (word : UInt32) (count : Nat) :
    b.losses index 1 + ((b.latched index).sent index word false).losses (index + 1) count =
      b.losses index (count + 1) := by
  have hmod : (index + 1) % Rom.pageWords ≠ 0 := beq_eq_false_iff_ne.mp hends
  have hlatched : ((b.latched index).sent index word false).latched (index + 1) =
      (b.latched index).sent index word false := if_neg hmod
  have hloses := loses_sent (b.latched index) index word
  have hroom := pageRoom_of_not_endsPage hends
  rw [losses_one, losses, losses, hlatched]
  by_cases h : (b.latched index).Loses
  · rw [if_pos h, if_pos h, if_pos (hloses.mpr h)]
    omega
  · rw [if_neg h, if_neg h, if_neg (mt hloses.mp h)]

theorem losses_of_endsPage (hends : Rom.endsPage index = true) (count : Nat) :
    b.losses index (count + 1) = b.losses index 1 := by
  have hroom : min (count + 1) 1 = 1 := by omega
  rw [losses, losses, pageRoom_of_endsPage hends, hroom, Nat.min_self]

end SimulatedBoard

namespace RomSession

variable {s : RomSession} {slot : Slot} {b : SimulatedBoard} {index : Nat} {word : UInt32}
  {closing : Bool} {onTick : Exchange Unit} (hs : s.board = .geographic slot)
include hs

/-- The last word of a page waits for whatever is in progress then, or fails to. -/
theorem yields_writeWord_last (h : b.Accepts index s.budgets.commandReadyTries)
    (hindex : index < Rom.capacity / Rom.wordBytes) (word : UInt32) :
    (writeWord (Rom.wordAddress index) word true).Yields s b (.ok ()) s
        { (b.latched index).sent index word true with busy := 0 } ∨
      ∃ e b', (writeWord (Rom.wordAddress index) word true).Yields s b (.failed e) s b' := by
  have hready : 0 < s.budgets.commandReadyTries := Nat.zero_lt_of_lt h.answers.2
  by_cases hlt : ((b.latched index).sent index word true).busy < s.budgets.pageTries
  · have hput := yields_putWord_last hs hready word h.idle_latched h.writeEnabled_latched hindex hlt
    exact .inl (yields_writeWord_latched hs h hindex hput)
  · have hput := yields_putWord_last_timeout hs hready word h.idle_latched h.writeEnabled_latched
      hindex (Nat.not_lt.mp hlt)
    exact .inr ⟨_, _, yields_writeWord_latched hs h hindex hput⟩

/-- Words and a flush word behind them, if they can be written at all, lose what the board loses. -/
theorem ensures_fill (hticks : onTick.IsSilent) {words : List UInt32}
    (h : b.Accepts index s.budgets.commandReadyTries)
    (hsize : index + words.length < Rom.capacity / Rom.wordBytes) :
    (writeWordsFrom onTick index words >>= fun behind =>
      writeWord (Rom.wordAddress behind) Rom.flushWord true).Ensures s b fun x =>
        x.activity.droppedWords = b.activity.droppedWords + b.losses index (words.length + 1) := by
  induction words generalizing b index with
  | nil =>
      rcases yields_writeWord_last hs h hsize Rom.flushWord with hok | ⟨e, b', hfailed⟩
      · exact .of_yields hok (b.droppedWords_sent_latched index Rom.flushWord true)
      · exact .of_failed hfailed
  | cons word rest ih =>
      rw [List.length_cons] at hsize ⊢
      have hindex : index < Rom.capacity / Rom.wordBytes := by omega
      have hbehind : index + 1 + rest.length < Rom.capacity / Rom.wordBytes := by omega
      rw [writeWordsFrom, bind_assoc]
      cases hends : Rom.endsPage index with
      | true =>
          rcases yields_writeWord_last hs h hindex word with hok | ⟨e, b', hfailed⟩
          · refine .of_bind hok ?_
            rw [bind_assoc]
            have hrest := ih (h.sent_last hends word) hbehind
            refine .of_bind (Routine.yields_lift hticks) (hrest.mono fun y hy => ?_)
            rw [hy, SimulatedBoard.losses_of_not_busy rfl, Nat.add_zero,
              SimulatedBoard.losses_of_endsPage hends]
            exact b.droppedWords_sent_latched index word true
          · exact .of_failed hfailed.bind_failed
      | false =>
          have hready : 0 < s.budgets.commandReadyTries := Nat.zero_lt_of_lt h.answers.2
          have hput := yields_putWord_sent hs hready word h.idle_latched h.writeEnabled_latched
            hindex
          refine .of_bind (yields_writeWord_latched hs h hindex hput) ?_
          rw [bind_assoc]
          have hrest := ih (h.sent word) hbehind
          refine .of_bind (Routine.yields_lift hticks) (hrest.mono fun y hy => ?_)
          rw [hy, b.droppedWords_sent_latched index word false, Nat.add_assoc,
            SimulatedBoard.losses_sent hends]

omit hs in
theorem ensures_program_refused {image : Image} (after : SimulatedBoard → Prop)
    (h : ∀ words, image.contents? = some words → Rom.maxImageBytes < image.sizeBytes) :
    (program image onTick).Ensures s b after := by
  rw [program]
  cases himage : image.contents? with
  | none => exact .of_failed (Routine.yields_fail _)
  | some words =>
      dsimp only
      rw [if_pos (h words himage)]
      exact .of_failed (Routine.yields_fail _)

theorem ensures_program (hticks : onTick.IsSilent) (hopen : b.faults.writeProtected = false)
    (image : Image) :
    (program image onTick).Ensures s b fun x => ∃ words, image.contents? = some words ∧
      x.activity.droppedWords = b.activity.droppedWords + b.losses 0 (words.length + 1) := by
  by_cases hrefused : ∀ words, image.contents? = some words → Rom.maxImageBytes < image.sizeBytes
  · exact ensures_program_refused _ hrefused
  · obtain ⟨words, hnot⟩ := Classical.not_forall.mp hrefused
    obtain ⟨himage, hsize⟩ := Classical.not_imp.mp hnot
    have hfits : image.sizeBytes ≤ Rom.maxImageBytes := Nat.not_lt.mp hsize
    have hlength := image.length_lt himage hfits
    rw [← Nat.zero_add words.length] at hlength
    by_cases hanswers : b.AnswersWithin s.budgets.commandReadyTries
    · rw [program_eq himage hfits]
      have hfill := ensures_fill hs hticks (hanswers.accepts hopen rfl) hlength
      exact hfill.mono fun x hx => ⟨words, himage, hx⟩
    · have hcommand : (command { opcode := .writeEnable }).Yields s b
          (.failed (.readyTimeout s.budgets.commandReadyTries)) s
          (b.polled s.budgets.commandReadyTries) := yields_command_timeout hs hanswers
      exact .of_failed (yields_program_failed himage hfits hcommand.bind_failed)

end RomSession

namespace SimulatedCrate

variable {c : SimulatedCrate} {slot : Slot}

/-- Whatever happened to a board since it was fresh, a program that succeeds has lost no word,
unless it began while a write was in progress for more than one status and no page was open; then it
has lost its first page. -/
theorem program_loses_first_page (hc : Reached slot c) {s : RomSession}
    (hs : s.board = .geographic slot) {onTick : Exchange Unit} (hticks : onTick.IsSilent)
    {image : Image}
    (hok : ((RomSession.program image onTick s).run Bus.handler c).1.1 = .ok ()) :
    ∃ b b' words, c.board? slot = some b ∧
      ((RomSession.program image onTick s).run Bus.handler c).2.board? slot = some b' ∧
      image.contents? = some words ∧
      b'.activity.droppedWords = b.activity.droppedWords +
        if b.page = none ∧ 1 < b.busy then min (words.length + 1) Rom.pageWords else 0 := by
  obtain ⟨b, hb, hsound⟩ := hc.sound
  have hopen : b.faults.writeProtected = false := by rw [hsound.faults_eq]
  have hkeeps := (RomSession.isProper_program hticks image _ slot.fits_geographic).mono
    fun _ h => (.inl (.inl h) : (Board.geographic slot).Owns _)
  have halike (x y : SimulatedBoard) (hxy : Alike x y) :
      x.activity.droppedWords = y.activity.droppedWords :=
    (congrArg (fun b => b.activity.droppedWords) hxy.outline_eq :)
  obtain ⟨b', hb', words, himage, hdropped⟩ :=
    (RomSession.ensures_program hs hticks hopen image).run
      (fun x y hxy ⟨words, himage, hy⟩ => ⟨words, himage, (halike x y hxy).trans hy⟩) hkeeps hs hb
      hok
  exact ⟨b, b', words, hb, hb', himage, hdropped.trans (by rw [b.losses_zero])⟩

def beginningErase : (Outcome RomError Unit × RomSession) × SimulatedCrate :=
  (RomSession.startErase ⟨.geographic .third, {}, .immediate, {}⟩).run Bus.handler
    (({} : SimulatedCrate).insert .third { version := ⟨1, 2⟩ })

def programmingErased : (Outcome RomError Unit × RomSession) × SimulatedCrate :=
  (RomSession.program (.ofWords [0]) Exchange.silent beginningErase.1.2).run Bus.handler
    beginningErase.2

theorem reached_beginningErase : Reached .third beginningErase.2 :=
  .exchange (.fresh {} ⟨1, 2⟩ none {} .blank) _

/-- The word and the flush word behind it are lost, and the erase is waited for in their place. -/
theorem program_loses_first_page_erasing :
    programmingErased.1.1 = .ok () ∧ ∃ b b',
      beginningErase.2.board? .third = some b ∧ programmingErased.2.board? .third = some b' ∧
      b.page = none ∧ b.busy = 8 ∧ b'.activity.droppedWords = b.activity.droppedWords + 2 := by
  have hok : programmingErased.1.1 = .ok () := by decide +kernel
  have hboard : (beginningErase.2.board? .third).map (fun b => (b.page, b.busy)) =
      some (none, 8) := by decide +kernel
  have hs : beginningErase.1.2.board = .geographic .third := by decide +kernel
  obtain ⟨b, b', words, hb, hb', himage, hdropped⟩ :=
    program_loses_first_page reached_beginningErase hs Exchange.isSilent_silent hok
  rw [hb, Option.map_some, Option.some.injEq, Prod.mk.injEq] at hboard
  obtain ⟨hpage, hbusy⟩ := hboard
  obtain rfl : [0] = words := Option.some.inj himage
  refine ⟨hok, b, b', hb, hb', hpage, hbusy, ?_⟩
  rw [hdropped, if_pos ⟨hpage, by omega⟩]
  rfl

/-- The program succeeds, and has lost words that it was to write: the ROM is still blank. -/
theorem program_reports_success_erasing :
    Reached .third beginningErase.2 ∧ programmingErased.1.1 = .ok () ∧ ∃ b b',
      beginningErase.2.board? .third = some b ∧ programmingErased.2.board? .third = some b' ∧
      b'.activity.droppedWords ≠ b.activity.droppedWords ∧ b'.rom.wordAt 0 = Rom.erasedWord := by
  have hok : programmingErased.1.1 = .ok () := by decide +kernel
  have hbefore : (beginningErase.2.board? .third).map (·.activity.droppedWords) = some 0 := by
    decide +kernel
  have hafter : (programmingErased.2.board? .third).map
      (fun b => (b.activity.droppedWords, b.rom.wordAt 0)) = some (2, Rom.erasedWord) := by
    decide +kernel
  obtain ⟨b, hb, hnone⟩ := Option.map_eq_some_iff.mp hbefore
  obtain ⟨b', hb', htwo⟩ := Option.map_eq_some_iff.mp hafter
  obtain ⟨hdropped, hword⟩ := Prod.mk.injEq .. ▸ htwo
  refine ⟨reached_beginningErase, hok, b, b', hb, hb', ?_, hword⟩
  omega

end SimulatedCrate
end Reflash
