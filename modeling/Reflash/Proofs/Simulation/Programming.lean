import Reflash.Proofs.Rom.Geometry
import Reflash.Proofs.Simulation.Erasing
/-!
# Programming the ROM of a simulated board

Words go to the page buffer of the board one by one. A word that ends its page commits the buffer,
and the flush word behind an image commits whatever is left in it, so the words of the buffer and
those in the ROM together are always the words written so far.
-/

namespace Reflash

namespace SimulatedBoard

variable {b : SimulatedBoard} {index tries : Nat} {word : UInt32} {closing : Bool}

def pageWith (b : SimulatedBoard) (index : Nat) (word : UInt32) : Array (Nat × UInt32) :=
  (b.page.getD #[]).push (index, word)

/-- No page is open, and none can be opened while a write is in progress: a word that comes now is
thrown away. -/
def Loses (b : SimulatedBoard) : Prop := b.page = none ∧ b.busy ≠ 0

instance (b : SimulatedBoard) : Decidable b.Loses := inferInstanceAs (Decidable (_ ∧ _))

theorem not_loses_of_not_busy (hbusy : b.busy = 0) : ¬b.Loses := fun h => h.2 hbusy

def sent (b : SimulatedBoard) (index : Nat) (word : UInt32) (closing : Bool) : SimulatedBoard :=
  if b.Loses then { b with activity.droppedWords := b.activity.droppedWords + 1 }
  else if closing then b.commitPage (b.pageWith index word)
  else { b with page := some (b.pageWith index word) }

theorem sent_of_not_busy (hbusy : b.busy = 0) (index : Nat) (word : UInt32) (closing : Bool) :
    b.sent index word closing =
      if closing then b.commitPage (b.pageWith index word)
      else { b with page := some (b.pageWith index word) } :=
  if_neg (not_loses_of_not_busy hbusy)

theorem Idle.sent (h : b.Idle) (index : Nat) (word : UInt32) (closing : Bool) :
    (b.sent index word closing).Idle := by
  unfold SimulatedBoard.sent
  split
  · exact h
  · split
    · exact h
    · exact h

theorem alike_carryOut_program (hindex : index < Rom.capacity / Rom.wordBytes)
    (henabled : b.writeEnabled = true) :
    Alike (b.carryOut (Board.programCommand (Rom.wordAddress index) word closing))
      (b.sent index word closing) := by
  have hcarry : b.carryOut (Board.programCommand (Rom.wordAddress index) word closing) =
      pageProgram
        { b with
          address := Rom.wordAddress index &&& Rom.addressMask &&& Rom.addressMask
          data := word
          activity.commands := b.activity.commands + 1
          activity.endOfCommands := b.activity.endOfCommands + if closing then 1 else 0 }
        closing := rfl
  rw [hcarry]
  unfold pageProgram wordIndex sent pageWith
  dsimp only
  rw [Rom.wordAddress_div_wordBytes hindex, henabled, Bool.true_and]
  cases hpage : b.page with
  | none =>
      by_cases hbusy : b.busy = 0
      · rw [if_pos (beq_iff_eq.mpr hbusy), if_neg (not_loses_of_not_busy hbusy)]
        cases closing <;> rfl
      · have hloses : b.Loses := ⟨hpage, hbusy⟩
        rw [if_neg (by simpa using hbusy), if_pos hloses]
        rfl
  | some page =>
      have hnot : ¬b.Loses := fun h => Option.some_ne_none page (hpage.symm.trans h.1)
      rw [if_neg hnot]
      cases closing <;> rfl

def written (b : SimulatedBoard) (index : Nat) (word : UInt32) (closing : Bool) : SimulatedBoard :=
  if closing then { b.commitPage (b.pageWith index word) with busy := 0 }
  else { b with writeEnabled := true, page := some (b.pageWith index word) }

theorem latency_written (b : SimulatedBoard) (index : Nat) (word : UInt32) (closing : Bool) :
    (b.written index word closing).latency = b.latency := by
  unfold written
  cases closing <;> rfl

def writtenAll (b : SimulatedBoard) (index : Nat) : List UInt32 → SimulatedBoard
  | [] => b
  | word :: rest => (b.written index word (Rom.endsPage index)).writtenAll (index + 1) rest

/-- The board after an image has been programmed, and its last page closed with the flush word. -/
def filled (b : SimulatedBoard) (index : Nat) (words : List UInt32) : SimulatedBoard :=
  (b.writtenAll index words).written (index + words.length) Rom.flushWord true

theorem filled_cons (b : SimulatedBoard) (index : Nat) (word : UInt32) (rest : List UInt32) :
    b.filled index (word :: rest) =
      (b.written index word (Rom.endsPage index)).filled (index + 1) rest := by
  have hbehind : index + (rest.length + 1) = index + 1 + rest.length := by omega
  rw [filled, List.length_cons, hbehind]
  rfl

/-- The board after words from an index on have closed one page: the first of them that ends its
page has, or else the flush word behind them. -/
def pageFilled (b : SimulatedBoard) (index : Nat) : List UInt32 → SimulatedBoard
  | [] => b.written index Rom.flushWord true
  | word :: rest =>
    if Rom.endsPage index then b.written index word true
    else (b.written index word false).pageFilled (index + 1) rest

/-- Words that end no page are all on the page that the flush word closes. -/
theorem pageFilled_of_short {words : List UInt32}
    (hshort : index % Rom.pageWords + words.length < Rom.pageWords) :
    b.pageFilled index words = b.filled index words := by
  have hwords : Rom.pageWords = 64 := rfl
  rw [hwords] at hshort
  induction words generalizing b index with
  | nil => rfl
  | cons word rest ih =>
      rw [List.length_cons] at hshort
      have hends : Rom.endsPage index = false := by
        apply beq_eq_false_iff_ne.mpr
        rw [hwords]
        omega
      rw [filled_cons, hends, ← ih (by omega)]
      simp [pageFilled, hends]

structure Writable (b : SimulatedBoard) (index : Nat) : Prop where
  idle : b.Idle
  not_busy : b.busy = 0
  not_protected : b.faults.writeProtected = false
  latched : index % Rom.pageWords ≠ 0 → b.writeEnabled = true

theorem Writable.written (h : b.Writable index) (word : UInt32) :
    (b.written index word (Rom.endsPage index)).Writable (index + 1) := by
  unfold SimulatedBoard.written
  cases hends : Rom.endsPage index with
  | true =>
      refine ⟨h.idle, rfl, h.not_protected, fun hmod => absurd ?_ hmod⟩
      simpa [Rom.endsPage] using hends
  | false => exact ⟨h.idle, h.not_busy, h.not_protected, fun _ => rfl⟩

/-- The board when the word of an index is put. Where a page starts, the latch has been set by then,
and the status that showed it was one of the waits for a write in progress. -/
def latched (b : SimulatedBoard) (index : Nat) : SimulatedBoard :=
  if index % Rom.pageWords = 0 then { b.settled with writeEnabled := true, busy := b.busy - 1 }
  else b

/-- A program can go on with the word of that index: the engine answers in time, and the latch is
set, or can be set where a page starts. -/
structure Accepts (b : SimulatedBoard) (index tries : Nat) : Prop where
  answers : b.AnswersWithin tries
  not_protected : b.faults.writeProtected = false
  latched : index % Rom.pageWords ≠ 0 → b.Idle ∧ b.writeEnabled = true

theorem Accepts.idle_latched (h : b.Accepts index tries) : (b.latched index).Idle := by
  unfold SimulatedBoard.latched
  split
  next => exact ⟨h.answers.1, rfl⟩
  next hmod => exact (h.latched hmod).1

theorem Accepts.writeEnabled_latched (h : b.Accepts index tries) :
    (b.latched index).writeEnabled = true := by
  unfold SimulatedBoard.latched
  split
  next => rfl
  next hmod => exact (h.latched hmod).2

theorem AnswersWithin.accepts (h : b.AnswersWithin tries) (hopen : b.faults.writeProtected = false)
    (hfirst : index % Rom.pageWords = 0) : b.Accepts index tries :=
  ⟨h, hopen, fun hmod => absurd hfirst hmod⟩

theorem Writable.accepts (h : b.Writable index) (htries : 0 < tries) : b.Accepts index tries :=
  ⟨h.idle.answersWithin htries, h.not_protected, fun hmod => ⟨h.idle, h.latched hmod⟩⟩

/-- Without a write in progress nothing but the latch is different. -/
theorem Accepts.latched_eq (h : b.Accepts index tries) (hbusy : b.busy = 0) :
    b.latched index = { b.settled with writeEnabled := true } := by
  unfold SimulatedBoard.latched
  split
  next =>
    have hdone : b.busy - 1 = b.busy := by omega
    rw [hdone]
    rfl
  next hmod =>
    obtain ⟨hidle, henabled⟩ := h.latched hmod
    rw [hidle.settled_eq, ← henabled]

end SimulatedBoard

namespace RomSession

variable {s : RomSession} {slot : Slot} {b : SimulatedBoard} {index : Nat} {word : UInt32}
  {closing : Bool} {onTick : Exchange Unit} (hs : s.board = .geographic slot)
  (hready : 0 < s.budgets.commandReadyTries)
include hs hready

private theorem yields_programCommand (hidle : b.Idle) (henabled : b.writeEnabled = true)
    (hindex : index < Rom.capacity / Rom.wordBytes) :
    (command (Board.programCommand (Rom.wordAddress index) word closing)).Yields s b (.ok ()) s
      (b.sent index word closing) := by
  have hcmd : (Board.programCommand (Rom.wordAddress index) word closing).IsComplete :=
    ⟨fun _ => rfl, fun _ => rfl⟩
  exact (yields_command hs hcmd hidle hready).trans (.refl s)
    (SimulatedBoard.alike_carryOut_program hindex henabled)

theorem yields_putWord_sent (word : UInt32) (hidle : b.Idle) (henabled : b.writeEnabled = true)
    (hindex : index < Rom.capacity / Rom.wordBytes) :
    (putWord (Rom.wordAddress index) word false).Yields s b (.ok ()) s
      (b.sent index word false) := by
  refine (yields_programCommand hs hready hidle henabled hindex).bind ?_
  exact (yields_count _).bind (Routine.yields_pure ())

/-- Behind a word that ends its page, whatever is in progress then is waited for. -/
theorem yields_putWord_last (word : UInt32) (hidle : b.Idle) (henabled : b.writeEnabled = true)
    (hindex : index < Rom.capacity / Rom.wordBytes)
    (hlt : (b.sent index word true).busy < s.budgets.pageTries) :
    (putWord (Rom.wordAddress index) word true).Yields s b (.ok ()) s
      { b.sent index word true with busy := 0 } := by
  refine (yields_programCommand hs hready hidle henabled hindex).bind ?_
  refine (yields_count _).bind ((yields_count _).bind (Routine.yields_get_bind fun t ht => ?_))
  rw [(alike_iff.mp ht).2.1]
  have hwait := yields_awaitWrite (b := b.sent index word true) hs hready
    (hidle.sent index word true) Exchange.isSilent_silent hlt
  exact hwait.bind (Routine.yields_pure ())

theorem yields_putWord_last_timeout (word : UInt32) (hidle : b.Idle)
    (henabled : b.writeEnabled = true) (hindex : index < Rom.capacity / Rom.wordBytes)
    (hle : s.budgets.pageTries ≤ (b.sent index word true).busy) :
    (putWord (Rom.wordAddress index) word true).Yields s b
      (.failed (.writeTimeout s.budgets.pageTries)) s
      { b.sent index word true with
        busy := (b.sent index word true).busy - s.budgets.pageTries } := by
  refine (yields_programCommand hs hready hidle henabled hindex).bind ?_
  refine (yields_count _).bind ((yields_count _).bind (Routine.yields_get_bind fun t ht => ?_))
  rw [(alike_iff.mp ht).2.1]
  have hwait := yields_awaitWrite_timeout (b := b.sent index word true) hs hready
    (hidle.sent index word true) Exchange.isSilent_silent hle
  exact hwait.bind_failed

private theorem yields_putWord (hidle : b.Idle) (hbusy : b.busy = 0)
    (henabled : b.writeEnabled = true) (hindex : index < Rom.capacity / Rom.wordBytes)
    (hpage : closing = true → b.latency.page < s.budgets.pageTries) :
    (putWord (Rom.wordAddress index) word closing).Yields s b (.ok ()) s
      (b.written index word closing) := by
  have hsent := SimulatedBoard.sent_of_not_busy hbusy index word closing
  cases closing with
  | false =>
      have hsame : b.written index word false =
          { b with page := some (b.pageWith index word) } :=
        (congrArg (fun enabled => ({ b with
          writeEnabled := enabled
          page := some (b.pageWith index word) } : SimulatedBoard)) henabled).symm
      have hput := yields_putWord_sent hs hready word hidle henabled hindex
      rw [hsent] at hput
      rw [hsame]
      exact hput
  | true =>
      have hput := yields_putWord_last hs hready word hidle henabled hindex
      rw [hsent] at hput
      exact hput (hpage rfl)

private theorem yields_putWord_timeout (hidle : b.Idle) (hbusy : b.busy = 0)
    (henabled : b.writeEnabled = true) (hindex : index < Rom.capacity / Rom.wordBytes)
    (hpage : s.budgets.pageTries ≤ b.latency.page) :
    (putWord (Rom.wordAddress index) word true).Yields s b
      (.failed (.writeTimeout s.budgets.pageTries)) s
      { b.written index word true with busy := b.latency.page - s.budgets.pageTries } := by
  have hput := yields_putWord_last_timeout hs hready word hidle henabled hindex
  rw [SimulatedBoard.sent_of_not_busy hbusy] at hput
  exact hput hpage

omit hready in
theorem yields_writeWord_latched (h : b.Accepts index s.budgets.commandReadyTries)
    (hindex : index < Rom.capacity / Rom.wordBytes) {out : Outcome RomError Unit}
    {b' : SimulatedBoard}
    (hput : (putWord (Rom.wordAddress index) word closing).Yields s (b.latched index) out s b') :
    (writeWord (Rom.wordAddress index) word closing).Yields s b out s b' := by
  rw [writeWord_eq]
  unfold SimulatedBoard.latched at hput
  by_cases hfirst : index % Rom.pageWords = 0
  · rw [if_pos hfirst] at hput
    rw [if_pos ((Rom.wordAddress_mod_pageBytes hindex).mpr hfirst)]
    exact (yields_enableWrites_settled hs h.answers h.not_protected).bind hput
  · rw [if_neg hfirst] at hput
    rwa [if_neg (mt (Rom.wordAddress_mod_pageBytes hindex).mp hfirst)]

section Accepts

variable (h : b.Accepts index s.budgets.commandReadyTries) (hbusy : b.busy = 0)
  (hindex : index < Rom.capacity / Rom.wordBytes)
include h hbusy hindex

omit hready in
theorem yields_writeWord_settled (hpage : closing = true → b.latency.page < s.budgets.pageTries) :
    (writeWord (Rom.wordAddress index) word closing).Yields s b (.ok ()) s
      (b.settled.written index word closing) := by
  refine yields_writeWord_latched hs h hindex ?_
  rw [h.latched_eq hbusy]
  exact yields_putWord (b := { b.settled with writeEnabled := true }) hs
    (Nat.zero_lt_of_lt h.answers.2) ⟨h.answers.1, rfl⟩ hbusy rfl hindex hpage

omit hready in
theorem yields_writeWord_settled_timeout (hpage : s.budgets.pageTries ≤ b.latency.page) :
    (writeWord (Rom.wordAddress index) word true).Yields s b
      (.failed (.writeTimeout s.budgets.pageTries)) s
      { b.settled.written index word true with busy := b.latency.page - s.budgets.pageTries } := by
  refine yields_writeWord_latched hs h hindex ?_
  rw [h.latched_eq hbusy]
  exact yields_putWord_timeout (b := { b.settled with writeEnabled := true }) hs
    (Nat.zero_lt_of_lt h.answers.2) ⟨h.answers.1, rfl⟩ hbusy rfl hindex hpage

end Accepts

theorem yields_writeWord (h : b.Writable index) (hindex : index < Rom.capacity / Rom.wordBytes)
    (hpage : closing = true → b.latency.page < s.budgets.pageTries) :
    (writeWord (Rom.wordAddress index) word closing).Yields s b (.ok ()) s
      (b.written index word closing) := by
  have hword : (writeWord (Rom.wordAddress index) word closing).Yields s b (.ok ()) s
      (b.settled.written index word closing) :=
    yields_writeWord_settled hs (h.accepts hready) h.not_busy hindex hpage
  rwa [h.idle.settled_eq] at hword

theorem yields_writeWord_timeout (h : b.Writable index)
    (hindex : index < Rom.capacity / Rom.wordBytes)
    (hpage : s.budgets.pageTries ≤ b.latency.page) :
    (writeWord (Rom.wordAddress index) word true).Yields s b
      (.failed (.writeTimeout s.budgets.pageTries)) s
      { b.written index word true with busy := b.latency.page - s.budgets.pageTries } := by
  have hword : (writeWord (Rom.wordAddress index) word true).Yields s b
      (.failed (.writeTimeout s.budgets.pageTries)) s
      { b.settled.written index word true with busy := b.latency.page - s.budgets.pageTries } :=
    yields_writeWord_settled_timeout hs (h.accepts hready) h.not_busy hindex hpage
  rwa [h.idle.settled_eq] at hword

/-! ## Images -/

theorem yields_writeWordsFrom (hticks : onTick.IsSilent) {words : List UInt32}
    (h : b.Writable index) (hsize : index + words.length ≤ Rom.capacity / Rom.wordBytes)
    (hpage : b.latency.page < s.budgets.pageTries) :
    (writeWordsFrom onTick index words).Yields s b (.ok (index + words.length)) s
        (b.writtenAll index words) ∧
      (b.writtenAll index words).Writable (index + words.length) ∧
      (b.writtenAll index words).latency = b.latency := by
  induction words generalizing b index with
  | nil => exact ⟨Routine.yields_pure _, h, rfl⟩
  | cons word rest ih =>
      rw [List.length_cons] at hsize ⊢
      have hword : (writeWord (Rom.wordAddress index) word (Rom.endsPage index)).Yields s b
          (.ok ()) s (b.written index word (Rom.endsPage index)) :=
        yields_writeWord hs hready h (by omega) fun _ => hpage
      have hlatency := b.latency_written index word (Rom.endsPage index)
      obtain ⟨hrest, hwritable, hlatency'⟩ := ih (h.written word) (by omega) (by rwa [hlatency])
      rw [show index + (rest.length + 1) = index + 1 + rest.length by omega]
      refine ⟨hword.bind ((Routine.yields_lift hticks).bind hrest), hwritable, ?_⟩
      exact hlatency'.trans hlatency

/-- Words and a flush word behind them, on a board that takes them and commits in time. -/
theorem yields_fill (hticks : onTick.IsSilent) {words : List UInt32}
    (h : b.Writable index) (hsize : index + words.length < Rom.capacity / Rom.wordBytes)
    (hpage : b.latency.page < s.budgets.pageTries) :
    (writeWordsFrom onTick index words >>= fun behind =>
      writeWord (Rom.wordAddress behind) Rom.flushWord true).Yields s b (.ok ()) s
        (b.filled index words) := by
  obtain ⟨hwords, hwritable, hlatency⟩ :=
    yields_writeWordsFrom hs hready hticks h (Nat.le_of_lt hsize) hpage
  rw [← hlatency] at hpage
  exact hwords.bind (yields_writeWord hs hready hwritable hsize fun _ => hpage)

/-- Where a commit takes too long, the first page that is closed is the last. -/
theorem yields_fill_timeout (hticks : onTick.IsSilent) {words : List UInt32}
    (h : b.Writable index) (hsize : index + words.length < Rom.capacity / Rom.wordBytes)
    (hpage : s.budgets.pageTries ≤ b.latency.page) :
    (writeWordsFrom onTick index words >>= fun behind =>
      writeWord (Rom.wordAddress behind) Rom.flushWord true).Yields s b
        (.failed (.writeTimeout s.budgets.pageTries)) s
        { b.pageFilled index words with busy := b.latency.page - s.budgets.pageTries } := by
  induction words generalizing b index with
  | nil => exact yields_writeWord_timeout hs hready h hsize hpage
  | cons word rest ih =>
      rw [List.length_cons] at hsize
      rw [writeWordsFrom, bind_assoc, SimulatedBoard.pageFilled]
      by_cases hends : Rom.endsPage index = true
      · rw [hends, if_pos rfl]
        exact (yields_writeWord_timeout hs hready h (by omega) hpage).bind_failed
      · -- Before the end of its page a word is not waited for, so it cannot fail.
        rw [Bool.not_eq_true] at hends
        have hword : (writeWord (Rom.wordAddress index) word (Rom.endsPage index)).Yields s b
            (.ok ()) s (b.written index word (Rom.endsPage index)) :=
          yields_writeWord hs hready h (by omega) fun hclosing => absurd hclosing (by simp [hends])
        have hlatency := b.latency_written index word (Rom.endsPage index)
        have hrest := ih (h.written word) (by omega) (by rwa [hlatency])
        rw [hlatency, hends] at hrest
        rw [hends] at hword
        rw [hends, if_neg Bool.false_ne_true]
        refine hword.bind ?_
        rw [bind_assoc]
        exact (Routine.yields_lift hticks).bind hrest

section Program

variable {image : Image} {words : List UInt32} (himage : image.contents? = some words)
  (hsize : image.sizeBytes ≤ Rom.maxImageBytes)

omit hs hready in
/-- The latch is set before any word is sent, so nothing is sent where it cannot be. -/
theorem yields_program_failed (himage : image.contents? = some words)
    (hsize : image.sizeBytes ≤ Rom.maxImageBytes) {e : RomError} {b' : SimulatedBoard}
    (h : enableWrites.Yields s b (.failed e) s b') :
    (program image onTick).Yields s b (.failed e) s b' := by
  have hfirst (word : UInt32) (closing : Bool) :
      (writeWord (Rom.wordAddress 0) word closing).Yields s b (.failed e) s b' := by
    rw [writeWord_eq, if_pos (by decide)]
    exact h.bind_failed
  rw [program_eq himage hsize]
  cases words with
  | nil => exact hfirst _ _
  | cons word rest =>
      rw [writeWordsFrom, bind_assoc]
      exact (hfirst _ _).bind_failed

variable (hidle : b.Idle) (hbusy : b.busy = 0)
include himage hsize hidle hbusy

theorem yields_program (hticks : onTick.IsSilent) (hopen : b.faults.writeProtected = false)
    (hpage : b.latency.page < s.budgets.pageTries) :
    (program image onTick).Yields s b (.ok ()) s (b.filled 0 words) := by
  have hwritable : b.Writable 0 := ⟨hidle, hbusy, hopen, fun hmod => absurd rfl hmod⟩
  have hlength := image.length_lt himage hsize
  rw [← Nat.zero_add words.length] at hlength
  rw [program_eq himage hsize]
  exact yields_fill hs hready hticks hwritable hlength hpage

theorem yields_program_timeout (hticks : onTick.IsSilent)
    (hopen : b.faults.writeProtected = false) (hpage : s.budgets.pageTries ≤ b.latency.page) :
    (program image onTick).Yields s b (.failed (.writeTimeout s.budgets.pageTries)) s
      { b.pageFilled 0 words with busy := b.latency.page - s.budgets.pageTries } := by
  have hwritable : b.Writable 0 := ⟨hidle, hbusy, hopen, fun hmod => absurd rfl hmod⟩
  have hlength := image.length_lt himage hsize
  rw [← Nat.zero_add words.length] at hlength
  rw [program_eq himage hsize]
  exact yields_fill_timeout hs hready hticks hwritable hlength hpage

theorem fails_program_timeout (hticks : onTick.IsSilent) (hopen : b.faults.writeProtected = false)
    (hpage : s.budgets.pageTries ≤ b.latency.page) :
    (program image onTick).Fails s b (.writeTimeout s.budgets.pageTries) :=
  ⟨s, _, yields_program_timeout hs hready himage hsize hidle hbusy hticks hopen hpage⟩

/-- Words that end no page are all in the page buffer when the flush word commits it, also if that
takes too long. -/
theorem yields_program_interrupted (hticks : onTick.IsSilent)
    (hopen : b.faults.writeProtected = false) (hshort : words.length < Rom.pageWords)
    (hpage : s.budgets.pageTries ≤ b.latency.page) :
    (program image onTick).Yields s b (.failed (.writeTimeout s.budgets.pageTries)) s
      { b.filled 0 words with busy := b.latency.page - s.budgets.pageTries } := by
  have hfilled : b.pageFilled 0 words = b.filled 0 words :=
    SimulatedBoard.pageFilled_of_short (by simpa using hshort)
  rw [← hfilled]
  exact yields_program_timeout hs hready himage hsize hidle hbusy hticks hopen hpage

/-- A board that is write-protected takes not even the first word. -/
theorem fails_program_protected (hprotected : b.faults.writeProtected = true) :
    (program image onTick).Fails s b (.writeEnableFailed 0) :=
  ⟨s, _, yields_program_failed himage hsize
    (yields_enableWrites_protected hs hready hidle hbusy hprotected)⟩

end Program
end RomSession

/-! ## What is in the ROM then -/

theorem Rom.and_flushWord (word : UInt32) : word &&& flushWord = word :=
  UInt32.toBitVec_inj.mp BitVec.and_allOnes

theorem Rom.erasedWord_and (word : UInt32) : erasedWord &&& word = word :=
  UInt32.toBitVec_inj.mp BitVec.allOnes_and

def indexed (index : Nat) (words : List UInt32) : List (Nat × UInt32) :=
  (words.zipIdx index).map Prod.swap

namespace RomContents

theorem commit_append (rom : RomContents) (page page' : Array (Nat × UInt32)) :
    rom.commit (page ++ page') = (rom.commit page).commit page' := by
  rw [commit, Array.foldl_append]
  rfl

/-- The flush word changes nothing, wherever it goes. -/
theorem wordAt_program_flushWord (rom : RomContents) (index j : Nat) :
    (rom.program index Rom.flushWord).wordAt j = rom.wordAt j := by
  rw [wordAt_program, Rom.and_flushWord]
  split
  next heq => rw [heq]
  next => rfl

theorem commit_cons (rom : RomContents) (index : Nat) (word : UInt32)
    (rest : List (Nat × UInt32)) :
    rom.commit ((index, word) :: rest).toArray = (rom.program index word).commit rest.toArray := by
  simp [commit]

/-- Programming words one behind the other clears the bits that are clear in them, and no others. -/
theorem wordAt_commit_indexed (rom : RomContents) (index : Nat) (words : List UInt32) (j : Nat) :
    (rom.commit (indexed index words).toArray).wordAt j =
      if index ≤ j then rom.wordAt j &&& words.getD (j - index) Rom.flushWord
      else rom.wordAt j := by
  induction words generalizing rom index with
  | nil =>
      have hnone : (rom.commit (indexed index []).toArray) = rom := rfl
      rw [hnone, List.getD_nil, Rom.and_flushWord, ite_self]
  | cons word rest ih =>
      have hindexed : indexed index (word :: rest) = (index, word) :: indexed (index + 1) rest := by
        simp [indexed]
      rw [hindexed, commit_cons, ih, wordAt_program]
      by_cases heq : index = j
      · have hlater : ¬index + 1 ≤ j := by omega
        rw [if_neg hlater, if_pos heq, heq, if_pos (Nat.le_refl j), Nat.sub_self,
          List.getD_cons_zero]
      · rw [if_neg heq]
        by_cases hle : index ≤ j
        · have hlater : index + 1 ≤ j := by omega
          have hnext : j - index = j - (index + 1) + 1 := by omega
          rw [if_pos hle, if_pos hlater, hnext, List.getD_cons_succ]
        · have hlater : ¬index + 1 ≤ j := by omega
          rw [if_neg hle, if_neg hlater]

end RomContents

namespace SimulatedBoard

/-- The ROM with all that is still in the page buffer: a word that is written is added to it, no
matter whether it commits the page. -/
theorem commit_written (b : SimulatedBoard) (index : Nat) (word : UInt32) (closing : Bool)
    (rest : Array (Nat × UInt32)) :
    (b.written index word closing).rom.commit
        ((b.written index word closing).page.getD #[] ++ rest) =
      b.rom.commit (b.page.getD #[] ++ (#[(index, word)] ++ rest)) := by
  have hbuffer : b.page.getD #[] ++ (#[(index, word)] ++ rest) = b.pageWith index word ++ rest := by
    rw [← Array.append_assoc, pageWith, Array.push_eq_append]
  rw [hbuffer]
  cases closing with
  | false => rfl
  | true =>
      show (b.rom.commit (b.pageWith index word)).commit (#[] ++ rest) = _
      rw [Array.empty_append, RomContents.commit_append]

/-- A page is committed for each full page of words. -/
theorem pageCommits_written (b : SimulatedBoard) (index : Nat) (word : UInt32) (count : Nat) :
    (b.written index word (Rom.endsPage index)).activity.pageCommits +
        ((index + 1) % Rom.pageWords + count) / Rom.pageWords =
      b.activity.pageCommits + (index % Rom.pageWords + (count + 1)) / Rom.pageWords := by
  have hwords : Rom.pageWords = 64 := rfl
  rw [hwords]
  by_cases hends : (index + 1) % 64 = 0
  · have hcommits : (b.written index word (Rom.endsPage index)).activity.pageCommits =
        b.activity.pageCommits + 1 := by
      rw [show Rom.endsPage index = true from beq_iff_eq.mpr hends]
      rfl
    omega
  · have hcommits : (b.written index word (Rom.endsPage index)).activity.pageCommits =
        b.activity.pageCommits := by
      rw [show Rom.endsPage index = false from beq_eq_false_iff_ne.mpr hends]
      rfl
    omega

theorem filled_eq (b : SimulatedBoard) (index : Nat) (words : List UInt32) :
    b.filled index words =
      { b with
        rom := b.rom.commit (b.page.getD #[] ++
          (indexed index words ++ [(index + words.length, Rom.flushWord)]).toArray)
        page := none
        writeEnabled := false
        busy := 0
        activity.pageCommits := b.activity.pageCommits +
          (index % Rom.pageWords + words.length) / Rom.pageWords + 1 } := by
  induction words generalizing b index with
  | nil =>
      have hcount : (index % Rom.pageWords + ([] : List UInt32).length) / Rom.pageWords = 0 :=
        Nat.div_eq_of_lt (Nat.mod_lt _ (by decide))
      have hpage : b.pageWith (index + 0) Rom.flushWord =
          b.page.getD #[] ++ [(index + 0, Rom.flushWord)].toArray := Array.push_eq_append
      show { b.commitPage (b.pageWith (index + 0) Rom.flushWord) with busy := 0 } = _
      rw [hpage, hcount]
      rfl
  | cons word rest ih =>
      have hbehind : index + (rest.length + 1) = index + 1 + rest.length := by omega
      have hentries : #[(index, word)] ++ (indexed (index + 1) rest ++
          [(index + 1 + rest.length, Rom.flushWord)]).toArray =
          (indexed index (word :: rest) ++
            [(index + (rest.length + 1), Rom.flushWord)]).toArray := by
        rw [hbehind]
        simp [indexed]
      -- The buffer may have been committed with the first word; committing it later is the same.
      rw [filled_cons, ih, commit_written, pageCommits_written, hentries, List.length_cons]
      unfold written
      cases Rom.endsPage index <;> rfl

/-- An image in a ROM: the bits that are clear in it are cleared, and the flush word shows
nowhere. -/
theorem wordAt_filled {b : SimulatedBoard} (hpage : b.page = none) (words : List UInt32) (j : Nat) :
    (b.filled 0 words).rom.wordAt j = b.rom.wordAt j &&& words.getD j Rom.flushWord := by
  have hrom : (b.filled 0 words).rom = (b.rom.commit (indexed 0 words).toArray).program
      (0 + words.length) Rom.flushWord := by
    rw [filled_eq, hpage, Option.getD_none, Array.empty_append, ← List.append_toArray,
      RomContents.commit_append, RomContents.commit_cons]
    rfl
  rw [hrom, RomContents.wordAt_program_flushWord, RomContents.wordAt_commit_indexed,
    if_pos (Nat.zero_le j), Nat.sub_zero]

end SimulatedBoard
end Reflash
